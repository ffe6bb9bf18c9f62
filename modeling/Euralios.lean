import Euralios.Time.Clock
import Euralios.Time.Reader
import Euralios.Time.Calibration
import Euralios.Time.Horizon
import Euralios.Process.Thread
import Euralios.Process.Schedule
import Euralios.Process.Create
import Euralios.Process.Run
import Euralios.Process.Stacks
import Euralios.Process.PageTables
import Euralios.Process.Preemption
import Euralios.Process.Fairness
import Euralios.Std.Fs
import Euralios.Init.Main
