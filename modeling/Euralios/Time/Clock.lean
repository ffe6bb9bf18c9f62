import Mathlib.Algebra.Group.Nat.Basic
import Mathlib.Data.Nat.Defs

/-!
# The TSC/PIT clock of `kernel/src/time.rs`

`time.rs` keeps three `AtomicU64` counters: `PIT_TICKS`, `LAST_TSC` and `TSC_PER_PIT`. The PIT
interrupt handler `pit_interrupt_notify` adds one PIT period to `PIT_TICKS`, swaps the Time Stamp
Counter into `LAST_TSC` and folds the TSC ticks of the period into the moving average
`TSC_PER_PIT`. `microseconds_monotonic` turns the counters and a fresh TSC sample into
microseconds.

Counters are natural numbers. Every `u64` operation of the source is checked: one whose result
leaves `[0, 2 ^ 64)` panics with Rust's message, as in a build with overflow checks, and division by
zero panics as in every build; `fetch_add` wraps. A panic is an `Except.error`.

* `microseconds_eq_ok`: a call that returns computes `toMicroseconds (scaledTicks ...)`.
* `microseconds_of_tscPerPit_zero`: while `TSC_PER_PIT` is zero, a call divides by zero.
* `scaledTicks_after_lt_iff`: across an interrupt, the scaled reading drops exactly when the TSC
  ticks of the ending period exceed one PIT period at the rate `TSC_PER_PIT` had.
* `runClock_reads_sorted_of_onTime`: in a run whose interrupts all come on time, with the TSC never
  going back and `PIT_TICKS` not wrapping, the reads never decrease; a late interrupt lowers the
  scaled reading at its own TSC.
-/

namespace Euralios.Time

/-- The Programmable Interrupt Timer frequency divider, `PIT_TICKS_PER_INTERRUPT`. -/
def pitTicksPerInterrupt : Nat := 65536

/-- The fixed-point scale `scaled_tsc_rate` of `microseconds_monotonic`. -/
def scaledTscRate : Nat := 32

/-! ## Checked `u64` arithmetic -/

/-- `a - b` on `u64`. -/
def u64Sub (a b : Nat) : Except String Nat :=
  if b ≤ a then .ok (a - b) else .error "attempt to subtract with overflow"

/-- `a + b` on `u64`. -/
def u64Add (a b : Nat) : Except String Nat :=
  if a + b < 2 ^ 64 then .ok (a + b) else .error "attempt to add with overflow"

/-- `a * b` on `u64`. -/
def u64Mul (a b : Nat) : Except String Nat :=
  if a * b < 2 ^ 64 then .ok (a * b) else .error "attempt to multiply with overflow"

/-- `a / b` on `u64`. -/
def u64Div (a b : Nat) : Except String Nat :=
  if b = 0 then .error "attempt to divide by zero" else .ok (a / b)

section Checked

variable {a b c : Nat}

@[simp]
theorem u64Sub_eq_ok : u64Sub a b = .ok c ↔ b ≤ a ∧ a - b = c := by
  unfold u64Sub; split <;> simp <;> omega

@[simp]
theorem u64Add_eq_ok : u64Add a b = .ok c ↔ a + b < 2 ^ 64 ∧ a + b = c := by
  unfold u64Add; split <;> simp <;> omega

@[simp]
theorem u64Mul_eq_ok : u64Mul a b = .ok c ↔ a * b < 2 ^ 64 ∧ a * b = c := by
  unfold u64Mul; split <;> simp <;> omega

@[simp]
theorem u64Div_eq_ok : u64Div a b = .ok c ↔ 0 < b ∧ a / b = c := by
  unfold u64Div; split <;> simp_all [Nat.pos_iff_ne_zero]

@[simp]
theorem u64Sub_eq_error {e : String} :
    u64Sub a b = .error e ↔ a < b ∧ e = "attempt to subtract with overflow" := by
  unfold u64Sub; split <;> simp [eq_comm] <;> omega

@[simp]
theorem u64Add_eq_error {e : String} :
    u64Add a b = .error e ↔ 2 ^ 64 ≤ a + b ∧ e = "attempt to add with overflow" := by
  unfold u64Add; split <;> simp [eq_comm] <;> omega

@[simp]
theorem u64Mul_eq_error {e : String} :
    u64Mul a b = .error e ↔ 2 ^ 64 ≤ a * b ∧ e = "attempt to multiply with overflow" := by
  unfold u64Mul; split <;> simp [eq_comm] <;> omega

@[simp]
theorem u64Div_eq_error {e : String} :
    u64Div a b = .error e ↔ b = 0 ∧ e = "attempt to divide by zero" := by
  unfold u64Div; split <;> simp_all [eq_comm]

/-- An `Except` computation returns `v` exactly when its first step returns some `x` from which
the rest returns `v`. -/
@[simp]
theorem except_bind_eq_ok {α β : Type} {x : Except String α} {f : α → Except String β} {v : β} :
    x >>= f = .ok v ↔ ∃ y, x = .ok y ∧ f y = .ok v := by
  cases x <;> simp [bind, Except.bind]

/-- An `Except` computation fails with `e` exactly when its first step does, or returns some `x`
from which the rest fails with `e`. -/
@[simp]
theorem except_bind_eq_error {α β : Type} {x : Except String α} {f : α → Except String β}
    {e : String} : x >>= f = .error e ↔ x = .error e ∨ ∃ y, x = .ok y ∧ f y = .error e := by
  cases x <;> simp [bind, Except.bind]

end Checked

/-! ## The counters and the interrupt handler -/

/-- The counters `PIT_TICKS`, `LAST_TSC` and `TSC_PER_PIT`. -/
structure Clock where
  /-- Cumulative number of PIT ticks since start. -/
  pitTicks : Nat
  /-- The Time Stamp Counter sampled by the last PIT interrupt. -/
  lastTsc : Nat
  /-- Moving average of TSC ticks per PIT tick. -/
  tscPerPit : Nat
  deriving DecidableEq, Repr

/-- The counters at boot: the three statics start at zero. -/
def Clock.boot : Clock := ⟨0, 0, 0⟩

/-- `pit_interrupt_notify`, run by the timer interrupt handler when the TSC reads `newTsc`. -/
def pitInterruptNotify (c : Clock) (newTsc : Nat) : Except String Clock := do
  let pitTicks := (c.pitTicks + pitTicksPerInterrupt) % 2 ^ 64
  let lastTsc := c.lastTsc
  let newTscPerPit := (← u64Sub newTsc lastTsc) / pitTicksPerInterrupt
  let maTscPerPit := (← u64Add newTscPerPit c.tscPerPit) / 2
  return { pitTicks, lastTsc := newTsc, tscPerPit := maTscPerPit }

/-- The interrupt handler returns exactly when the TSC has not gone back since the last interrupt
and the moving-average sum fits in a `u64`; it then advances the PIT count by one period, records
the TSC and halves the sum of the period's rate and the old average. -/
theorem pitInterruptNotify_eq_ok {c c' : Clock} {t : Nat} :
    pitInterruptNotify c t = .ok c' ↔
      c.lastTsc ≤ t ∧ (t - c.lastTsc) / pitTicksPerInterrupt + c.tscPerPit < 2 ^ 64 ∧
        c' = ⟨(c.pitTicks + pitTicksPerInterrupt) % 2 ^ 64, t,
          ((t - c.lastTsc) / pitTicksPerInterrupt + c.tscPerPit) / 2⟩ := by
  simp only [pitInterruptNotify, except_bind_eq_ok, u64Sub_eq_ok, u64Add_eq_ok]
  constructor
  · rintro ⟨d, ⟨hle, rfl⟩, s, ⟨hs, rfl⟩, h⟩
    exact ⟨hle, hs, (Except.ok.inj h).symm⟩
  · rintro ⟨hle, hs, rfl⟩
    exact ⟨_, ⟨hle, rfl⟩, _, ⟨hs, rfl⟩, rfl⟩

/-! ## Reading the clock -/

/-- The PIT ticks `pit` and the TSC ticks `tsc` since the last interrupt, both in units of
`1 / scaled_tsc_rate` PIT ticks, the TSC ticks converted at `tscPerPit` per PIT tick. -/
def scaledTicks (pit tsc tscPerPit : Nat) : Nat :=
  pit * scaledTscRate + tsc * scaledTscRate / tscPerPit

/-- Scaled PIT ticks to microseconds: one PIT tick is `878807 / 2 ^ 20 = 2011 * 437 / 2 ^ 20`
microseconds, divided in two steps to keep the product in a `u64`. -/
def toMicroseconds (x : Nat) : Nat :=
  x * 2011 / 1024 * 437 / (1024 * scaledTscRate)

/-- The arithmetic of `microseconds_monotonic` after its subtraction: `pit` loaded from
`PIT_TICKS`, `tsc` the TSC ticks since `LAST_TSC`, and `tscPerPit` loaded from `TSC_PER_PIT`. -/
def scaledMicroseconds (pit tsc tscPerPit : Nat) : Except String Nat := do
  let scaledTsc ← u64Div (← u64Mul tsc scaledTscRate) tscPerPit
  let x ← u64Add (← u64Mul pit scaledTscRate) scaledTsc
  let y ← u64Mul ((← u64Mul x 2011) / 1024) 437
  return y / (1024 * scaledTscRate)

/-- The arithmetic of `microseconds_monotonic` on the values it obtained: `pit` loaded from
`PIT_TICKS`, `tsc` from `time_stamp_counter()`, `lastTsc` from `LAST_TSC` and `tscPerPit` from
`TSC_PER_PIT`. -/
def microseconds (pit tsc lastTsc tscPerPit : Nat) : Except String Nat := do
  scaledMicroseconds pit (← u64Sub tsc lastTsc) tscPerPit

/-- `microseconds_monotonic` on the counters `c` when the TSC reads `tsc`. -/
def microsecondsMonotonic (c : Clock) (tsc : Nat) : Except String Nat :=
  microseconds c.pitTicks tsc c.lastTsc c.tscPerPit

section Reading

variable {pit tsc lastTsc tscPerPit v : Nat}

/-- The arithmetic after the subtraction returns only with a non-zero `TSC_PER_PIT`, and then
returns the scaled ticks in microseconds. -/
theorem scaledMicroseconds_eq_ok (h : scaledMicroseconds pit tsc tscPerPit = .ok v) :
    0 < tscPerPit ∧ v = toMicroseconds (scaledTicks pit tsc tscPerPit) := by
  simp only [scaledMicroseconds, except_bind_eq_ok, u64Mul_eq_ok, u64Div_eq_ok,
    u64Add_eq_ok] at h
  obtain ⟨_, ⟨-, rfl⟩, _, ⟨hpos, rfl⟩, _, ⟨-, rfl⟩, _, ⟨-, rfl⟩, _, ⟨-, rfl⟩, _, ⟨-, rfl⟩, h⟩ := h
  exact ⟨hpos, (Except.ok.inj h).symm.trans rfl⟩

/-- A call that returns has loaded a `LAST_TSC` no later than its TSC sample and a non-zero
`TSC_PER_PIT`, and returns the scaled ticks in microseconds. -/
theorem microseconds_eq_ok (h : microseconds pit tsc lastTsc tscPerPit = .ok v) :
    lastTsc ≤ tsc ∧ 0 < tscPerPit ∧
      v = toMicroseconds (scaledTicks pit (tsc - lastTsc) tscPerPit) := by
  simp only [microseconds, except_bind_eq_ok, u64Sub_eq_ok] at h
  obtain ⟨_, ⟨hle, rfl⟩, h⟩ := h
  exact ⟨hle, scaledMicroseconds_eq_ok h⟩

/-- The second product of the unit conversion stays below the first. -/
private theorem mul_437_lt {x : Nat} (h : x * 2011 < 2 ^ 64) : x * 2011 / 1024 * 437 < 2 ^ 64 :=
  Nat.lt_of_le_of_lt (by omega) h

/-- A call returns when the TSC sample is not behind `LAST_TSC`, `TSC_PER_PIT` is non-zero and
the scaled ticks fit in a `u64` after the multiplication by `2011`. -/
theorem microseconds_of_fits (hle : lastTsc ≤ tsc) (hpos : 0 < tscPerPit)
    (htsc : (tsc - lastTsc) * scaledTscRate < 2 ^ 64)
    (hfit : scaledTicks pit (tsc - lastTsc) tscPerPit * 2011 < 2 ^ 64) :
    microseconds pit tsc lastTsc tscPerPit =
      .ok (toMicroseconds (scaledTicks pit (tsc - lastTsc) tscPerPit)) := by
  have hx : scaledTicks pit (tsc - lastTsc) tscPerPit < 2 ^ 64 := by omega
  unfold scaledTicks at hx hfit
  simp only [microseconds, scaledMicroseconds, except_bind_eq_ok, u64Sub_eq_ok, u64Mul_eq_ok,
    u64Div_eq_ok, u64Add_eq_ok]
  refine ⟨_, ⟨hle, rfl⟩, _, ⟨htsc, rfl⟩, _, ⟨hpos, rfl⟩, _,
    ⟨Nat.lt_of_le_of_lt (Nat.le_add_right _ _) hx, rfl⟩, _, ⟨hx, rfl⟩,
    _, ⟨hfit, rfl⟩, _, ⟨mul_437_lt hfit, rfl⟩, rfl⟩

/-- While `TSC_PER_PIT` is zero, every call whose subtraction and first product succeed panics
on the division by `tsc_per_pit`. -/
theorem microseconds_of_tscPerPit_zero (hle : lastTsc ≤ tsc)
    (htsc : (tsc - lastTsc) * scaledTscRate < 2 ^ 64) :
    microseconds pit tsc lastTsc 0 = .error "attempt to divide by zero" := by
  have hsub : u64Sub tsc lastTsc = .ok (tsc - lastTsc) := u64Sub_eq_ok.mpr ⟨hle, rfl⟩
  have hmul : u64Mul (tsc - lastTsc) scaledTscRate = .ok _ := u64Mul_eq_ok.mpr ⟨htsc, rfl⟩
  simp [microseconds, scaledMicroseconds, hsub, hmul, u64Div, bind, Except.bind]

end Reading

/-- Scaled ticks grow with the TSC ticks. -/
theorem scaledTicks_mono {pit tsc tsc' r : Nat} (h : tsc ≤ tsc') :
    scaledTicks pit tsc r ≤ scaledTicks pit tsc' r :=
  Nat.add_le_add_left (Nat.div_le_div_right (Nat.mul_le_mul_right _ h)) _

/-- The unit conversion is monotone. -/
theorem toMicroseconds_mono {x y : Nat} (h : x ≤ y) : toMicroseconds x ≤ toMicroseconds y :=
  Nat.div_le_div_right (Nat.mul_le_mul_right _ (Nat.div_le_div_right (Nat.mul_le_mul_right _ h)))

/-- Across a PIT interrupt at TSC `t`, the scaled reading at `t` drops exactly when the TSC
ticks since the previous interrupt, at the old `TSC_PER_PIT`, exceed one PIT period: the reading
after the interrupt restarts its TSC term from zero, while the PIT count has grown by one period
only. -/
theorem scaledTicks_after_lt_iff {c c' : Clock} {t : Nat} (h : pitInterruptNotify c t = .ok c')
    (hwrap : c.pitTicks + pitTicksPerInterrupt < 2 ^ 64) :
    scaledTicks c'.pitTicks (t - c'.lastTsc) c'.tscPerPit <
        scaledTicks c.pitTicks (t - c.lastTsc) c.tscPerPit ↔
      pitTicksPerInterrupt * scaledTscRate < (t - c.lastTsc) * scaledTscRate / c.tscPerPit := by
  obtain ⟨-, -, rfl⟩ := pitInterruptNotify_eq_ok.mp h
  simp only [scaledTicks, Nat.mod_eq_of_lt hwrap, Nat.sub_self, Nat.zero_mul, Nat.zero_div,
    Nat.add_zero, Nat.add_mul]
  omega

/-! ## Runs -/

/-- One step of a run of the clock: a PIT interrupt, or a call of `microseconds_monotonic`, each
with the TSC reading at that moment. -/
inductive ClockEvent
  /-- The timer interrupt handler runs `pit_interrupt_notify`. -/
  | pitInterrupt (tsc : Nat)
  /-- A call of `microseconds_monotonic`. -/
  | read (tsc : Nat)
  deriving DecidableEq, Repr

/-- The counters after a run and the values its reads returned, or the first panic. -/
def runClock : Clock → List ClockEvent → Except String (Clock × List Nat)
  | c, [] => .ok (c, [])
  | c, .pitInterrupt t :: rest => do runClock (← pitInterruptNotify c t) rest
  | c, .read t :: rest => do
    let v ← microsecondsMonotonic c t
    let (c', vs) ← runClock c rest
    return (c', v :: vs)

/-- `microseconds_monotonic` divides by `TSC_PER_PIT` without a check: whenever that counter is
zero, a call whose subtraction and first product succeed panics. -/
theorem microsecondsMonotonic_of_tscPerPit_zero (c : Clock) (tsc : Nat) (h0 : c.tscPerPit = 0)
    (hle : c.lastTsc ≤ tsc) (htsc : (tsc - c.lastTsc) * scaledTscRate < 2 ^ 64) :
    microsecondsMonotonic c tsc = .error "attempt to divide by zero" := by
  rw [microsecondsMonotonic, h0]
  exact microseconds_of_tscPerPit_zero hle htsc

/-- Before the first PIT interrupt, a call with the TSC at `1000` panics. -/
theorem microsecondsMonotonic_of_tscPerPit_zero_at_boot :
    (Clock.boot.tscPerPit = 0 ∧ Clock.boot.lastTsc ≤ 1000 ∧
      (1000 - Clock.boot.lastTsc) * scaledTscRate < 2 ^ 64) ∧
    microsecondsMonotonic Clock.boot 1000 = .error "attempt to divide by zero" :=
  ⟨⟨rfl, by decide, by decide⟩,
    microsecondsMonotonic_of_tscPerPit_zero Clock.boot 1000 rfl (by decide) (by decide)⟩

/-- `TSC_PER_PIT` falls back to zero after an interrupt exactly when the period's rate and the old
average add up to less than two. -/
theorem tscPerPit_eq_zero_iff {c c' : Clock} {t : Nat} (h : pitInterruptNotify c t = .ok c') :
    c'.tscPerPit = 0 ↔ (t - c.lastTsc) / pitTicksPerInterrupt + c.tscPerPit < 2 := by
  obtain ⟨-, -, rfl⟩ := pitInterruptNotify_eq_ok.mp h
  simp only [pitTicksPerInterrupt]
  omega

/-- A run from boot in which the TSC never goes back, `TSC_PER_PIT` is non-zero at both reads and
nothing overflows, and the second reading is smaller than the first. The first interrupt sets
`TSC_PER_PIT` to `1`; the next period lasts ten million TSC ticks, so the read just before the
second interrupt counts far more than one PIT period of TSC ticks, which the read just after it
drops in exchange for one period of PIT ticks. -/
theorem microsecondsMonotonic_decreases_across_interrupt :
    pitInterruptNotify Clock.boot 131072 = .ok ⟨65536, 131072, 1⟩ ∧
    pitInterruptNotify ⟨65536, 131072, 1⟩ 10131072 = .ok ⟨131072, 10131072, 76⟩ ∧
    runClock Clock.boot
        [.pitInterrupt 131072, .read 10131072, .pitInterrupt 10131072, .read 10131072] =
      .ok (⟨131072, 10131072, 76⟩, [8435882, 109850]) :=
  ⟨rfl, rfl, rfl⟩

/-! ## Runs whose interrupts come on time

The run above breaks monotonicity because its second interrupt comes late: the period it ends
lasts far more TSC ticks than `TSC_PER_PIT` predicts for one PIT period. When no interrupt comes
late, and `PIT_TICKS` does not wrap, the reads of a run never decrease. -/

/-- The TSC reading at a step of a run. -/
def ClockEvent.tsc : ClockEvent → Nat
  | .pitInterrupt t => t
  | .read t => t

/-- Whether a step of a run is a PIT interrupt. -/
def ClockEvent.isPitInterrupt : ClockEvent → Bool
  | .pitInterrupt _ => true
  | .read _ => false

/-- What a call of `microseconds_monotonic` on the counters `c` returns at TSC `t` when none of
its checks fails. -/
def reading (c : Clock) (t : Nat) : Nat :=
  toMicroseconds (scaledTicks c.pitTicks (t - c.lastTsc) c.tscPerPit)

/-- Whether every PIT interrupt of a run comes on time: the TSC ticks of the period it ends,
converted at the `TSC_PER_PIT` of that period, amount to at most one PIT period. -/
def interruptsOnTime : Clock → List ClockEvent → Bool
  | _, [] => true
  | c, .read _ :: rest => interruptsOnTime c rest
  | c, .pitInterrupt t :: rest =>
    decide ((t - c.lastTsc) * scaledTscRate / c.tscPerPit ≤ pitTicksPerInterrupt * scaledTscRate) &&
      match pitInterruptNotify c t with
      | .ok c' => interruptsOnTime c' rest
      | .error _ => true

section OnTime

variable {c c' : Clock} {t : Nat} {rest : List ClockEvent}

/-- The empty run returns the counters it started with and no reads. -/
theorem runClock_nil_eq_ok {vs : List Nat} : runClock c [] = .ok (c', vs) ↔ c' = c ∧ vs = [] := by
  simp [runClock, eq_comm]

/-- A run that starts with an interrupt returns what the rest returns from the handler's
counters. -/
theorem runClock_pitInterrupt_eq_ok {r : Clock × List Nat} :
    runClock c (.pitInterrupt t :: rest) = .ok r ↔
      ∃ c₁, pitInterruptNotify c t = .ok c₁ ∧ runClock c₁ rest = .ok r := by
  simp only [runClock, except_bind_eq_ok]

/-- A run that starts with a read returns that read's value in front of the rest's. -/
theorem runClock_read_eq_ok {vs : List Nat} :
    runClock c (.read t :: rest) = .ok (c', vs) ↔
      ∃ v vs', microsecondsMonotonic c t = .ok v ∧ runClock c rest = .ok (c', vs') ∧
        vs = v :: vs' := by
  simp only [runClock, except_bind_eq_ok]
  constructor
  · rintro ⟨v, hv, ⟨c₁, vs'⟩, hr, h⟩
    obtain ⟨rfl, rfl⟩ := Prod.mk.inj (Except.ok.inj h)
    exact ⟨v, vs', hv, hr, rfl⟩
  · rintro ⟨v, vs', hv, hr, rfl⟩
    exact ⟨v, hv, _, hr, rfl⟩

/-- An interrupt followed by `n` more, none of them wrapping `PIT_TICKS`, advances it by exactly one
period and leaves room for the `n` others. -/
theorem pitTicks_add_lt_of_pitInterruptNotify (h : pitInterruptNotify c t = .ok c') {n : Nat}
    (hwrap : c.pitTicks + (n + 1) * pitTicksPerInterrupt < 2 ^ 64) :
    c.pitTicks + pitTicksPerInterrupt < 2 ^ 64 ∧
      c'.pitTicks + n * pitTicksPerInterrupt < 2 ^ 64 := by
  obtain ⟨-, -, rfl⟩ := pitInterruptNotify_eq_ok.mp h
  rw [Nat.add_mul, Nat.one_mul] at hwrap
  have hw : c.pitTicks + pitTicksPerInterrupt < 2 ^ 64 := by omega
  refine ⟨hw, ?_⟩
  dsimp only
  rw [Nat.mod_eq_of_lt hw]
  omega

/-- The reading grows with the TSC. -/
theorem reading_mono (c : Clock) {t t' : Nat} (h : t ≤ t') : reading c t ≤ reading c t' :=
  toMicroseconds_mono (scaledTicks_mono (Nat.sub_le_sub_right h _))

/-- An interrupt that comes on time and does not wrap `PIT_TICKS` does not lower the reading at
its own TSC: the PIT period it adds covers the TSC term it drops. -/
theorem reading_le_of_onTime (h : pitInterruptNotify c t = .ok c')
    (hwrap : c.pitTicks + pitTicksPerInterrupt < 2 ^ 64)
    (hon : (t - c.lastTsc) * scaledTscRate / c.tscPerPit ≤ pitTicksPerInterrupt * scaledTscRate) :
    reading c t ≤ reading c' t :=
  toMicroseconds_mono (Nat.le_of_not_lt fun hlt =>
    Nat.not_lt.mpr hon ((scaledTicks_after_lt_iff h hwrap).mp hlt))

/-- Every read of a run returns at least the reading at a TSC `t₀` no later than the run's steps,
and at least every earlier read, when its interrupts come on time and `PIT_TICKS` does not
wrap. -/
theorem reading_le_and_sorted_of_runClock {events : List ClockEvent} {vs : List Nat} {t₀ : Nat}
    (hrun : runClock c events = .ok (c', vs))
    (htsc : (t₀ :: events.map ClockEvent.tsc).Pairwise (· ≤ ·))
    (hwrap : c.pitTicks + events.countP ClockEvent.isPitInterrupt * pitTicksPerInterrupt < 2 ^ 64)
    (hon : interruptsOnTime c events) : (∀ v ∈ vs, reading c t₀ ≤ v) ∧ vs.Pairwise (· ≤ ·) := by
  induction events generalizing c t₀ vs with
  | nil =>
    obtain ⟨-, rfl⟩ := runClock_nil_eq_ok.mp hrun
    exact ⟨fun _ h => absurd h (List.not_mem_nil _), List.Pairwise.nil⟩
  | cons e rest ih =>
    obtain ⟨ht₀, hrest⟩ := List.pairwise_cons.mp htsc
    replace ht₀ : t₀ ≤ e.tsc := ht₀ _ (List.mem_cons_self _ _)
    cases e with
    | read t =>
      obtain ⟨v, vs', hv, hrun', rfl⟩ := runClock_read_eq_ok.mp hrun
      obtain ⟨-, -, rfl⟩ := microseconds_eq_ok hv
      obtain ⟨hge, hsorted⟩ := ih hrun' hrest (by simpa [ClockEvent.isPitInterrupt] using hwrap) hon
      refine ⟨?_, List.pairwise_cons.mpr ⟨hge, hsorted⟩⟩
      rintro _ (_ | ⟨_, hmem⟩)
      · exact reading_mono c ht₀
      · exact Nat.le_trans (reading_mono c ht₀) (hge _ hmem)
    | pitInterrupt t =>
      obtain ⟨c₁, h₁, hrun'⟩ := runClock_pitInterrupt_eq_ok.mp hrun
      simp only [interruptsOnTime, h₁, Bool.and_eq_true, decide_eq_true_eq] at hon
      obtain ⟨hw, hwrap'⟩ := pitTicks_add_lt_of_pitInterruptNotify h₁
        (by simpa [ClockEvent.isPitInterrupt] using hwrap)
      obtain ⟨hge, hsorted⟩ := ih hrun' hrest hwrap' hon.2
      refine ⟨fun v hv => ?_, hsorted⟩
      calc reading c t₀ ≤ reading c t := reading_mono c ht₀
        _ ≤ reading c₁ t := reading_le_of_onTime h₁ hw hon.1
        _ ≤ v := hge v hv

end OnTime

/-- In every run of the clock whose TSC readings never go back, whose `PIT_TICKS` does not wrap
and whose PIT interrupts all come on time (each period lasts at most one PIT period of TSC ticks
at the `TSC_PER_PIT` it started with), every read returns at least every earlier read. The
condition is tight: an interrupt that comes late, and does not wrap `PIT_TICKS`, lowers the scaled
reading at its own TSC. -/
theorem runClock_reads_sorted_of_onTime :
    (∀ (c c' : Clock) (events : List ClockEvent) (vs : List Nat),
      runClock c events = .ok (c', vs) → (events.map ClockEvent.tsc).Pairwise (· ≤ ·) →
      c.pitTicks + events.countP ClockEvent.isPitInterrupt * pitTicksPerInterrupt < 2 ^ 64 →
      interruptsOnTime c events → vs.Pairwise (· ≤ ·)) ∧
    (∀ (c c' : Clock) (t : Nat), pitInterruptNotify c t = .ok c' →
      c.pitTicks + pitTicksPerInterrupt < 2 ^ 64 → interruptsOnTime c [.pitInterrupt t] = false →
      scaledTicks c'.pitTicks (t - c'.lastTsc) c'.tscPerPit <
        scaledTicks c.pitTicks (t - c.lastTsc) c.tscPerPit) := by
  refine ⟨fun c c' events vs hrun htsc hwrap hon => ?_, fun c c' t h hwrap hlate => ?_⟩
  · exact (@reading_le_and_sorted_of_runClock c c' events vs 0 hrun
      (List.pairwise_cons.mpr ⟨fun _ _ => Nat.zero_le _, htsc⟩) hwrap hon).2
  · refine (scaledTicks_after_lt_iff h hwrap).mpr ?_
    simpa [interruptsOnTime, h] using hlate

/-- A run from boot: the first interrupt sets `TSC_PER_PIT` to `5`, and the second comes exactly
one PIT period later at that rate, so the read after it is not below the read before it. An
interrupt ten million TSC ticks after the last, at `TSC_PER_PIT = 1`, is late, and the scaled
reading at its TSC drops from `322097152` to `4194304`. -/
theorem runClock_reads_sorted_of_onTime_steady :
    (let events : List ClockEvent :=
      [.pitInterrupt 655360, .read 700000, .pitInterrupt 983040, .read 983040]
    (runClock Clock.boot events = .ok (⟨131072, 983040, 5⟩, [62407, 109850]) ∧
      (events.map ClockEvent.tsc).Pairwise (· ≤ ·) ∧
      Clock.boot.pitTicks + events.countP ClockEvent.isPitInterrupt * pitTicksPerInterrupt <
        2 ^ 64 ∧
      interruptsOnTime Clock.boot events) ∧
    [62407, 109850].Pairwise (· ≤ ·)) ∧
    ((pitInterruptNotify ⟨65536, 131072, 1⟩ 10131072 = .ok ⟨131072, 10131072, 76⟩ ∧
      65536 + pitTicksPerInterrupt < 2 ^ 64 ∧
      interruptsOnTime ⟨65536, 131072, 1⟩ [.pitInterrupt 10131072] = false) ∧
    scaledTicks 131072 (10131072 - 10131072) 76 < scaledTicks 65536 (10131072 - 131072) 1) :=
  ⟨⟨⟨rfl, by decide, by decide, rfl⟩, runClock_reads_sorted_of_onTime.1 Clock.boot
      ⟨131072, 983040, 5⟩ [.pitInterrupt 655360, .read 700000, .pitInterrupt 983040, .read 983040]
      [62407, 109850] rfl (by decide) (by decide) rfl⟩,
    ⟨⟨rfl, by decide, rfl⟩, runClock_reads_sorted_of_onTime.2 ⟨65536, 131072, 1⟩
      ⟨131072, 10131072, 76⟩ 10131072 rfl (by decide) rfl⟩⟩

end Euralios.Time
