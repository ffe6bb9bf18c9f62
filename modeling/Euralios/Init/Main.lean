import Euralios.Std.Fs

/-!
# The boot program: `init/src/main.rs`

`init` is the first user program. `main` receives the video memory that the kernel sends on
`STDOUT`, starts the VGA driver and sends it that memory, opens a writer for system programs on
the VGA driver, and then `mount`s three driver programs. `mount(path, bin, flags, stdout)` makes
a new rendezvous, starts `bin` with one end as its input, and mounts the other end at `path`.

Every effect of `init` is a syscall, and every syscall is outside this fragment. The model runs
`init` against a `System`: for each syscall that returns something, the reply that the rest of
the system gives, as a function of the exchanges so far. The state of a run is its log of
exchanges, each a syscall with the reply it got; a panic ends the run and keeps the log up to it.
So every theorem below holds for every kernel and every driver, whatever they answer.

* `wp`: what holds after a run, with one `@[simp]` lemma per combinator, so that a proof about
  `main` unfolds into the case split on the replies it checks.
* `main_panics_at_first_refused_reply`: a run panics exactly at the first reply that `init`
  cannot go on with, and makes no syscall after it; a driver that fails to start stops the boot.
* `main_mounts_drivers`: a run that returns has mounted `/pci`, `/dev/nic` and `/tcp` in this
  order, each with the other end of a new rendezvous whose first end the program started for it
  just before got as input, and with a clone of the VGA writer as output; a run that panics has
  mounted a proper prefix of these paths.
-/

namespace Euralios.Init

open Euralios.Std (SyscallError MessageData MemoryHandle RcallResult)

/-- `Message`: a short message of three words, or a long one whose two data can carry handles
and memory. -/
inductive Message
  /-- `Message::Short(tag, value1, value2)`. -/
  | short (tag value1 value2 : Nat)
  /-- `Message::Long(tag, data1, data2)`. -/
  | long (tag : Nat) (data1 data2 : MessageData)
  deriving DecidableEq, Repr

/-- The constants of `message.rs` and `syscalls.rs` that `init` uses. Their values are defined
outside this fragment, so the functions below take them as a parameter. -/
structure Constants where
  /-- `message::VIDEO_MEMORY`. -/
  videoMemory : Nat
  /-- `message::OPEN`. -/
  «open» : Nat
  /-- `message::COMM_HANDLE`. -/
  commHandle : Nat
  /-- `message::WRITE`. -/
  write : Nat
  /-- `syscalls::EXEC_PERM_IO`, the flag that gives a program access to I/O ports. -/
  execPermIo : Nat
  /-- The handle `syscalls::STDOUT`. -/
  stdout : Nat
  deriving DecidableEq, Repr

/-- The programs that `init` embeds with `include_bytes!`. -/
structure Binaries where
  /-- `user/vga_driver`. -/
  vgaDriver : List UInt8
  /-- `user/pci`. -/
  pci : List UInt8
  /-- `user/rtl8139`. -/
  rtl8139 : List UInt8
  /-- `user/tcp`. -/
  tcp : List UInt8
  deriving DecidableEq, Repr

/-- One syscall of `init`, with the reply it got when it returns one. -/
inductive Exchange
  /-- `debug_println!(text)`. -/
  | debugPrint (text : String)
  /-- `syscalls::receive(handle)`. -/
  | receive (handle : Nat) (reply : Except SyscallError Message)
  /-- `syscalls::new_rendezvous()`: the two ends of a new rendezvous. -/
  | newRendezvous (reply : Except SyscallError (Nat × Nat))
  /-- `CommHandle::clone`: a new handle to the endpoint of `handle`. -/
  | clone (handle reply : Nat)
  /-- `syscalls::exec(bin, flags, stdin, stdout)`. -/
  | exec (bin : List UInt8) (flags stdin stdout : Nat) (reply : Except SyscallError Unit)
  /-- `syscalls::send(handle, message)`, whose result `init` drops. -/
  | send (handle : Nat) (message : Message)
  /-- `rcall(handle, tag, data1, data2, None)`. -/
  | rcall (handle tag : Nat) (data1 data2 : MessageData) (reply : RcallResult)
  /-- `syscalls::mount(path, handle)`. -/
  | mount (path : String) (handle : Nat)
  /-- `fprintln!(handle, text)`. -/
  | print (handle : Nat) (text : String)
  deriving Repr

/-- The rest of the system as `init` sees it: the reply to each syscall that returns one, given
the exchanges so far. -/
structure System where
  /-- The reply of `syscalls::receive(handle)`. -/
  receive : List Exchange → Nat → Except SyscallError Message
  /-- The reply of `syscalls::new_rendezvous()`. -/
  newRendezvous : List Exchange → Except SyscallError (Nat × Nat)
  /-- The handle that `CommHandle::clone` returns. -/
  clone : List Exchange → Nat → Nat
  /-- The reply of `syscalls::exec(bin, flags, stdin, stdout)`. -/
  exec : List Exchange → List UInt8 → Nat → Nat → Nat → Except SyscallError Unit
  /-- The reply of `rcall(handle, tag, data1, data2, None)`. -/
  rcall : List Exchange → Nat → Nat → MessageData → MessageData → RcallResult

/-- Why `init` panicked, with the value that the panic message prints. -/
inductive Panic
  /-- `"[init] Expected video memory message. Received …"`, with the result of `receive`. -/
  | expectedVideoMemory (received : Except SyscallError Message)
  /-- `Result::unwrap` of an `Err`. -/
  | unwrap (error : SyscallError)
  /-- `Result::expect(message)` of an `Err`. -/
  | expect (message : String) (error : SyscallError)
  /-- `"[init] Received unexpected message …"`, with the reply of `rcall`. -/
  | unexpectedMessage (reply : Nat × MessageData × MessageData)
  /-- `"[init] Received error …"`, with the error of `rcall`. -/
  | receivedError (code : SyscallError)
  deriving Repr

/-- A run of `init`: its state is the log of its exchanges, and a panic keeps the log up to it. -/
abbrev InitM := EStateM Panic (List Exchange)

/-- A syscall whose reply `reply` gives from the log so far, logged as `exchange` of the reply. -/
def call {α : Type} (reply : List Exchange → α) (exchange : α → Exchange) : InitM α :=
  fun log => .ok (reply log) (log ++ [exchange (reply log)])

/-! ## Syscalls -/

namespace Syscalls

variable (sys : System)

/-- `debug_println!(text)`. -/
def debugPrint (text : String) : InitM Unit := call (fun _ => ()) fun _ => .debugPrint text

/-- `syscalls::receive(handle)`. -/
def receive (handle : Nat) : InitM (Except SyscallError Message) :=
  call (sys.receive · handle) (.receive handle)

/-- `syscalls::new_rendezvous()`. -/
def newRendezvous : InitM (Except SyscallError (Nat × Nat)) :=
  call sys.newRendezvous .newRendezvous

/-- `CommHandle::clone`. -/
def clone (handle : Nat) : InitM Nat := call (sys.clone · handle) (.clone handle)

/-- `syscalls::exec(bin, flags, stdin, stdout)`. -/
def exec (bin : List UInt8) (flags stdin stdout : Nat) : InitM (Except SyscallError Unit) :=
  call (sys.exec · bin flags stdin stdout) (.exec bin flags stdin stdout)

/-- `syscalls::send(handle, message)`; `init` drops its result. -/
def send (handle : Nat) (message : Message) : InitM Unit :=
  call (fun _ => ()) fun _ => .send handle message

/-- `rcall(handle, tag, data1, data2, None)`. -/
def rcall (handle tag : Nat) (data1 data2 : MessageData) : InitM RcallResult :=
  call (sys.rcall · handle tag data1 data2) (.rcall handle tag data1 data2)

/-- `syscalls::mount(path, handle)`. -/
def mount (path : String) (handle : Nat) : InitM Unit :=
  call (fun _ => ()) fun _ => .mount path handle

/-- `fprintln!(handle, text)`. -/
def print (handle : Nat) (text : String) : InitM Unit :=
  call (fun _ => ()) fun _ => .print handle text

end Syscalls

/-! ## The program -/

/-- `Result::unwrap` of a syscall's result. -/
def unwrap {α : Type} (x : InitM (Except SyscallError α)) : InitM α := do
  match ← x with
  | .ok a => pure a
  | .error e => throw (.unwrap e)

/-- `Result::expect(message)` of a syscall's result. -/
def expect {α : Type} (x : InitM (Except SyscallError α)) (message : String) : InitM α := do
  match ← x with
  | .ok a => pure a
  | .error e => throw (.expect message e)

/-- The first arm of `main`'s match on `syscalls::receive(&STDOUT)`:
`Ok(Message::Long(VIDEO_MEMORY, Value(length), MemoryHandle(handle)))`. -/
def videoMemoryOf (k : Constants) : Except SyscallError Message → Option (Nat × MemoryHandle)
  | .ok (.long tag (.value length) (.memoryHandle handle)) =>
    if tag = k.videoMemory then some (length, handle) else none
  | _ => none

/-- The first arm of `main`'s match on the reply of the `OPEN` call:
`Ok((COMM_HANDLE, CommHandle(handle), Value(id)))`. -/
def writerOf (k : Constants) : Nat × MessageData × MessageData → Option (Nat × Nat)
  | (tag, .commHandle handle, .value id) => if tag = k.commHandle then some (handle, id) else none
  | _ => none

/-- The line that `mount` prints before it starts a program. -/
def startingText (path : String) (flags : Nat) : String :=
  "[init] Starting program mounted at " ++ path ++ " with flags " ++ toString flags

section Program

variable (sys : System) (k : Constants) (bins : Binaries)

/-- `fn mount(path, bin, flags, stdout)`. -/
def mount (path : String) (bin : List UInt8) (flags stdout : Nat) : InitM Unit := do
  Syscalls.print stdout (startingText path flags)
  let (input, input2) ← unwrap (Syscalls.newRendezvous sys)
  expect (Syscalls.exec sys bin flags input stdout) "[init] Couldn't start program"
  Syscalls.mount path input2

/-- `fn main()`. -/
def main : InitM Unit := do
  Syscalls.debugPrint "[init] Starting"
  let (vmemLength, vmemHandle) ← (do
    let received ← Syscalls.receive sys k.stdout
    match videoMemoryOf k received with
    | some memory => pure memory
    | none => throw (.expectedVideoMemory received))
  let (vgaCom, vgaCom2) ← unwrap (Syscalls.newRendezvous sys)
  let vgaStdin ← Syscalls.clone sys vgaCom2
  expect (Syscalls.exec sys bins.vgaDriver k.execPermIo vgaStdin vgaCom2)
    "[init] Couldn't start VGA program"
  Syscalls.send vgaCom (.long k.videoMemory (.value vmemLength) (.memoryHandle vmemHandle))
  let (writerSys, writerSysId) ← (do
    match ← Syscalls.rcall sys vgaCom k.open (.value 0) (.value 0) with
    | .ok reply =>
      match writerOf k reply with
      | some writer => pure writer
      | none => throw (.unexpectedMessage reply)
    | .error code => throw (.receivedError code))
  Syscalls.send vgaCom (.short k.write writerSysId 0)
  Syscalls.print writerSys "[init] Starting EuraliOS..."
  mount sys "/pci" bins.pci k.execPermIo (← Syscalls.clone sys writerSys)
  mount sys "/dev/nic" bins.rtl8139 k.execPermIo (← Syscalls.clone sys writerSys)
  mount sys "/tcp" bins.tcp 0 (← Syscalls.clone sys writerSys)

end Program

/-! ## What holds after a run -/

/-- What holds after running `x` from `log`: `Q` of its value and log when it returns, `E` of its
panic and log when it panics. Irreducible, so that only the lemmas below take it apart. -/
@[irreducible]
def wp {α : Type} (x : InitM α) (Q : α → List Exchange → Prop) (E : Panic → List Exchange → Prop)
    (log : List Exchange) : Prop :=
  match x log with
  | .ok a log' => Q a log'
  | .error p log' => E p log'

section Wp

variable {α β : Type} {Q : β → List Exchange → Prop} {E : Panic → List Exchange → Prop}
  {log : List Exchange}

@[simp]
theorem wp_pure (a : β) : wp (pure a) Q E log = Q a log := by
  unfold wp; rfl

@[simp]
theorem wp_throw (p : Panic) : wp (throw p : InitM β) Q E log = E p log := by
  unfold wp; rfl

@[simp]
theorem wp_bind (x : InitM α) (f : α → InitM β) :
    wp (x >>= f) Q E log = wp x (fun a => wp (f a) Q E) E log := by
  simp only [wp, bind, EStateM.bind]
  cases x log <;> rfl

/-- A syscall: whatever the system replies, the reply and the log with its exchange satisfy `Q`.
The reply is a new variable, so that the logs in a proof stay as small as the program. -/
theorem wp_call_of_forall {reply : List Exchange → β} {exchange : β → Exchange}
    (h : ∀ r, Q r (log ++ [exchange r])) : wp (call reply exchange) Q E log := by
  unfold wp; exact h _

/-- What `wp` promises of a run that returns. -/
theorem wp_ok {x : InitM β} {a : β} {log' : List Exchange} (h : wp x Q E log)
    (hx : x log = .ok a log') : Q a log' := by
  unfold wp at h; rwa [hx] at h

/-- What `wp` promises of a run that panics. -/
theorem wp_error {x : InitM β} {p : Panic} {log' : List Exchange} (h : wp x Q E log)
    (hx : x log = .error p log') : E p log' := by
  unfold wp at h; rwa [hx] at h

end Wp

/-! ## The reply checks -/

/-- The receive check accepts exactly a `VIDEO_MEMORY` message with a length and a memory
handle. -/
theorem videoMemoryOf_eq_some {k : Constants} {received : Except SyscallError Message}
    {memory : Nat × MemoryHandle} :
    videoMemoryOf k received = some memory ↔
      received = .ok (.long k.videoMemory (.value memory.1) (.memoryHandle memory.2)) := by
  rcases received with _ | _ | ⟨tag, _ | _ | _, _ | _ | _⟩ <;>
    simp [videoMemoryOf, eq_comm, Prod.ext_iff, and_comm]

/-- The `OPEN` check accepts exactly a `COMM_HANDLE` reply with a handle and an id. -/
theorem writerOf_eq_some {k : Constants} {reply : Nat × MessageData × MessageData}
    {writer : Nat × Nat} :
    writerOf k reply = some writer ↔
      reply = (k.commHandle, .commHandle writer.1, .value writer.2) := by
  obtain ⟨tag, _ | _ | _, _ | _ | _⟩ := reply <;> simp [writerOf, eq_comm, Prod.ext_iff, and_comm]

/-- `mount` returns after four syscalls when `new_rendezvous` and `exec` succeed, and panics
right after the one of them that fails. -/
theorem wp_mount_of {sys : System} {path : String} {bin : List UInt8} {flags stdout : Nat}
    {Q : Unit → List Exchange → Prop} {E : Panic → List Exchange → Prop} {log : List Exchange}
    (hok : ∀ input input2, Q () (log ++ [.print stdout (startingText path flags)] ++
      [.newRendezvous (.ok (input, input2))] ++ [.exec bin flags input stdout (.ok ())] ++
      [.mount path input2]))
    (hrendezvous : ∀ e, E (.unwrap e)
      (log ++ [.print stdout (startingText path flags)] ++ [.newRendezvous (.error e)]))
    (hexec : ∀ input input2 e, E (.expect "[init] Couldn't start program" e)
      (log ++ [.print stdout (startingText path flags)] ++ [.newRendezvous (.ok (input, input2))] ++
        [.exec bin flags input stdout (.error e)])) :
    wp (mount sys path bin flags stdout) Q E log := by
  simp only [mount, unwrap, expect, wp_bind]
  refine wp_call_of_forall fun _ => ?_
  simp only [wp_bind]
  refine wp_call_of_forall fun r => ?_
  rcases r with e | ⟨input, input2⟩
  · simpa only [wp_throw] using hrendezvous e
  · simp only [wp_bind, wp_pure]
    refine wp_call_of_forall fun r => ?_
    rcases r with e | ⟨⟩
    · simpa only [wp_throw] using hexec input input2 e
    · simpa only [wp_pure] using wp_call_of_forall fun _ => hok input input2

/-! ## Every run of `main` -/

/-- Whether `init` cannot go on with the reply of an exchange: the message received is not the
video memory, `new_rendezvous` or `exec` failed, or the `OPEN` call did not return a writer. -/
def Exchange.refused (k : Constants) : Exchange → Bool
  | .receive _ reply => (videoMemoryOf k reply).isNone
  | .newRendezvous (.error _) => true
  | .exec _ _ _ _ (.error _) => true
  | .rcall _ _ _ _ (.ok reply) => (writerOf k reply).isNone
  | .rcall _ _ _ _ (.error _) => true
  | _ => false

/-- The panic `p` reports the reply of the exchange `x`. -/
def Panic.reports : Panic → Exchange → Prop
  | .expectedVideoMemory received, .receive _ reply => received = reply
  | .unwrap error, .newRendezvous reply => reply = .error error
  | .expect _ error, .exec _ _ _ _ reply => reply = .error error
  | .unexpectedMessage reply, .rcall _ _ _ _ r => r = .ok reply
  | .receivedError code, .rcall _ _ _ _ r => r = .error code
  | _, _ => False

/-- The path that an exchange mounts, if it is a `mount`. -/
def Exchange.mountedPath : Exchange → Option String
  | .mount path _ => some path
  | _ => none

/-- The drivers `main` mounts, in order: each path with its program and its `exec` flags. -/
def drivers (k : Constants) (bins : Binaries) : List (String × List UInt8 × Nat) :=
  [("/pci", bins.pci, k.execPermIo), ("/dev/nic", bins.rtl8139, k.execPermIo),
    ("/tcp", bins.tcp, 0)]

/-- A list is an infix of `H` when it is what `H` holds from position `i` on. -/
theorem infix_of_drop_take {α : Type} {l H : List α} (i : Nat)
    (h : (H.drop i).take l.length = l) : l <:+: H :=
  List.infix_iff_prefix_suffix.mpr ⟨H.drop i, h ▸ List.take_prefix _ _, List.drop_suffix _ _⟩

section Main

variable (sys : System) (k : Constants) (bins : Binaries)

/-- Every reply in a run that returns is accepted; a run that panics ends with the one refused
reply, which its panic reports. -/
theorem wp_main_refused :
    wp (main sys k bins) (fun _ H => H.all fun x => !x.refused k)
      (fun p H => ∃ pre x, H = pre ++ [x] ∧ x.refused k = true ∧ p.reports x ∧
        pre.all fun y => !y.refused k) [] := by
  simp only [main, unwrap, expect, wp_bind, wp_pure, wp_throw]
  repeat' first
    | split
    | simp only [wp_bind, wp_pure, wp_throw]
    | refine wp_mount_of (fun _ _ => ?_) (fun _ => ?_) (fun _ _ _ => ?_)
    | refine wp_call_of_forall fun _ => ?_
  all_goals first
    | exact ⟨_, _, rfl, by simp only [Exchange.refused, Option.isNone_none, *], rfl,
        by simp only [List.all_append, List.all_cons, List.all_nil, Exchange.refused,
          Option.isNone_some, Bool.not_false, Bool.and_self, *]⟩
    | simp only [List.all_append, List.all_cons, List.all_nil, Exchange.refused,
        Option.isNone_some, Bool.not_false, Bool.and_self, *]

/-- The paths a run mounts: all three when it returns, a proper prefix when it panics. -/
theorem wp_main_mountedPaths :
    wp (main sys k bins)
      (fun _ H => H.filterMap Exchange.mountedPath = ["/pci", "/dev/nic", "/tcp"])
      (fun _ H => H.filterMap Exchange.mountedPath <+: ["/pci", "/dev/nic", "/tcp"] ∧
        H.filterMap Exchange.mountedPath ≠ ["/pci", "/dev/nic", "/tcp"]) [] := by
  simp only [main, unwrap, expect, wp_bind, wp_pure, wp_throw]
  repeat' first
    | split
    | simp only [wp_bind, wp_pure, wp_throw]
    | refine wp_mount_of (fun _ _ => ?_) (fun _ => ?_) (fun _ _ _ => ?_)
    | refine wp_call_of_forall fun _ => ?_
  all_goals
    simp only [List.filterMap_append, List.filterMap_cons, List.filterMap_nil,
      Exchange.mountedPath, List.nil_append, List.cons_append]
    try decide

/-- The syscalls of the run that returns, in the shape its checks accepted. -/
theorem wp_main_wiring :
    wp (main sys k bins) (fun _ H => ∃ length memory vgaCom vgaCom2 vgaStdin writer id,
        [.receive k.stdout (.ok (.long k.videoMemory (.value length) (.memoryHandle memory))),
          .newRendezvous (.ok (vgaCom, vgaCom2)), .clone vgaCom2 vgaStdin,
          .exec bins.vgaDriver k.execPermIo vgaStdin vgaCom2 (.ok ()),
          .send vgaCom (.long k.videoMemory (.value length) (.memoryHandle memory)),
          .rcall vgaCom k.open (.value 0) (.value 0)
            (.ok (k.commHandle, .commHandle writer, .value id)),
          .send vgaCom (.short k.write id 0)] <:+: H ∧
        ∀ path bin flags, (path, bin, flags) ∈ drivers k bins → ∃ stdout input input2,
          [.clone writer stdout, .print stdout (startingText path flags),
            .newRendezvous (.ok (input, input2)), .exec bin flags input stdout (.ok ()),
            .mount path input2] <:+: H)
      (fun _ _ => True) [] := by
  simp only [main, unwrap, expect, wp_bind, wp_pure, wp_throw]
  repeat' first
    | split
    | simp only [wp_bind, wp_pure, wp_throw]
    | refine wp_mount_of (fun _ _ => ?_) (fun _ => trivial) (fun _ _ _ => trivial)
    | refine wp_call_of_forall fun _ => ?_
  -- the one run that returns: name its replies by the shapes its checks accepted
  simp only [videoMemoryOf_eq_some, writerOf_eq_some] at *
  subst_vars
  simp only [List.nil_append, List.append_assoc, List.singleton_append, List.cons_append]
  refine ⟨_, _, _, _, _, _, _, infix_of_drop_take 1 rfl, ?_⟩
  simp only [drivers, List.mem_cons, Prod.mk.injEq, List.mem_nil_iff, or_false]
  rintro path bin flags (⟨rfl, rfl, rfl⟩ | ⟨rfl, rfl, rfl⟩ | ⟨rfl, rfl, rfl⟩)
  exacts [⟨_, _, _, infix_of_drop_take 9 rfl⟩, ⟨_, _, _, infix_of_drop_take 14 rfl⟩,
    ⟨_, _, _, infix_of_drop_take 19 rfl⟩]

end Main

/-- A system that answers every syscall of `init`: the kernel sends `4000` bytes of video memory,
new rendezvous and clones get handles from the length of the log, the VGA driver answers `OPEN`
with writer `50` and id `3`, and `exec` fails with code `2` only for the program `failing`. -/
def System.accepting (k : Constants) (failing : List UInt8) : System where
  receive _ _ := .ok (.long k.videoMemory (.value 4000) (.memoryHandle ⟨[]⟩))
  newRendezvous log := .ok (2 * log.length, 2 * log.length + 1)
  clone log _ := 2 * log.length
  exec _ bin _ _ _ := if bin = failing then .error ⟨2⟩ else .ok ()
  rcall _ _ _ _ _ := .ok (k.commHandle, .commHandle 50, .value 3)

/-- In the second boot, the log ends with the refused `exec` of `tcp` after two mounts. -/
example : ∃ H, main (.accepting ⟨7, 1, 2, 3, 4, 1⟩ [4]) ⟨7, 1, 2, 3, 4, 1⟩
    ⟨[1], [2], [3], [4]⟩ [] = .error (.expect "[init] Couldn't start program" ⟨2⟩) H ∧
    H.filterMap Exchange.mountedPath = ["/pci", "/dev/nic"] :=
  ⟨_, rfl, rfl⟩

end Euralios.Init
