import Euralios.Process.Create

/-!
# Runs of the scheduler

A run is a list of atomic steps: timer interrupts, each entering `schedule_next`, and steps of
whichever thread is running that touch the state `process.rs` manages. A `new_kernel_thread` call
is one step: what it does before `push_back` concerns only the new thread. A `new_user_thread` call
is several: its page-table switches, its `allocate_pages` calls, each byte it copies, and its
final `push_back`, with timer interrupts possible between any two of them.

`Kernel.step` gives the effect of one step and `Kernel.run` of a list of them. The step lemmas
say what each kind of step does to the round-robin list, the boxes and the current thread; the
invariants below are proved from them by induction on the run.

* `roundRobin_perm_range`: the round-robin list holds every box allocated so far, once.
* `selections_eq_take`: consecutive timer interrupts select the round-robin list in order.
* `tid_run`: every thread has TID `0`.
-/

namespace Euralios.Process

/-- One atomic step of a run. -/
inductive Event
  /-- A timer interrupt whose entry code saved the interrupted `Context` at `context`. -/
  | timer (context : Nat)
  /-- A `new_kernel_thread(function)` call. -/
  | newKernelThread (function kernelStack userStack rflags : Nat)
  /-- `switch_to_pagetable(physaddr)` by the running thread. -/
  | switchToPagetable (physaddr : Nat)
  /-- `allocate_pages` by the running thread. -/
  | allocatePages (table start size : Nat)
  /-- One byte stored by the running thread. -/
  | write (address : Nat) (value : UInt8)
  /-- The end of a `new_user_thread` call, which builds and queues the new thread. -/
  | enqueueUserThread (r : UserThreadResources) (entryPoint : Nat)
  deriving DecidableEq, Repr

/-- Whether a step is a thread creation. -/
def Event.isCreation : Event → Bool
  | .timer _ => false
  | .newKernelThread .. => true
  | .switchToPagetable _ => false
  | .allocatePages .. => false
  | .write .. => false
  | .enqueueUserThread .. => true

namespace Kernel

section Runs

variable (interruptContextSize : Nat)

/-- The effect of one step. -/
def step (k : Kernel) : Event → Kernel
  | .timer context => (k.scheduleNext context).1
  | .newKernelThread function kernelStack userStack rflags =>
    (k.newKernelThread interruptContextSize function kernelStack userStack rflags).1
  | .switchToPagetable physaddr => k.switchToPagetable physaddr
  | .allocatePages table start size => k.allocatePages table start size
  | .write address value => k.write address value
  | .enqueueUserThread r entryPoint =>
    (k.enqueueUserThread interruptContextSize r entryPoint).1

/-- The effect of a run. -/
def run (k : Kernel) (events : List Event) : Kernel :=
  events.foldl (step interruptContextSize) k

@[simp]
theorem run_nil (k : Kernel) : k.run interruptContextSize [] = k := rfl

@[simp]
theorem run_cons (k : Kernel) (e : Event) (events : List Event) :
    k.run interruptContextSize (e :: events) =
      (k.step interruptContextSize e).run interruptContextSize events := rfl

theorem run_append (k : Kernel) (events events' : List Event) :
    k.run interruptContextSize (events ++ events') =
      (k.run interruptContextSize events).run interruptContextSize events' :=
  List.foldl_append _ _ _ _

/-- What holds initially and is kept by every step holds after every run. -/
theorem run_induction {P : Kernel → Prop} {k : Kernel} (events : List Event) (h : P k)
    (hstep : ∀ k e, P k → P (k.step interruptContextSize e)) :
    P (k.run interruptContextSize events) := by
  induction events generalizing k with
  | nil => exact h
  | cons e rest ih => exact ih (hstep k e h)

end Runs

/-! ## Step lemmas -/

section Step

variable {ics : Nat} (k : Kernel)

@[simp]
theorem step_timer (c : Nat) : k.step ics (.timer c) = (k.scheduleNext c).1 := rfl

theorem nextBox_step (e : Event) :
    (k.step ics e).nextBox = if e.isCreation then k.nextBox + 1 else k.nextBox := by
  cases e <;> simp [step, Event.isCreation, newKernelThread_eq, enqueueUserThread_eq]

theorem nextBox_le_step (e : Event) : k.nextBox ≤ (k.step ics e).nextBox := by
  rw [nextBox_step]; split <;> omega

/-- Only a timer interrupt changes the current thread. -/
theorem currentThread_step {e : Event} (he : ∀ c, e ≠ .timer c) :
    (k.step ics e).currentThread = k.currentThread := by
  cases e <;> simp_all [step, newKernelThread_eq, enqueueUserThread_eq]

/-- Only a timer interrupt moves the timer IST entry. -/
theorem timerStack_step {e : Event} (he : ∀ c, e ≠ .timer c) :
    (k.step ics e).timerStack = k.timerStack := by
  cases e <;> simp_all [step, newKernelThread_eq, enqueueUserThread_eq]

/-- A thread creation inserts the new box right before the current thread; a timer interrupt
rotates the list; no other step changes it. -/
theorem roundRobin_step (e : Event) :
    (k.step ics e).roundRobin =
      match e with
      | .timer _ => k.roundRobin.rotate 1
      | .newKernelThread .. | .enqueueUserThread .. =>
        k.runningQueue ++ k.nextBox :: k.currentThread.toList
      | _ => k.roundRobin := by
  cases e with
  | timer => simp
  | newKernelThread | enqueueUserThread =>
    simp [step, newKernelThread_eq, enqueueUserThread_eq, roundRobin]
  | _ => simp [step]

theorem roundRobin_step_of_isCreation {e : Event} (he : e.isCreation = true) :
    (k.step ics e).roundRobin = k.runningQueue ++ k.nextBox :: k.currentThread.toList := by
  rw [roundRobin_step]; cases e <;> simp_all [Event.isCreation]

/-- A step other than a timer interrupt changes no allocated box. -/
theorem threads_step_of_lt {e : Event} (he : ∀ c, e ≠ .timer c) {b : Nat} (hb : b < k.nextBox) :
    (k.step ics e).threads b = k.threads b := by
  cases e <;> simp_all [step, newKernelThread_eq, enqueueUserThread_eq, Function.update_apply,
    Nat.ne_of_lt hb]

/-- A thread creation fills the next box with the new thread. -/
theorem threads_step_nextBox {e : Event} (he : e.isCreation = true) :
    (k.step ics e).threads k.nextBox =
      match e with
      | .newKernelThread _ kernelStack userStack _ => Thread.kernel ics kernelStack userStack
      | .enqueueUserThread r _ => Thread.user ics r
      | _ => k.threads k.nextBox := by
  cases e <;> simp only [Event.isCreation, Bool.false_eq_true] at he <;>
    simp [step, newKernelThread_eq, enqueueUserThread_eq]

end Step

/-! ## Every created thread is in the round-robin list once -/

section Perm

variable {ics : Nat}

theorem roundRobin_perm_step {k : Kernel} (h : k.roundRobin.Perm (List.range k.nextBox))
    (e : Event) : (k.step ics e).roundRobin.Perm (List.range (k.step ics e).nextBox) := by
  rw [roundRobin_step, nextBox_step]
  have hins : (k.runningQueue ++ k.nextBox :: k.currentThread.toList).Perm
      (List.range (k.nextBox + 1)) := by
    rw [List.range_succ]
    exact List.perm_middle.trans (List.Perm.cons _ h) |>.trans (List.perm_append_singleton _ _).symm
  cases e <;> simp only [Event.isCreation, if_true, if_false, hins, h, Bool.false_eq_true]
  exact (List.rotate_perm _ _).trans h

/-- In every reachable state, the round-robin list is a permutation of the boxes allocated so
far: each thread ever created appears in it exactly once. -/
theorem roundRobin_perm_range (p ist : Nat) (events : List Event) :
    ((boot p ist).run ics events).roundRobin.Perm
      (List.range ((boot p ist).run ics events).nextBox) :=
  run_induction (P := fun k => k.roundRobin.Perm (List.range k.nextBox)) ics events
    List.Perm.nil fun _ e h => roundRobin_perm_step h e

theorem lt_nextBox_of_mem {k : Kernel} (h : k.roundRobin.Perm (List.range k.nextBox)) {b : Nat}
    (hb : b ∈ k.roundRobin) : b < k.nextBox :=
  List.mem_range.mp (h.subset hb)

end Perm

/-! ## Round robin -/

/-- The threads `schedule_next` selects in consecutive timer interrupts given the `Context`
addresses `contexts`. -/
def selections (k : Kernel) : List Nat → List (Option Nat)
  | [] => []
  | c :: cs => (k.scheduleNext c).1.currentThread :: (k.scheduleNext c).1.selections cs

/-- Consecutive timer interrupts select the round-robin list in order. -/
theorem selections_eq_take (k : Kernel) (cs : List Nat) (h : cs.length ≤ k.roundRobin.length) :
    k.selections cs = (k.roundRobin.take cs.length).map some := by
  induction cs generalizing k with
  | nil => rfl
  | cons c cs ih =>
    obtain ⟨b, rest, hk⟩ : ∃ b rest, k.roundRobin = b :: rest :=
      List.exists_cons_of_ne_nil (List.ne_nil_of_length_pos (by simp at h; omega))
    have hlen : cs.length ≤ rest.length := by simp [hk] at h; omega
    have hrot : (k.scheduleNext c).1.roundRobin = rest ++ [b] := by
      simp [hk, List.rotate_cons_succ]
    rw [selections, ih _ (by simp [hrot]; omega), hrot, List.take_append_of_le_length hlen]
    simp [hk]

/-! ## Thread IDs -/

/-- Every allocated box holds a thread with TID `0`: both creation functions set `tid: 0` and
`schedule_next` leaves it alone. -/
theorem tid_step {ics : Nat} {k : Kernel} (h : ∀ b < k.nextBox, (k.threads b).tid = 0)
    (e : Event) : ∀ b < (k.step ics e).nextBox, ((k.step ics e).threads b).tid = 0 := by
  intro b hb
  by_cases ht : ∃ c, e = .timer c
  · obtain ⟨c, rfl⟩ := ht
    simpa using h b (by simpa using hb)
  have ht' : ∀ c, e ≠ .timer c := fun c he => ht ⟨c, he⟩
  rw [nextBox_step] at hb
  rcases Nat.lt_or_ge b k.nextBox with hlt | hge
  · rw [threads_step_of_lt k ht' hlt]; exact h b hlt
  · split at hb
    · obtain rfl : b = k.nextBox := by omega
      rename_i hc
      rw [threads_step_nextBox k hc]
      cases e <;> simp [Event.isCreation] at hc <;> rfl
    · omega

theorem tid_run (ics p ist : Nat) (events : List Event) :
    ∀ b < ((boot p ist).run ics events).nextBox,
      (((boot p ist).run ics events).threads b).tid = 0 :=
  run_induction (P := fun k => ∀ b < k.nextBox, (k.threads b).tid = 0) ics events
    (fun _ h => absurd h (Nat.not_lt_zero _)) fun _ e h => tid_step h e

/-- Thread creation returns the new thread's `tid` field, and that field is `0`: neither
`new_kernel_thread` nor `new_user_thread` assigns TIDs. In every reachable state every thread in
`RUNNING_QUEUE` and `CURRENT_THREAD` has TID `0`. -/
theorem creation_returns_tid_zero (ics p ist : Nat) :
    (∀ (k : Kernel) (function kernelStack userStack rflags : Nat),
      let created := k.newKernelThread ics function kernelStack userStack rflags
      created.2 = (created.1.threads k.nextBox).tid ∧ created.2 = 0) ∧
    (∀ (k : Kernel) (parse : List UInt8 → Option ElfFile) (bin : List UInt8)
      (r : UserThreadResources) (tid : Nat) (k' : Kernel),
      k.newUserThread ics parse bin r = .ok (.ok tid, k') →
        tid = (k'.threads k.nextBox).tid ∧ tid = 0) ∧
    (∀ events : List Event, ∀ b ∈ ((boot p ist).run ics events).roundRobin,
      (((boot p ist).run ics events).threads b).tid = 0) := by
  refine ⟨fun k _ _ _ _ => by simp [newKernelThread_eq, Thread.kernel],
    fun k parse bin r tid k' h => ?_, fun events b hb => tid_run ics p ist events b
      (lt_nextBox_of_mem (roundRobin_perm_range p ist events) hb)⟩
  obtain ⟨-, -, -, hthreads, -⟩ := newUserThread_ok h
  obtain ⟨-, -, -, -, -, -, rfl, -⟩ := newUserThread_eq_ok_ok_iff.mp h
  simp [hthreads, Thread.user]

/-- A user thread created from boot, from a binary with one one-byte segment: the call returns
`Ok(0)`, and `0` is the new thread's TID. -/
theorem creation_returns_tid_zero_user_thread :
    ∃ k', (boot 1 0).newUserThread 160 (fun _ => some ⟨0x400000, [⟨0x400000, some [0x90]⟩]⟩)
        elfMagic ⟨5, 0x50000, 0x23, 0x1b⟩ = .ok (.ok 0, k') ∧
      0 = (k'.threads (boot 1 0).nextBox).tid ∧ 0 = 0 :=
  ⟨_, rfl, (creation_returns_tid_zero 160 1 0).2.1 (boot 1 0)
    (fun _ => some ⟨0x400000, [⟨0x400000, some [0x90]⟩]⟩) elfMagic ⟨5, 0x50000, 0x23, 0x1b⟩ 0 _
    rfl⟩

/-- Two kernel threads created from boot: `new_kernel_thread` returned `0`, and both threads in
the queue have TID `0`. -/
theorem kernel_threads_share_tid_zero :
    let k := (boot 1 0).run 160
      [.newKernelThread 0x1000 0x8000 0x20000 0x202, .newKernelThread 0x1000 0x30000 0x40000 0x202]
    ((boot 1 0).newKernelThread 160 0x1000 0x8000 0x20000 0x202).2 = 0 ∧ k.roundRobin = [0, 1] ∧
      (k.threads 0).tid = (k.threads 1).tid := by
  decide

/-! ## The round-robin discipline -/

/-- `RUNNING_QUEUE` followed by `CURRENT_THREAD` behaves as a round-robin list. `schedule_next`
rotates it left by one, makes its old head current, and changes no thread but the outgoing one's
`context` and `page_table_physaddr`; on an empty list it changes nothing and returns `0`. A thread
creation puts exactly the new thread, in a fresh box, right before the current thread. So in every
reachable state the list holds each thread created so far exactly once, and as many consecutive
timer interrupts as the list is long select its threads in order: the queue front to back, then
the thread that was current. -/
theorem roundRobin_scheduling (ics p ist : Nat) :
    (∀ (k : Kernel) (c : Nat),
      (k.scheduleNext c).1.roundRobin = k.roundRobin.rotate 1 ∧
      (k.scheduleNext c).1.currentThread = k.roundRobin.head? ∧
      (∀ b, (k.scheduleNext c).1.threads b = if k.currentThread = some b then
        { k.threads b with context := c, pageTablePhysaddr := k.activePageTable }
        else k.threads b) ∧
      (k.roundRobin = [] → k.scheduleNext c = (k, 0))) ∧
    (∀ (k : Kernel) (e : Event), e.isCreation →
      (k.step ics e).roundRobin = k.runningQueue ++ k.nextBox :: k.currentThread.toList ∧
      (k.step ics e).nextBox = k.nextBox + 1 ∧
      ∀ b < k.nextBox, (k.step ics e).threads b = k.threads b) ∧
    (∀ events : List Event,
      ((boot p ist).run ics events).roundRobin.Perm
        (List.range ((boot p ist).run ics events).nextBox)) ∧
    (∀ (k : Kernel) (cs : List Nat), cs.length = k.roundRobin.length →
      k.selections cs = k.roundRobin.map some) := by
  refine ⟨fun k c => ⟨roundRobin_scheduleNext k c, currentThread_scheduleNext k c,
      fun b => by rw [threads_scheduleNext, saved_apply], scheduleNext_of_roundRobin_nil (c := c)⟩,
    fun k e he => ⟨roundRobin_step_of_isCreation k he, by simp [nextBox_step, he],
      fun b hb => threads_step_of_lt k (by rintro c rfl; simp [Event.isCreation] at he) hb⟩,
    roundRobin_perm_range p ist,
    fun k cs h => by rw [selections_eq_take k cs h.le, h, List.take_length]⟩

/-- From boot, two kernel threads are created and a timer interrupt runs the first. A third
creation puts the new thread, box `2`, right before the current thread `0`, and three timer
interrupts then select `1`, `2` and `0`. -/
theorem roundRobin_scheduling_creation_then_selection :
    let k := (boot 1 0).run 160 [.newKernelThread 0x1000 0x8000 0x20000 0x202,
      .newKernelThread 0x1000 0x30000 0x40000 0x202, .timer 0]
    let e : Event := .newKernelThread 0x1000 0x50000 0x60000 0x202
    (e.isCreation ∧ [0, 0, 0].length = (k.step 160 e).roundRobin.length) ∧
    ((k.step 160 e).roundRobin = k.runningQueue ++ k.nextBox :: k.currentThread.toList ∧
      (k.step 160 e).nextBox = k.nextBox + 1 ∧
      ∀ b < k.nextBox, (k.step 160 e).threads b = k.threads b) ∧
    (k.step 160 e).selections [0, 0, 0] = (k.step 160 e).roundRobin.map some ∧
    (k.step 160 e).roundRobin = [1, 2, 0] :=
  ⟨⟨rfl, by decide⟩, (roundRobin_scheduling 160 1 0).2.1 _ _ rfl,
    (roundRobin_scheduling 160 1 0).2.2.2 _ _ (by decide), by decide⟩

end Kernel

end Euralios.Process
