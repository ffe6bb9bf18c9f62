import Euralios.Process.Run

/-!
# Kernel stacks and saved contexts

Every thread owns a kernel stack of `KERNEL_STACK_SIZE` bytes. Thread creation puts the first
`Context` at `kernel_stack_end - INTERRUPT_CONTEXT_SIZE`, and `schedule_next` points the timer's
Interrupt Stack Table entry at the end of the kernel stack of the thread it selects. When the next
timer interrupt arrives the CPU switches to that stack and the entry code pushes the interrupted
`Context` at its top, so the address `schedule_next` records is again
`kernel_stack_end - INTERRUPT_CONTEXT_SIZE`. `conforming` states that convention of the entry code,
which lives outside `process.rs`, for every timer interrupt of a run.

`StackLayout` is the invariant: it holds at boot and every conforming step keeps it
(`stackLayout_step`), so it holds in every state a conforming run reaches.
-/

namespace Euralios.Process.Kernel

section Layout

variable (interruptContextSize : Nat)

/-- A timer interrupt saves the interrupted `Context` `INTERRUPT_CONTEXT_SIZE` bytes below the
timer IST entry; other steps are unconstrained. -/
def conforms (k : Kernel) : Event → Bool
  | .timer context => context == k.timerStack - interruptContextSize
  | _ => true

/-- Every timer interrupt of the run follows the entry convention. -/
def conforming (k : Kernel) : List Event → Bool
  | [] => true
  | e :: events =>
    k.conforms interruptContextSize e && (k.step interruptContextSize e).conforming events

/-- The layout of kernel stacks in a reachable state: the round-robin list holds the allocated
boxes once each; each of its threads has a stack end `KERNEL_STACK_SIZE` bytes past its stack
start and its `Context` `INTERRUPT_CONTEXT_SIZE` bytes below the end; the timer IST entry is the
current thread's stack end. -/
structure StackLayout (k : Kernel) : Prop where
  /-- The round-robin list holds each allocated box once. -/
  perm : k.roundRobin.Perm (List.range k.nextBox)
  /-- Each thread's stack ends `KERNEL_STACK_SIZE` bytes past its start. -/
  stackEnd : ∀ b ∈ k.roundRobin,
    (k.threads b).kernelStackEnd = (k.threads b).kernelStack + kernelStackSize
  /-- Each thread's `Context` lies `INTERRUPT_CONTEXT_SIZE` bytes below its stack end. -/
  context : ∀ b ∈ k.roundRobin,
    (k.threads b).context = (k.threads b).kernelStackEnd - interruptContextSize
  /-- The timer IST entry is the current thread's stack end. -/
  timerStack : ∀ b, k.currentThread = some b → k.timerStack = (k.threads b).kernelStackEnd

end Layout

variable {ics : Nat} {k : Kernel}

theorem stackLayout_boot (p ist : Nat) : (boot p ist).StackLayout ics :=
  ⟨List.Perm.nil, by simp, by simp, by simp [boot]⟩

/-- A conforming timer interrupt keeps the layout: the outgoing thread records the address below
its own stack end, and the IST entry moves to the new current thread's stack end. -/
theorem stackLayout_scheduleNext (h : k.StackLayout ics) (c : Nat)
    (hc : c = k.timerStack - ics) : (k.scheduleNext c).1.StackLayout ics := by
  have hmem : ∀ b, b ∈ (k.scheduleNext c).1.roundRobin ↔ b ∈ k.roundRobin := by simp
  refine ⟨by simpa using (List.rotate_perm _ _).trans h.perm, fun b hb => ?_, fun b hb => ?_,
    fun b hb => ?_⟩
  · simpa using h.stackEnd b ((hmem b).mp hb)
  · simp only [threads_scheduleNext, saved_apply]
    split
    · rename_i hcur
      simp [hc, h.timerStack b hcur]
    · exact h.context b ((hmem b).mp hb)
  · cases hk : k.roundRobin with
    | nil => simp [scheduleNext_of_roundRobin_nil hk] at hb; simp_all [roundRobin]
    | cons x rest =>
      rw [scheduleNext_of_roundRobin_cons hk] at hb ⊢
      cases hb
      rfl

/-- A thread creation keeps the layout: the new thread's `Context` is at the top of its new
stack, and no existing thread changes. -/
theorem stackLayout_create (h : k.StackLayout ics) {e : Event} (he : e.isCreation = true) :
    (k.step ics e).StackLayout ics := by
  have hnot : ∀ c, e ≠ .timer c := by rintro c rfl; simp [Event.isCreation] at he
  have hold : ∀ b ∈ k.roundRobin, (k.step ics e).threads b = k.threads b := fun b hb =>
    threads_step_of_lt k hnot (lt_nextBox_of_mem h.perm hb)
  -- the new thread's stack end and `Context`, whichever creation made it
  have hnew : ((k.step ics e).threads k.nextBox).kernelStackEnd =
        ((k.step ics e).threads k.nextBox).kernelStack + kernelStackSize ∧
      ((k.step ics e).threads k.nextBox).context =
        ((k.step ics e).threads k.nextBox).kernelStackEnd - ics := by
    rw [threads_step_nextBox k he]
    cases e <;> simp [Event.isCreation] at he <;> simp [Thread.kernel, Thread.user]
  have hmem : ∀ b ∈ (k.step ics e).roundRobin, b ∈ k.roundRobin ∨ b = k.nextBox := by
    intro b hb
    rw [roundRobin_step_of_isCreation k he] at hb
    simp only [roundRobin, List.mem_append, List.mem_cons, Option.mem_toList,
      Option.mem_def] at hb ⊢
    tauto
  refine ⟨roundRobin_perm_step h.perm e, fun b hb => ?_, fun b hb => ?_, fun b hb => ?_⟩
  · rcases hmem b hb with hb | rfl
    · rw [hold b hb]; exact h.stackEnd b hb
    · exact hnew.1
  · rcases hmem b hb with hb | rfl
    · rw [hold b hb]; exact h.context b hb
    · exact hnew.2
  · rw [currentThread_step k hnot] at hb
    have hcur : b ∈ k.roundRobin := by simp [roundRobin, hb]
    rw [hold b hcur, timerStack_step k hnot]
    exact h.timerStack b hb

theorem stackLayout_step (h : k.StackLayout ics) (e : Event) (he : k.conforms ics e = true) :
    (k.step ics e).StackLayout ics := by
  cases e with
  | timer c => exact stackLayout_scheduleNext h c (by simpa [conforms] using he)
  | newKernelThread => exact stackLayout_create h rfl
  | enqueueUserThread => exact stackLayout_create h rfl
  | switchToPagetable | allocatePages | write => exact ⟨h.perm, h.stackEnd, h.context, h.timerStack⟩

theorem stackLayout_run (h : k.StackLayout ics) (events : List Event)
    (hconf : k.conforming ics events = true) : (k.run ics events).StackLayout ics := by
  induction events generalizing k with
  | nil => exact h
  | cons e rest ih =>
    simp only [conforming, Bool.and_eq_true] at hconf
    exact ih (stackLayout_step h e hconf.1) hconf.2

/-- A thread of the round-robin list keeps its `Context` between the start of its kernel stack and
`INTERRUPT_CONTEXT_SIZE` bytes below its end. -/
theorem context_mem_stack (h : k.StackLayout ics) (hics : ics ≤ kernelStackSize) {b : Nat}
    (hb : b ∈ k.roundRobin) :
    (k.threads b).kernelStackEnd - kernelStackSize ≤ (k.threads b).context ∧
      (k.threads b).context ≤ (k.threads b).kernelStackEnd - ics := by
  have hend := h.stackEnd b hb
  have hctx := h.context b hb
  omega

/-- Under the entry convention, in every reachable state every thread in `RUNNING_QUEUE` or
`CURRENT_THREAD` keeps its `Context` inside its own kernel stack, in
`[kernel_stack_end - KERNEL_STACK_SIZE, kernel_stack_end - INTERRUPT_CONTEXT_SIZE]`; the timer IST
entry is the current thread's kernel stack end; and a non-zero value that the next
`schedule_next` returns is the selected thread's `Context` address, inside that thread's kernel
stack. -/
theorem contexts_in_own_kernel_stacks (ics p ist : Nat) (hics : ics ≤ kernelStackSize)
    (events : List Event) (hconf : (boot p ist).conforming ics events = true) :
    let k := (boot p ist).run ics events
    (∀ b ∈ k.roundRobin, (k.threads b).kernelStackEnd - kernelStackSize ≤ (k.threads b).context ∧
      (k.threads b).context ≤ (k.threads b).kernelStackEnd - ics) ∧
    (∀ b, k.currentThread = some b → k.timerStack = (k.threads b).kernelStackEnd) ∧
    (∀ c, c = k.timerStack - ics → (k.scheduleNext c).2 ≠ 0 →
      ∃ b, (k.scheduleNext c).1.currentThread = some b ∧
        (k.scheduleNext c).2 = ((k.scheduleNext c).1.threads b).context ∧
        ((k.scheduleNext c).1.threads b).kernelStackEnd - kernelStackSize ≤
          (k.scheduleNext c).2 ∧
        (k.scheduleNext c).2 ≤ ((k.scheduleNext c).1.threads b).kernelStackEnd - ics) := by
  intro k
  have h : k.StackLayout ics := stackLayout_run (stackLayout_boot p ist) events hconf
  refine ⟨fun b hb => context_mem_stack h hics hb, h.timerStack, fun c hc hret => ?_⟩
  have h' := stackLayout_scheduleNext h c hc
  cases hk : k.roundRobin with
  | nil => simp [scheduleNext_of_roundRobin_nil hk] at hret
  | cons x rest =>
    have hx : x ∈ (k.scheduleNext c).1.roundRobin := by simp [hk]
    refine ⟨x, by simp [hk], by simp [scheduleNext_of_roundRobin_cons hk], ?_⟩
    simpa [scheduleNext_of_roundRobin_cons hk] using context_mem_stack h' hics hx

/-- Two kernel threads created at boot and two timer interrupts that follow the entry convention:
the hypotheses of `contexts_in_own_kernel_stacks` hold, and so does its conclusion. -/
theorem contexts_in_own_kernel_stacks_two_threads :
    (160 ≤ kernelStackSize ∧
      (boot 1 0x1000).conforming 160 [.newKernelThread 0x1000 0x8000 0x20000 0x202,
        .newKernelThread 0x1000 0x30000 0x40000 0x202, .timer 3936, .timer 40800] = true) ∧
    let k := (boot 1 0x1000).run 160 [.newKernelThread 0x1000 0x8000 0x20000 0x202,
        .newKernelThread 0x1000 0x30000 0x40000 0x202, .timer 3936, .timer 40800]
    (∀ b ∈ k.roundRobin, (k.threads b).kernelStackEnd - kernelStackSize ≤ (k.threads b).context ∧
      (k.threads b).context ≤ (k.threads b).kernelStackEnd - 160) ∧
    (∀ b, k.currentThread = some b → k.timerStack = (k.threads b).kernelStackEnd) ∧
    (∀ c, c = k.timerStack - 160 → (k.scheduleNext c).2 ≠ 0 →
      ∃ b, (k.scheduleNext c).1.currentThread = some b ∧
        (k.scheduleNext c).2 = ((k.scheduleNext c).1.threads b).context ∧
        ((k.scheduleNext c).1.threads b).kernelStackEnd - kernelStackSize ≤
          (k.scheduleNext c).2 ∧
        (k.scheduleNext c).2 ≤ ((k.scheduleNext c).1.threads b).kernelStackEnd - 160) :=
  ⟨⟨by decide, by decide⟩, contexts_in_own_kernel_stacks 160 1 0x1000 (by decide) _ (by decide)⟩

end Euralios.Process.Kernel
