import Euralios.Process.Thread
import Mathlib.Data.List.Rotate

/-!
# `schedule_next`

The timer interrupt handler calls `schedule_next` with the address where its entry code saved the
interrupted thread's `Context`. The function moves the current thread, with that address and the
active page table recorded in it, to the back of `RUNNING_QUEUE`, pops the front of the queue into
`CURRENT_THREAD`, points the timer's IST entry at the new thread's kernel stack, switches to its
page table unless that is `0`, and returns its `Context` address (`0` when there is no thread).

`preempt` is the first step and `resume` the rest. Everything later proofs need is in the two
equations `scheduleNext_of_roundRobin_nil` and `scheduleNext_of_roundRobin_cons`: on the
round-robin list `RUNNING_QUEUE ++ CURRENT_THREAD`, `schedule_next` is a left rotation that makes
the old head current, and it writes `saved`, the outgoing thread's two recorded fields.
-/

namespace Euralios.Process.Kernel

/-- The boxes after `schedule_next` recorded `context` and the active page table in the current
thread, if there is one. -/
def saved (k : Kernel) (context : Nat) : Nat → Thread :=
  match k.currentThread with
  | some b =>
    Function.update k.threads b
      { k.threads b with context, pageTablePhysaddr := k.activePageTable }
  | none => k.threads

/-- The first step of `schedule_next`: take the current thread, store the location of its
`Context` and the active page table in it, and put it at the back of the queue. -/
def preempt (k : Kernel) (context : Nat) : Kernel :=
  match k.currentThread with
  | some b =>
    { k with
      threads := Function.update k.threads b
        { k.threads b with context, pageTablePhysaddr := k.activePageTable }
      runningQueue := k.runningQueue ++ [b]
      currentThread := none }
  | none => k

/-- The rest of `schedule_next`: pop the front of the queue into `CURRENT_THREAD`, set the kernel
stack for the next interrupt, change page table unless the thread's is `0`, and return the
thread's `Context` address, or `0` when the queue is empty. -/
def resume (k : Kernel) : Kernel × Nat :=
  match k.runningQueue with
  | [] => ({ k with currentThread := none }, 0)
  | b :: rest =>
    let thread := k.threads b
    let k := { k with
      runningQueue := rest, currentThread := some b, timerStack := thread.kernelStackEnd }
    (if thread.pageTablePhysaddr ≠ 0 then k.switchToPagetable thread.pageTablePhysaddr else k,
      thread.context)

/-- `schedule_next(context)`, called by the timer interrupt handler. -/
def scheduleNext (k : Kernel) (context : Nat) : Kernel × Nat :=
  (k.preempt context).resume

section Saved

variable {k : Kernel} {c b : Nat}

theorem saved_apply :
    k.saved c b = if k.currentThread = some b then
        { k.threads b with context := c, pageTablePhysaddr := k.activePageTable }
      else k.threads b := by
  unfold saved
  cases h : k.currentThread with
  | none => simp
  | some a =>
    by_cases hab : a = b
    · subst hab; simp
    · simp [Function.update_noteq (Ne.symm hab), hab]

theorem saved_of_ne (h : k.currentThread ≠ some b) : k.saved c b = k.threads b := by
  simp [saved_apply, h]

theorem saved_of_eq (h : k.currentThread = some b) :
    k.saved c b = { k.threads b with context := c, pageTablePhysaddr := k.activePageTable } := by
  simp [saved_apply, h]

/-- `schedule_next` changes nothing of a thread but its `context` and `page_table_physaddr`. -/
@[simp]
theorem saved_tid : (k.saved c b).tid = (k.threads b).tid := by
  rw [saved_apply]; split <;> rfl

@[simp]
theorem saved_kernelStack : (k.saved c b).kernelStack = (k.threads b).kernelStack := by
  rw [saved_apply]; split <;> rfl

@[simp]
theorem saved_kernelStackEnd : (k.saved c b).kernelStackEnd = (k.threads b).kernelStackEnd := by
  rw [saved_apply]; split <;> rfl

@[simp]
theorem saved_userStack : (k.saved c b).userStack = (k.threads b).userStack := by
  rw [saved_apply]; split <;> rfl

end Saved

theorem preempt_eq (k : Kernel) (c : Nat) :
    k.preempt c =
      { k with threads := k.saved c, runningQueue := k.roundRobin, currentThread := none } := by
  rcases k with ⟨q, _ | b, threads, n, p, ist, ctxs, w, a⟩ <;> simp [preempt, saved, roundRobin]

/-- With no thread anywhere, `schedule_next` changes nothing and returns `0`. -/
theorem scheduleNext_of_roundRobin_nil {k : Kernel} (h : k.roundRobin = []) (c : Nat) :
    k.scheduleNext c = (k, 0) := by
  rcases k with ⟨_ | _, _ | _, threads, n, p, ist, ctxs, w, a⟩ <;>
    simp_all [roundRobin, scheduleNext, preempt, resume]

/-- The whole effect of `schedule_next` when the round-robin list is `b :: rest`: `b` becomes
current, the list becomes `rest ++ [b]`, the outgoing thread records `c` and the active page table,
the timer IST entry becomes `b`'s kernel stack end, CR3 becomes `b`'s page table unless that is
`0`, and the result is `b`'s `Context` address. -/
theorem scheduleNext_of_roundRobin_cons {k : Kernel} {b : Nat} {rest : List Nat}
    (h : k.roundRobin = b :: rest) (c : Nat) :
    k.scheduleNext c =
      (⟨rest, some b, k.saved c, k.nextBox,
        if (k.saved c b).pageTablePhysaddr ≠ 0 then (k.saved c b).pageTablePhysaddr
          else k.activePageTable,
        (k.saved c b).kernelStackEnd, k.contexts, k.writes, k.allocations⟩,
        (k.saved c b).context) := by
  rw [scheduleNext, preempt_eq]
  simp only [resume, h]
  split <;> rfl

section Effect

variable (k : Kernel) (c : Nat)

/-- `schedule_next` rotates the round-robin list left by one. -/
@[simp]
theorem roundRobin_scheduleNext : (k.scheduleNext c).1.roundRobin = k.roundRobin.rotate 1 := by
  cases h : k.roundRobin with
  | nil => simp [scheduleNext_of_roundRobin_nil h, h]
  | cons b rest => simp [scheduleNext_of_roundRobin_cons h, roundRobin, List.rotate_cons_succ]

/-- `schedule_next` selects the head of the round-robin list. -/
@[simp]
theorem currentThread_scheduleNext : (k.scheduleNext c).1.currentThread = k.roundRobin.head? := by
  cases h : k.roundRobin with
  | nil =>
    rw [scheduleNext_of_roundRobin_nil h]
    cases hc : k.currentThread <;> simp_all [roundRobin]
  | cons b rest => simp [scheduleNext_of_roundRobin_cons h]

@[simp]
theorem threads_scheduleNext : (k.scheduleNext c).1.threads = k.saved c := by
  cases h : k.roundRobin with
  | nil =>
    rw [scheduleNext_of_roundRobin_nil h]
    cases hc : k.currentThread <;> simp_all [roundRobin, saved]
  | cons b rest => simp [scheduleNext_of_roundRobin_cons h]

@[simp]
theorem nextBox_scheduleNext : (k.scheduleNext c).1.nextBox = k.nextBox := by
  cases h : k.roundRobin with
  | nil => simp [scheduleNext_of_roundRobin_nil h]
  | cons b rest => simp [scheduleNext_of_roundRobin_cons h]

@[simp]
theorem contexts_scheduleNext : (k.scheduleNext c).1.contexts = k.contexts := by
  cases h : k.roundRobin with
  | nil => simp [scheduleNext_of_roundRobin_nil h]
  | cons b rest => simp [scheduleNext_of_roundRobin_cons h]

@[simp]
theorem writes_scheduleNext : (k.scheduleNext c).1.writes = k.writes := by
  cases h : k.roundRobin with
  | nil => simp [scheduleNext_of_roundRobin_nil h]
  | cons b rest => simp [scheduleNext_of_roundRobin_cons h]

@[simp]
theorem allocations_scheduleNext : (k.scheduleNext c).1.allocations = k.allocations := by
  cases h : k.roundRobin with
  | nil => simp [scheduleNext_of_roundRobin_nil h]
  | cons b rest => simp [scheduleNext_of_roundRobin_cons h]

end Effect

end Euralios.Process.Kernel
