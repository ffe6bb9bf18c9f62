import Euralios.Process.Run

/-!
# Saved page tables

`schedule_next` stores the page table active at a preemption in the outgoing thread's
`page_table_physaddr`, and on selecting a thread switches to that table unless it is `0`. This
module follows that field along runs.

* `kernel_thread_inherits_user_page_table`: a kernel thread starts with `0`, so it runs in whatever
  table is active when it is selected and keeps that table once preempted, against the source's
  "zero for kernel thread".
* `pageTable_of_not_current`: while a thread is not running, its saved table does not change.
* `resume_restores_page_table`: a thread that `schedule_next` preempts while a non-zero table is
  active is resumed with that table active.
-/

namespace Euralios.Process.Kernel

variable {ics : Nat}

/-- The boot context queues a user thread with page table `5` and then a kernel thread. Four timer
interrupts later the kernel thread, which neither was created with table `5` nor ran the
`new_user_thread` call that built it, holds table `5` and runs with it active: it was first
selected right after the user thread, inherited its table because its own was `0`, and saved it
when preempted. -/
theorem kernel_thread_inherits_user_page_table :
    (let k := (boot 1 0).run 160
      [.enqueueUserThread ⟨5, 0x10000, 0x23, 0x1b⟩ 0x400000,
        .newKernelThread 0x8000 0x20000 0x30000 0x202, .timer 0, .timer 0, .timer 0, .timer 0]
    (k.threads 0).pageTablePhysaddr = 5 ∧ (k.threads 1).userStack.isSome ∧
      k.currentThread = some 1 ∧ (k.threads 1).pageTablePhysaddr = 5 ∧ k.activePageTable = 5) := by
  decide

/-! ## Resuming a preempted thread -/

/-- A step leaves the saved page table of an allocated thread that is not running. -/
theorem pageTable_step_of_not_current {k : Kernel} {b : Nat} (hb : b < k.nextBox)
    (hk : k.currentThread ≠ some b) (e : Event) :
    ((k.step ics e).threads b).pageTablePhysaddr = (k.threads b).pageTablePhysaddr := by
  by_cases ht : ∃ c, e = .timer c
  · obtain ⟨c, rfl⟩ := ht
    simp [saved_of_ne hk]
  · rw [threads_step_of_lt k (fun c he => ht ⟨c, he⟩) hb]

/-- The step that makes a thread run switches to its saved page table if that is non-zero: only a
timer interrupt changes the current thread, and `schedule_next` resumes the thread it selects
with its own table. -/
theorem activePageTable_step_of_resume {k : Kernel} {b : Nat} {e : Event}
    (hk : k.currentThread ≠ some b) (hcur : (k.step ics e).currentThread = some b)
    (hnz : (k.threads b).pageTablePhysaddr ≠ 0) :
    (k.step ics e).activePageTable = (k.threads b).pageTablePhysaddr := by
  cases e with
  | timer c =>
    cases hr : k.roundRobin with
    | nil => simp [scheduleNext_of_roundRobin_nil hr, hk] at hcur
    | cons x xs =>
      simp only [step_timer, scheduleNext_of_roundRobin_cons hr, Option.some.injEq] at hcur ⊢
      subst hcur
      simp [saved_of_ne hk, hnz]
  | _ => exact absurd hcur (by simpa [currentThread_step k] using hk)

/-- While a thread is not running, no step changes its saved page table, and the step that makes
it run again switches to that table if it is non-zero. -/
theorem pageTable_of_not_current (k : Kernel) (b : Nat) (hb : b < k.nextBox)
    (hk : k.currentThread ≠ some b) (events : List Event)
    (haway : ∀ n < events.length, (k.run ics (events.take n)).currentThread ≠ some b) :
    ((k.run ics events).threads b).pageTablePhysaddr = (k.threads b).pageTablePhysaddr ∧
      ((k.run ics events).currentThread = some b → (k.threads b).pageTablePhysaddr ≠ 0 →
        (k.run ics events).activePageTable = (k.threads b).pageTablePhysaddr) := by
  induction events generalizing k with
  | nil => exact ⟨rfl, fun h => absurd h hk⟩
  | cons e rest ih =>
    have hpt : ((k.step ics e).threads b).pageTablePhysaddr = _ :=
      pageTable_step_of_not_current hb hk e
    cases rest with
    | nil => exact ⟨hpt, activePageTable_step_of_resume hk⟩
    | cons e' rest' =>
      have hk' := haway 1 (by simp)
      simp only [List.take, run_cons, run_nil] at hk'
      obtain ⟨h1, h2⟩ := ih (k.step ics e) (Nat.lt_of_lt_of_le hb (nextBox_le_step k e)) hk'
        fun n hn => by simpa using haway (n + 1) (by simp at hn ⊢; omega)
      exact ⟨h1.trans hpt, fun hcur hnz => (h2 hcur (hpt ▸ hnz)).trans hpt⟩

/-- A thread that `schedule_next` preempts while a non-zero page table is active finds that table
active when `schedule_next` resumes it, whatever ran in between: the page table at resumption is
the page table at its last preemption. -/
theorem resume_restores_page_table (p ist : Nat) (pre rest : List Event) (c b : Nat)
    (hb : ((boot p ist).run ics pre).currentThread = some b)
    (hnz : ((boot p ist).run ics pre).activePageTable ≠ 0)
    (haway : ∀ n < rest.length,
      ((boot p ist).run ics (pre ++ .timer c :: rest.take n)).currentThread ≠ some b)
    (hback : ((boot p ist).run ics (pre ++ .timer c :: rest)).currentThread = some b) :
    ((boot p ist).run ics (pre ++ .timer c :: rest)).activePageTable =
      ((boot p ist).run ics pre).activePageTable := by
  set k := (boot p ist).run ics pre with hk
  have hlt : b < k.nextBox := lt_nextBox_of_mem (roundRobin_perm_range p ist pre)
    (by rw [← hk]; simp [roundRobin, hb])
  have hsaved : ((k.scheduleNext c).1.threads b).pageTablePhysaddr = k.activePageTable := by
    simp [saved_of_eq hb]
  simp only [run_append, run_cons, ← hk, step_timer] at haway hback ⊢
  cases rest with
  | nil =>
    cases hr : k.roundRobin with
    | nil => simp [scheduleNext_of_roundRobin_nil hr] at hb ⊢
    | cons x xs =>
      simp only [run_nil, scheduleNext_of_roundRobin_cons hr, Option.some.injEq] at hback ⊢
      subst hback
      simp [saved_of_eq hb, hnz]
  | cons e rest =>
    have h0 := haway 0 (by simp)
    simp only [List.take, run_nil] at h0
    exact ((pageTable_of_not_current _ b (by simpa using hlt) h0 _ haway).2 hback
      (hsaved ▸ hnz)).trans hsaved

end Euralios.Process.Kernel
