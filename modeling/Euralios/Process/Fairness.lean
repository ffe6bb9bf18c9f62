import Euralios.Process.Run

/-!
# Bounded waiting

`schedule_next` pops the front of `RUNNING_QUEUE` and pushes the outgoing thread at its back, and
`new_kernel_thread` and `new_user_thread` push the new thread at its back too. So a thread waiting
in the queue is never overtaken: each timer interrupt moves it one place towards the front, and no
other step moves it at all.

* `runningQueue_getElem?_step`: a waiting thread moves one place forward at a timer interrupt and
  keeps its place at every other step.
* `runningQueue_getElem?_run`: after a run with `n` timer interrupts, a thread that waited at index
  `i + n` waits at index `i`.
* `queued_thread_selected_at_timer`: in a reachable state, a thread at index `i` of the queue stays
  off the CPU through any steps with exactly `i` timer interrupts, whatever threads they create,
  and the next timer interrupt selects it and returns its saved `Context` address.
-/

namespace Euralios.Process

/-- Whether a step is a timer interrupt. -/
def Event.isTimer : Event → Bool
  | .timer _ => true
  | _ => false

namespace Kernel

variable {ics : Nat}

/-- A step other than a timer interrupt appends the new thread to the queue if it creates one,
and leaves the queue as it was otherwise. -/
theorem runningQueue_step_of_not_timer (k : Kernel) {e : Event} (he : e.isTimer = false) :
    (k.step ics e).runningQueue =
      k.runningQueue ++ if e.isCreation then [k.nextBox] else [] := by
  cases e <;> simp_all [Event.isTimer, Event.isCreation, step, newKernelThread_eq,
    enqueueUserThread_eq]

/-- A thread at the front of the queue heads the round-robin list. -/
theorem roundRobin_of_runningQueue_cons {k : Kernel} {b : Nat} {rest : List Nat}
    (h : k.runningQueue = b :: rest) : k.roundRobin = b :: (rest ++ k.currentThread.toList) := by
  simp [roundRobin, h]

/-- A timer interrupt drops the front of a non-empty queue and appends the thread that was
current. -/
theorem runningQueue_scheduleNext_of_cons (k : Kernel) {b : Nat} {rest : List Nat}
    (h : k.runningQueue = b :: rest) (c : Nat) :
    (k.scheduleNext c).1.runningQueue = rest ++ k.currentThread.toList := by
  rw [scheduleNext_of_roundRobin_cons (roundRobin_of_runningQueue_cons h)]

/-- One step: a thread waiting at index `i + 1` moves to index `i` at a timer interrupt, and a
thread waiting at index `i` keeps it at any other step. -/
theorem runningQueue_getElem?_step {k : Kernel} {i b : Nat} (e : Event)
    (h : k.runningQueue[i + if e.isTimer then 1 else 0]? = some b) :
    (k.step ics e).runningQueue[i]? = some b := by
  cases he : e.isTimer
  · rw [he, if_neg Bool.false_ne_true, Nat.add_zero] at h
    rw [runningQueue_step_of_not_timer k he,
      List.getElem?_append_left (List.getElem?_eq_some_iff.mp h).1, h]
  · obtain ⟨c, rfl⟩ : ∃ c, e = .timer c := by cases e <;> simp_all [Event.isTimer]
    rw [he, if_pos rfl] at h
    obtain ⟨x, rest, hq⟩ : ∃ x rest, k.runningQueue = x :: rest :=
      List.exists_cons_of_ne_nil fun h0 => by simp [h0] at h
    rw [hq, List.getElem?_cons_succ] at h
    rw [step_timer, runningQueue_scheduleNext_of_cons k hq,
      List.getElem?_append_left (List.getElem?_eq_some_iff.mp h).1, h]

/-- After a run, a thread that waited at index `i` plus the number of the run's timer interrupts
waits at index `i`. -/
theorem runningQueue_getElem?_run {k : Kernel} {i b : Nat} (events : List Event)
    (h : k.runningQueue[i + events.countP Event.isTimer]? = some b) :
    (k.run ics events).runningQueue[i]? = some b := by
  induction events generalizing k with
  | nil => exact h
  | cons e rest ih =>
    rw [List.countP_cons, ← Nat.add_assoc] at h
    exact ih (runningQueue_getElem?_step e h)

/-- In a reachable state, a thread in the queue is not the current one: the round-robin list holds
each thread once. -/
theorem currentThread_ne_of_mem_runningQueue (p ist : Nat) (events : List Event) {b : Nat}
    (hb : b ∈ ((boot p ist).run ics events).runningQueue) :
    ((boot p ist).run ics events).currentThread ≠ some b := by
  intro hcur
  have hnd := (@roundRobin_perm_range ics p ist events).nodup_iff.mpr (List.nodup_range _)
  simp only [roundRobin, hcur, Option.toList_some, List.nodup_append] at hnd
  exact hnd.2.2 hb (List.mem_singleton_self b)

/-- A thread waiting at index `i` of `RUNNING_QUEUE` in a reachable state is selected by exactly
the `(i + 1)`-th timer interrupt that follows, whatever steps come between: thread creations,
page-table switches, page allocations and stores of the running threads. Until that interrupt it
is never current, and the interrupt makes it current and returns its saved `Context` address. -/
theorem queued_thread_selected_at_timer (ics p ist : Nat) (pre events : List Event) (b c : Nat)
    (hb : ((boot p ist).run ics pre).runningQueue[events.countP Event.isTimer]? = some b) :
    (∀ n ≤ events.length, ((boot p ist).run ics (pre ++ events.take n)).currentThread ≠ some b) ∧
      (((boot p ist).run ics (pre ++ events)).scheduleNext c).1.currentThread = some b ∧
      (((boot p ist).run ics (pre ++ events)).scheduleNext c).2 =
        (((boot p ist).run ics (pre ++ events)).threads b).context := by
  -- after each prefix of `events` the thread is still waiting in the queue
  have hwait : ∀ n, b ∈ ((boot p ist).run ics (pre ++ events.take n)).runningQueue := by
    intro n
    have hle := (List.take_sublist n events).countP_le Event.isTimer
    rw [run_append]
    refine List.mem_iff_getElem?.mpr ⟨_, @runningQueue_getElem?_run ics _
      (events.countP Event.isTimer - (events.take n).countP Event.isTimer) b (events.take n) ?_⟩
    rwa [Nat.sub_add_cancel hle]
  refine ⟨fun n _ => currentThread_ne_of_mem_runningQueue p ist _ (hwait n), ?_⟩
  have hcur := currentThread_ne_of_mem_runningQueue p ist _ (hwait events.length)
  rw [List.take_length] at hcur
  -- after all of them it is at the front, where the next timer interrupt takes it
  have h0 : b ∈ ((boot p ist).run ics (pre ++ events)).runningQueue.head? := by
    rw [List.head?_eq_getElem?, run_append]
    exact runningQueue_getElem?_run events (by rwa [Nat.zero_add])
  rw [scheduleNext_of_roundRobin_cons
    (roundRobin_of_runningQueue_cons (List.eq_cons_of_mem_head? h0))]
  exact ⟨rfl, by rw [saved_of_ne hcur]⟩

/-- Two kernel threads wait in the queue. A timer interrupt selects the first, and the running
thread creates a third, which joins the queue behind the second. The second thread, at index `1`
before, is selected by the next timer interrupt. -/
theorem queued_thread_selected_at_timer_after_creation :
    let pre : List Event := [.newKernelThread 0x1000 0x8000 0x20000 0x202,
      .newKernelThread 0x1000 0x30000 0x40000 0x202]
    let events : List Event := [.timer 0, .newKernelThread 0x1000 0x50000 0x60000 0x202]
    ((boot 1 0).run 160 pre).runningQueue[events.countP Event.isTimer]? = some 1 ∧
    (∀ n ≤ events.length, ((boot 1 0).run 160 (pre ++ events.take n)).currentThread ≠ some 1) ∧
      (((boot 1 0).run 160 (pre ++ events)).scheduleNext 0).1.currentThread = some 1 ∧
      (((boot 1 0).run 160 (pre ++ events)).scheduleNext 0).2 =
        (((boot 1 0).run 160 (pre ++ events)).threads 1).context :=
  ⟨by decide, queued_thread_selected_at_timer 160 1 0 _ _ 1 0 (by decide)⟩

end Kernel

end Euralios.Process
