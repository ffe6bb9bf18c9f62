import Euralios.Process.PageTables

/-!
# `new_user_thread` under preemption

`new_user_thread` switches the running thread to the new page table, copies the segments through
it, and switches back, with interrupts enabled throughout: its own comment notes that this works
only because `schedule_next` saves and restores each thread's page table. This module checks that
argument.

The steps of a call that touch shared state are listed by `newUserThreadSteps`, and `execInstrs`
runs them one after another; `newUserThread_eq_execInstrs` shows that this is the function of
`Create.lean`. `interleave` runs them as one thread, `caller`, among others: a turn is a timer
interrupt, a step of another thread (only while `caller` is not running), or the next step of
`caller` (only while it is running).

A call panics in `VirtAddr::new` at a readable segment whose address is not canonical. Its step
list then ends with `Instr.panic`: `execInstrs` stops there with the panic's message, and in an
interleaving the caller never takes that step, while the other threads go on.

The page table `caller` finds active at each of its steps is the one it would find if it ran alone
(`pageTable_interleave`). So every byte `new_user_thread` copies is stored through the new table,
and the call ends, with `Ok` or `Err`, in the page table it started in.
-/

namespace Euralios.Process

/-- A step of `new_user_thread` that touches shared state. -/
inductive Instr
  /-- `original_page_table = memory::active_pagetable_physaddr()`. -/
  | readActivePagetable
  /-- `memory::switch_to_pagetable(original_page_table)`. -/
  | switchToOriginal
  /-- Any other step. -/
  | event (e : Event)
  /-- A panic, after which the caller takes no further step. -/
  | panic (message : String)
  deriving DecidableEq, Repr

namespace Instr

/-- The copy loop of one segment. -/
def copySteps (address : Nat) : List UInt8 → List Instr
  | [] => []
  | value :: rest => .event (.write address value) :: copySteps (address + 1) rest

/-- The segment loop of `new_user_thread` and what follows it: for each readable segment,
`allocate_pages` and the copy, or the panic of `VirtAddr::new` at a non-canonical address; at an
unreadable one, the switch back before `Err`; after the last segment, the switch back and the
queueing of the new thread. -/
def segmentSteps (r : UserThreadResources) (entryPoint : Nat) : List Segment → List Instr
  | [] => [.switchToOriginal, .event (.enqueueUserThread r entryPoint)]
  | segment :: rest =>
    match segment.data with
    | some data =>
      match virtAddrNew segment.address with
      | .ok start =>
        .event (.allocatePages r.userPageTable start data.length) ::
          (copySteps segment.address data ++ segmentSteps r entryPoint rest)
      | .error e => [.panic e]
    | none => [.switchToOriginal]

end Instr

/-- The steps of `new_user_thread(bin)` that touch shared state. A call that returns or panics
before `create_kernel_only_pagetable` has none. -/
def newUserThreadSteps (parse : List UInt8 → Option ElfFile) (bin : List UInt8)
    (r : UserThreadResources) : List Instr :=
  if bin.length < 4 ∨ bin.take 4 ≠ elfMagic then []
  else
    match parse bin with
    | none => []
    | some obj =>
      .readActivePagetable :: .event (.switchToPagetable r.userPageTable) ::
        Instr.segmentSteps r obj.entry obj.segments

namespace Kernel

variable (interruptContextSize : Nat)

/-- One step of the calling thread, with its local `original_page_table`. A panic changes no state:
`execInstrs` stops at it, and `turn` never takes it. -/
def execInstr (s : Kernel × Nat) : Instr → Kernel × Nat
  | .readActivePagetable => (s.1, s.1.activePageTable)
  | .switchToOriginal => (s.1.switchToPagetable s.2, s.2)
  | .event e => (s.1.step interruptContextSize e, s.2)
  | .panic _ => s

/-- Steps of the calling thread run one after another, up to a panic. -/
def execInstrs (s : Kernel × Nat) : List Instr → Except String (Kernel × Nat)
  | [] => .ok s
  | .panic e :: _ => .error e
  | i :: rest => execInstrs (execInstr interruptContextSize s i) rest

end Kernel

/-! ## The steps run without interruption are `new_user_thread` -/

namespace Kernel

variable {ics : Nat}

/-- The copy loop takes no panic: it runs to its end and hands over to the steps after it. -/
theorem execInstrs_copySteps_append (k : Kernel) (o address : Nat) (data : List UInt8)
    (rest : List Instr) :
    execInstrs ics (k, o) (Instr.copySteps address data ++ rest) =
      execInstrs ics (k.copyData address data, o) rest := by
  induction data generalizing k address with
  | nil => rfl
  | cons v vs ih => exact ih _ _

/-- The segment loop's steps do what `loadSegments` does, then switch back and, when the loop
finished, queue the new thread; they panic exactly where `loadSegments` panics. -/
theorem execInstrs_segmentSteps (k : Kernel) (o : Nat) (r : UserThreadResources) (entry : Nat)
    (segments : List Segment) :
    execInstrs ics (k, o) (Instr.segmentSteps r entry segments) =
      (k.loadSegments r.userPageTable segments).map fun (k₁, finished) =>
        let loaded := k₁.switchToPagetable o
        (if finished then (loaded.enqueueUserThread ics r entry).1 else loaded, o) := by
  induction segments generalizing k with
  | nil => rfl
  | cons s rest ih =>
    cases hd : s.data with
    | none => simp [Instr.segmentSteps, loadSegments, hd, execInstrs, execInstr, Except.map]
    | some data =>
      cases hv : virtAddrNew s.address with
      | error e => simp [Instr.segmentSteps, loadSegments, hd, hv, execInstrs, Except.map]
      | ok start =>
        simp only [Instr.segmentSteps, loadSegments, hd, hv, execInstrs, execInstr, step]
        rw [execInstrs_copySteps_append, ih]

end Kernel

/-! ## What the caller sees when it runs alone -/

/-- The page table a step leaves active, given the one active before it: only
`switch_to_pagetable` changes it. -/
def Event.pageTableAfter (p : Nat) : Event → Nat
  | .timer _ => p
  | .newKernelThread .. => p
  | .switchToPagetable q => q
  | .allocatePages .. => p
  | .write .. => p
  | .enqueueUserThread .. => p

namespace Instr

/-- The active page table and `original_page_table` after a step of the caller, when it runs
alone. -/
def view (s : Nat × Nat) : Instr → Nat × Nat
  | readActivePagetable => (s.1, s.1)
  | switchToOriginal => (s.2, s.2)
  | event e => (e.pageTableAfter s.1, s.2)
  | panic _ => s

/-- A step that changes neither the page table nor `original_page_table`. -/
def KeepsView (i : Instr) : Prop := ∀ s, view s i = s

theorem foldl_view_of_keepsView {l : List Instr} (h : ∀ i ∈ l, KeepsView i) (s : Nat × Nat) :
    l.foldl view s = s := by
  induction l with
  | nil => rfl
  | cons i l ih =>
    rw [List.foldl_cons, h i (List.mem_cons_self i l),
      ih fun j hj => h j (List.mem_cons_of_mem i hj)]

/-- A property of views that every step of `l` keeps holds after `l`. -/
theorem foldl_view_induction (P : Nat × Nat → Prop) {l : List Instr}
    (h : ∀ i ∈ l, ∀ s, P s → P (view s i)) {s : Nat × Nat} (hs : P s) : P (l.foldl view s) := by
  induction l generalizing s with
  | nil => exact hs
  | cons i l ih =>
    exact ih (fun j hj => h j (List.mem_cons_of_mem i hj)) (h i (List.mem_cons_self i l) s hs)

theorem mem_copySteps {address : Nat} {data : List UInt8} {i : Instr}
    (h : i ∈ copySteps address data) : ∃ a x, i = .event (.write a x) := by
  induction data generalizing address with
  | nil => simp [copySteps] at h
  | cons v rest ih =>
    rcases List.mem_cons.mp h with rfl | h
    · exact ⟨_, _, rfl⟩
    · exact ih h

theorem keepsView_of_mem_copySteps {address : Nat} {data : List UInt8} {i : Instr}
    (h : i ∈ copySteps address data) : KeepsView i := by
  obtain ⟨a, x, rfl⟩ := mem_copySteps h
  intro s; rfl

/-- The segment loop switches back to `original_page_table` or takes steps that change no view, none
of them a timer interrupt. -/
theorem mem_segmentSteps {r : UserThreadResources} {entry : Nat} {segments : List Segment}
    {i : Instr} (h : i ∈ segmentSteps r entry segments) :
    i = .switchToOriginal ∨ (KeepsView i ∧ ∀ c, i ≠ .event (.timer c)) := by
  induction segments with
  | nil =>
    simp only [segmentSteps, List.mem_cons, List.mem_singleton, List.not_mem_nil, or_false] at h
    rcases h with rfl | rfl
    · exact .inl rfl
    · exact .inr ⟨fun s => rfl, by simp⟩
  | cons seg rest ih =>
    cases hd : seg.data with
    | none => simp_all [segmentSteps]
    | some data =>
      cases hv : virtAddrNew seg.address with
      | error e =>
        simp only [segmentSteps, hd, hv, List.mem_singleton] at h
        exact .inr ⟨fun s => by rw [h]; rfl, by simp [h]⟩
      | ok start =>
        simp only [segmentSteps, hd, hv, List.mem_cons, List.mem_append] at h
        rcases h with rfl | h | h
        · exact .inr ⟨fun s => rfl, by simp⟩
        · obtain ⟨a, x, rfl⟩ := mem_copySteps h
          exact .inr ⟨fun s => rfl, by simp⟩
        · exact ih h

/-- The segment loop ends, by either return, back in `original_page_table`. -/
theorem foldl_view_segmentSteps (r : UserThreadResources) (entry : Nat) (segments : List Segment)
    (hnp : ∀ e, panic e ∉ segmentSteps r entry segments) (s : Nat × Nat) :
    (segmentSteps r entry segments).foldl view s = (s.2, s.2) := by
  induction segments with
  | nil => rfl
  | cons seg rest ih =>
    cases hd : seg.data with
    | none => simp [segmentSteps, hd, view]
    | some data =>
      cases hv : virtAddrNew seg.address with
      | error e => simp [segmentSteps, hd, hv] at hnp
      | ok start =>
        simp only [segmentSteps, hd, hv, List.mem_cons, List.mem_append, not_or] at hnp
        simp only [segmentSteps, hd, hv, List.foldl_cons, List.foldl_append]
        rw [foldl_view_of_keepsView (fun _ => keepsView_of_mem_copySteps),
          ← ih fun e => (hnp e).2.2]
        rfl

/-- Every step of the segment loop before a copied byte keeps the view: the copy runs in the page
table the loop started in. -/
theorem foldl_view_before_write {r : UserThreadResources} {entry : Nat} {segments : List Segment}
    {pre post : List Instr} {a : Nat} {x : UInt8}
    (h : segmentSteps r entry segments = pre ++ .event (.write a x) :: post) (s : Nat × Nat) :
    pre.foldl view s = s := by
  have hw : Instr.event (.write a x) ∈ segmentSteps r entry segments := by simp [h]
  induction segments generalizing pre with
  | nil => simp [segmentSteps] at hw
  | cons seg rest ih =>
    cases hd : seg.data with
    | none => simp [segmentSteps, hd] at hw
    | some data =>
      cases hv : virtAddrNew seg.address with
      | error e => simp [segmentSteps, hd, hv] at hw
      | ok start =>
        simp only [segmentSteps, hd, hv] at h
        rcases pre with _ | ⟨i, pre⟩
        · simp at h
        simp only [List.cons_append, List.cons.injEq] at h
        obtain ⟨rfl, h⟩ := h
        rw [List.foldl_cons]
        rcases List.append_eq_append_iff.mp h with ⟨a', rfl, hrest⟩ | ⟨c', hcopy, _⟩
        · -- the byte is copied by a later segment
          rw [List.foldl_append, foldl_view_of_keepsView (fun _ => keepsView_of_mem_copySteps)]
          exact ih hrest (by simp [hrest])
        · -- the byte is copied by this segment, after the steps `pre` of its own copy loop
          rw [foldl_view_of_keepsView fun i hi => keepsView_of_mem_copySteps (hcopy ▸
            List.mem_append_left c' hi)]
          rfl

/-- Started in page table `u` with `original_page_table = o`, the segment loop only ever has `u`
or `o` active. -/
theorem foldl_view_mem_segmentSteps {r : UserThreadResources} {entry : Nat}
    {segments : List Segment} {pre post : List Instr}
    (h : segmentSteps r entry segments = pre ++ post)
    (u o : Nat) : (pre.foldl view (u, o)).1 = u ∨ (pre.foldl view (u, o)).1 = o := by
  refine (foldl_view_induction (fun s => (s.1 = u ∨ s.1 = o) ∧ s.2 = o) (fun i hi s hs => ?_)
    ⟨.inl rfl, rfl⟩).1
  rcases mem_segmentSteps (h ▸ List.mem_append_left post hi) with rfl | ⟨hkeep, _⟩
  · exact ⟨.inr hs.2, hs.2⟩
  · rwa [hkeep s]

end Instr

/-- A call either takes no step that touches shared state, or reads the page table, switches to
the new one and runs the segment loop. -/
theorem newUserThreadSteps_cases (parse : List UInt8 → Option ElfFile) (bin : List UInt8)
    (r : UserThreadResources) :
    newUserThreadSteps parse bin r = [] ∨ ∃ obj : ElfFile, newUserThreadSteps parse bin r =
      .readActivePagetable :: .event (.switchToPagetable r.userPageTable) ::
        Instr.segmentSteps r obj.entry obj.segments := by
  unfold newUserThreadSteps
  split
  · exact .inl rfl
  split
  · exact .inl rfl
  · exact .inr ⟨_, rfl⟩

theorem timer_not_mem_newUserThreadSteps (parse : List UInt8 → Option ElfFile) (bin : List UInt8)
    (r : UserThreadResources) (c : Nat) :
    Instr.event (.timer c) ∉ newUserThreadSteps parse bin r := by
  rcases newUserThreadSteps_cases parse bin r with h | ⟨obj, h⟩ <;> rw [h]
  · simp
  · rintro (_ | ⟨_, _ | ⟨_, hm⟩⟩)
    rcases Instr.mem_segmentSteps hm with h | ⟨_, h⟩
    · cases h
    · exact h c rfl

/-- Run alone from page table `c₀`, the steps of `new_user_thread` only ever have `c₀` or the new
table active. -/
theorem view_newUserThreadSteps {parse : List UInt8 → Option ElfFile} {bin : List UInt8}
    {r : UserThreadResources} {pre post : List Instr}
    (h : newUserThreadSteps parse bin r = pre ++ post)
    (c₀ : Nat) :
    (pre.foldl Instr.view (c₀, 0)).1 = c₀ ∨ (pre.foldl Instr.view (c₀, 0)).1 = r.userPageTable := by
  rcases newUserThreadSteps_cases parse bin r with h0 | ⟨obj, h0⟩ <;> rw [h0] at h
  · simp [(List.nil_eq_append_iff.mp h).1]
  rcases pre with _ | ⟨i, _ | ⟨j, pre⟩⟩
  · exact .inl rfl
  · obtain ⟨rfl, _⟩ := List.cons.inj h
    exact .inl rfl
  · simp only [List.cons_append, List.cons.injEq] at h
    obtain ⟨rfl, rfl, h⟩ := h
    exact (Instr.foldl_view_mem_segmentSteps h _ _).symm

/-- Run alone, `new_user_thread` copies every byte with the new table active. -/
theorem view_newUserThreadSteps_of_write {parse : List UInt8 → Option ElfFile}
    {bin : List UInt8} {r : UserThreadResources} {pre post : List Instr} {a : Nat} {x : UInt8}
    (h : newUserThreadSteps parse bin r = pre ++ .event (.write a x) :: post) (c₀ : Nat) :
    (pre.foldl Instr.view (c₀, 0)).1 = r.userPageTable := by
  rcases newUserThreadSteps_cases parse bin r with h0 | ⟨obj, h0⟩ <;> rw [h0] at h
  · simp at h
  rcases pre with _ | ⟨i, _ | ⟨j, pre⟩⟩
  · simp at h
  · simp at h
  · simp only [List.cons_append, List.cons.injEq] at h
    obtain ⟨rfl, rfl, h⟩ := h
    simp [Instr.foldl_view_before_write h, Instr.view, Event.pageTableAfter]

/-- Run alone, a call of `new_user_thread` that does not panic ends, whether it returns `Ok` or
`Err`, in the table it started in. -/
theorem view_newUserThreadSteps_end (parse : List UInt8 → Option ElfFile) (bin : List UInt8)
    (r : UserThreadResources) (c₀ : Nat)
    (hnp : ∀ e, Instr.panic e ∉ newUserThreadSteps parse bin r) :
    ((newUserThreadSteps parse bin r).foldl Instr.view (c₀, 0)).1 = c₀ := by
  rcases newUserThreadSteps_cases parse bin r with h | ⟨obj, h⟩ <;> rw [h] at hnp ⊢
  · rfl
  · have hseg : ∀ e, Instr.panic e ∉ Instr.segmentSteps r obj.entry obj.segments :=
      fun e he => hnp e (by simp [he])
    simp [Instr.foldl_view_segmentSteps _ _ _ hseg, Instr.view]

namespace Kernel

variable {ics : Nat}

theorem activePageTable_step (k : Kernel) {e : Event} (he : ∀ c, e ≠ .timer c) :
    (k.step ics e).activePageTable = e.pageTableAfter k.activePageTable := by
  cases e <;> simp_all [step, Event.pageTableAfter, newKernelThread_eq, enqueueUserThread_eq]

/-- A step of the caller other than a timer interrupt does to the active page table and to
`original_page_table` what `Instr.view` says, leaves `CURRENT_THREAD` alone and frees no box. -/
theorem execInstr_view (ics : Nat) (k : Kernel) (o : Nat) {i : Instr}
    (hi : ∀ c, i ≠ .event (.timer c)) :
    ((execInstr ics (k, o) i).1.activePageTable, (execInstr ics (k, o) i).2) =
        i.view (k.activePageTable, o) ∧
      (execInstr ics (k, o) i).1.currentThread = k.currentThread ∧
      k.nextBox ≤ (execInstr ics (k, o) i).1.nextBox := by
  cases i with
  | readActivePagetable | switchToOriginal | panic _ => simp [execInstr, Instr.view]
  | event e =>
    have he : ∀ c, e ≠ .timer c := fun c h => hi c (h ▸ rfl)
    simp [execInstr, Instr.view, activePageTable_step k he, currentThread_step k he,
      nextBox_le_step]

end Kernel

/-! ## Interleaving -/

/-- A turn of a run, seen from the thread `caller` that is executing `new_user_thread`. -/
inductive Turn
  /-- A timer interrupt entering `schedule_next`. -/
  | timer (context : Nat)
  /-- A step of whichever other thread is running. -/
  | other (e : Event)
  /-- The next step of `caller`. -/
  | own
  deriving DecidableEq, Repr

/-- The call in progress in `caller`: the steps it has still to take and its local
`original_page_table`. -/
structure Call where
  /-- The steps the call has still to take, in program order. -/
  pending : List Instr
  /-- Its local `original_page_table`. -/
  original : Nat
  deriving DecidableEq, Repr

namespace Kernel

section Interleave

variable (interruptContextSize : Nat) (caller : Option Nat)

/-- The effect of one turn. `caller` is `some b` for the thread in box `b`, or `none` for the boot
context, which runs while `CURRENT_THREAD` is empty. Another thread's step is taken only while
`caller` is not running, and a step of `caller` only while it is; a caller whose next step is a
panic takes no step any more. -/
def turn (s : Kernel × Call) : Turn → Kernel × Call
  | .timer c => ((s.1.scheduleNext c).1, s.2)
  | .other e => if s.1.currentThread = caller then s else (s.1.step interruptContextSize e, s.2)
  | .own =>
    if s.1.currentThread = caller then
      match s.2.pending with
      | [] => s
      | .panic _ :: _ => s
      | i :: rest =>
        let t := execInstr interruptContextSize (s.1, s.2.original) i
        (t.1, ⟨rest, t.2⟩)
    else s

/-- The effect of a list of turns. -/
def interleave (s : Kernel × Call) (turns : List Turn) : Kernel × Call :=
  turns.foldl (turn interruptContextSize caller) s

end Interleave

/-- What the argument needs of the caller's program: started in page table `c₀` it never has
table `0` active, and none of its own steps is a timer interrupt. -/
structure ProgramOk (program : List Instr) (c₀ : Nat) : Prop where
  /-- Every prefix of the program, run alone from `c₀`, leaves a non-zero table active. -/
  view_ne_zero : ∀ pre post, program = pre ++ post → (pre.foldl Instr.view (c₀, 0)).1 ≠ 0
  /-- The program takes no timer interrupt of its own. -/
  timer_not_mem : ∀ c, Instr.event (.timer c) ∉ program

/-- The caller has taken the steps `done` of `program` and sees what it would see running alone:
its `original_page_table` is the one `done` gives, and the table `done` leaves active is active
whenever it runs and saved in its box whenever it does not. -/
structure Sees (program : List Instr) (c₀ : Nat) (caller : Option Nat) (k : Kernel) (f : Call)
    (done : List Instr) : Prop where
  /-- The steps taken and the steps pending make up the program. -/
  split : program = done ++ f.pending
  /-- The caller's `original_page_table` is the one its steps so far give. -/
  original : (done.foldl Instr.view (c₀, 0)).2 = f.original
  /-- While the caller runs, the table its steps so far leave is active. -/
  running : k.currentThread = caller → k.activePageTable = (done.foldl Instr.view (c₀, 0)).1
  /-- The caller's box is allocated. -/
  allocated : ∀ b, caller = some b → b < k.nextBox
  /-- While the caller is away, its box holds that table. -/
  saved : ∀ b, caller = some b → k.currentThread ≠ caller →
    (k.threads b).pageTablePhysaddr = (done.foldl Instr.view (c₀, 0)).1
  /-- No step taken is a panic. -/
  no_panic : ∀ e, Instr.panic e ∉ done

section Sees

variable {ics : Nat} {program : List Instr} {c₀ : Nat} {caller : Option Nat} {k : Kernel}
  {f : Call} {done : List Instr}

/-- A timer interrupt keeps what the caller sees: if it preempts the caller, `schedule_next` saves
the caller's table, and if it resumes the caller, it switches back to that table, which is not
`0`. -/
theorem Sees.scheduleNext (hok : ProgramOk program c₀) (h : Sees program c₀ caller k f done)
    (c : Nat) : Sees program c₀ caller (k.scheduleNext c).1 f done := by
  have hnz := hok.view_ne_zero done f.pending h.split
  have hsaved : ∀ b, caller = some b →
      (k.saved c b).pageTablePhysaddr = (done.foldl Instr.view (c₀, 0)).1 := by
    rintro b rfl
    by_cases hcur : k.currentThread = some b
    · simpa [saved_of_eq hcur] using h.running hcur
    · rw [saved_of_ne hcur]; exact h.saved b rfl hcur
  refine ⟨h.split, h.original, fun hcur => ?_, fun b hb => by simpa using h.allocated b hb,
    fun b hb _ => by simpa using hsaved b hb, h.no_panic⟩
  cases hr : k.roundRobin with
  | nil =>
    rw [scheduleNext_of_roundRobin_nil hr] at hcur ⊢
    exact h.running hcur
  | cons x rest =>
    rw [scheduleNext_of_roundRobin_cons hr] at hcur ⊢
    simp [hsaved x hcur.symm, hnz]

/-- A step of another thread keeps what the caller sees: it runs while the caller is away, and
touches no allocated box. -/
theorem Sees.step (hok : ProgramOk program c₀) (h : Sees program c₀ caller k f done)
    (hcur : k.currentThread ≠ caller) (e : Event) :
    Sees program c₀ caller (k.step ics e) f done := by
  by_cases ht : ∃ c, e = .timer c
  · obtain ⟨c, rfl⟩ := ht
    exact h.scheduleNext hok c
  have he : ∀ c, e ≠ .timer c := fun c he => ht ⟨c, he⟩
  have hcur' : (k.step ics e).currentThread ≠ caller := by rwa [currentThread_step k he]
  refine ⟨h.split, h.original, fun h' => absurd h' hcur', fun b hb => ?_, fun b hb _ => ?_,
    h.no_panic⟩
  · exact Nat.lt_of_lt_of_le (h.allocated b hb) (nextBox_le_step k e)
  · rw [threads_step_of_lt k he (h.allocated b hb)]
    exact h.saved b hb hcur

/-- A step of the caller other than a panic keeps what it sees: the step does what it would do
alone. -/
theorem Sees.execInstr (hok : ProgramOk program c₀) (h : Sees program c₀ caller k f done)
    (hcur : k.currentThread = caller) {i : Instr} {rest : List Instr} (hp : f.pending = i :: rest)
    (hpanic : ∀ e, i ≠ .panic e) :
    Sees program c₀ caller (execInstr ics (k, f.original) i).1
      ⟨rest, (execInstr ics (k, f.original) i).2⟩ (done ++ [i]) := by
  have hi : ∀ c, i ≠ .event (.timer c) := by
    rintro c rfl
    exact hok.timer_not_mem c (by simp [h.split, hp])
  obtain ⟨hview, hcur', hbox⟩ := execInstr_view ics k f.original hi
  have hV : (k.activePageTable, f.original) = done.foldl Instr.view (c₀, 0) := by
    rw [h.running hcur, ← h.original]
  rw [hV] at hview
  have hfold : (done ++ [i]).foldl Instr.view (c₀, 0) =
      Instr.view (done.foldl Instr.view (c₀, 0)) i := by
    simp
  refine ⟨by simp [h.split, hp], by rw [hfold, ← hview], fun _ => by rw [hfold, ← hview],
    fun b hb => (h.allocated b hb).trans_le hbox, fun b _ hne => absurd (hcur'.trans hcur) hne,
    fun e he => ?_⟩
  rcases List.mem_append.mp he with he | he
  · exact h.no_panic e he
  · exact hpanic e (List.mem_singleton.mp he).symm

/-- Every turn keeps what the caller sees, once the steps it took are added to `done`. -/
theorem Sees.turn (hok : ProgramOk program c₀) (h : Sees program c₀ caller k f done) (t : Turn) :
    ∃ done', Sees program c₀ caller (turn ics caller (k, f) t).1
      (turn ics caller (k, f) t).2 done' := by
  cases t with
  | timer c => exact ⟨done, h.scheduleNext hok c⟩
  | other e =>
    by_cases hcur : k.currentThread = caller
    · simp only [Kernel.turn, if_pos hcur]; exact ⟨done, h⟩
    · simp only [Kernel.turn, if_neg hcur]; exact ⟨done, h.step hok hcur e⟩
  | own =>
    by_cases hcur : k.currentThread = caller
    · cases hp : f.pending with
      | nil => simp only [Kernel.turn, if_pos hcur, hp]; exact ⟨done, h⟩
      | cons i rest =>
        cases i with
        | panic e => simp only [Kernel.turn, if_pos hcur, hp]; exact ⟨done, h⟩
        | readActivePagetable | switchToOriginal | event _ =>
          simp only [Kernel.turn, if_pos hcur, hp]
          exact ⟨_, h.execInstr hok hcur hp nofun⟩
    · simp only [Kernel.turn, if_neg hcur]; exact ⟨done, h⟩

theorem Sees.interleave (hok : ProgramOk program c₀) (h : Sees program c₀ caller k f done)
    (turns : List Turn) :
    ∃ done', Sees program c₀ caller (interleave ics caller (k, f) turns).1
      (interleave ics caller (k, f) turns).2 done' := by
  induction turns generalizing k f done with
  | nil => exact ⟨done, h⟩
  | cons t turns ih =>
    obtain ⟨done', h'⟩ := h.turn hok t
    exact ih h'

/-- At the start of the call the caller runs and has taken no step. -/
theorem sees_start (program : List Instr) (hb : ∀ b, k.currentThread = some b → b < k.nextBox) :
    Sees program k.activePageTable k.currentThread k ⟨program, 0⟩ [] :=
  ⟨rfl, rfl, fun _ => rfl, hb, fun _ _ h => absurd rfl h, fun _ => List.not_mem_nil _⟩

/-- Whatever the turns, whenever the caller runs, the page table active is the one its own steps so
far, none of them a panic, leave active when it runs alone. -/
theorem pageTable_interleave (hok : ProgramOk program k.activePageTable)
    (hb : ∀ b, k.currentThread = some b → b < k.nextBox) (turns : List Turn)
    (hcur : (interleave ics k.currentThread (k, ⟨program, 0⟩) turns).1.currentThread =
      k.currentThread) :
    ∃ done, program = done ++ (interleave ics k.currentThread (k, ⟨program, 0⟩) turns).2.pending ∧
      (interleave ics k.currentThread (k, ⟨program, 0⟩) turns).1.activePageTable =
        (done.foldl Instr.view (k.activePageTable, 0)).1 ∧ ∀ e, Instr.panic e ∉ done := by
  obtain ⟨done, h⟩ := (sees_start program hb).interleave hok turns
  exact ⟨done, h.split, h.running hcur, h.no_panic⟩

end Sees

theorem programOk_newUserThreadSteps {c₀ : Nat} (parse : List UInt8 → Option ElfFile)
    (bin : List UInt8) {r : UserThreadResources} (hc₀ : c₀ ≠ 0) (hU : r.userPageTable ≠ 0) :
    ProgramOk (newUserThreadSteps parse bin r) c₀ :=
  ⟨fun _ _ h => by rcases view_newUserThreadSteps h c₀ with h | h <;> rw [h] <;> assumption,
    timer_not_mem_newUserThreadSteps parse bin r⟩

/-- With non-zero page tables, a thread that `schedule_next` preempts finds, when it is resumed,
the page table that was active at its last preemption. So in every interleaving of a
`new_user_thread` call in the running thread (a thread of the round-robin list, or the boot context
while none runs) with timer interrupts and the steps of other threads, thread creations included:
each time the caller runs with a byte to copy next, the new user page table is active; and once it
has taken its last step, returning `Ok` or `Err`, the table active on entry is active again. -/
theorem page_table_restored_under_preemption (ics : Nat) :
    (∀ p ist pre rest c b, ((boot p ist).run ics pre).currentThread = some b →
      ((boot p ist).run ics pre).activePageTable ≠ 0 →
      (∀ n < rest.length,
        ((boot p ist).run ics (pre ++ .timer c :: rest.take n)).currentThread ≠ some b) →
      ((boot p ist).run ics (pre ++ .timer c :: rest)).currentThread = some b →
      ((boot p ist).run ics (pre ++ .timer c :: rest)).activePageTable =
        ((boot p ist).run ics pre).activePageTable) ∧
    (∀ p ist events parse bin r turns,
      let k := (boot p ist).run ics events
      let s := interleave ics k.currentThread (k, ⟨newUserThreadSteps parse bin r, 0⟩) turns
      k.activePageTable ≠ 0 → r.userPageTable ≠ 0 → s.1.currentThread = k.currentThread →
      (∀ a x rest, s.2.pending = .event (.write a x) :: rest →
        s.1.activePageTable = r.userPageTable) ∧
      (s.2.pending = [] → s.1.activePageTable = k.activePageTable)) := by
  refine ⟨fun p ist pre rest c b => resume_restores_page_table p ist pre rest c b, ?_⟩
  intro p ist events parse bin r turns k s hnz hU hcur
  have hb : ∀ b, k.currentThread = some b → b < k.nextBox := fun b hb =>
    lt_nextBox_of_mem (roundRobin_perm_range p ist events)
      (by show b ∈ k.roundRobin; simp [roundRobin, hb])
  obtain ⟨done, hsplit, hpt, hnp⟩ :=
    pageTable_interleave (programOk_newUserThreadSteps parse bin hnz hU) hb turns hcur
  refine ⟨fun a x rest hp => ?_, fun hp => ?_⟩
  · rw [hp] at hsplit
    rw [hpt, view_newUserThreadSteps_of_write hsplit]
  · rw [hp, List.append_nil] at hsplit
    rw [hpt, ← hsplit, view_newUserThreadSteps_end _ _ _ _ (hsplit ▸ hnp)]

/-- Two kernel threads run in table `1`. In the first run thread `0` is preempted, thread `1`
switches to table `7`, and the next timer interrupt resumes thread `0` with table `1` active
again. In the second, thread `0` calls `new_user_thread` on a binary with one one-byte segment and
is preempted after `allocate_pages`; thread `1` then switches to table `7` and stores a byte. When
thread `0` runs again its next step is the copy, and its table `5` is active. -/
theorem page_table_restored_under_preemption_two_threads :
    (let pre : List Event := [.newKernelThread 0x1000 0x8000 0x20000 0x202,
      .newKernelThread 0x1000 0x30000 0x40000 0x202, .timer 0]
    let rest : List Event := [.switchToPagetable 7, .timer 0]
    (((boot 1 0).run 160 pre).currentThread = some 0 ∧
      ((boot 1 0).run 160 pre).activePageTable ≠ 0 ∧
      (∀ n < rest.length,
        ((boot 1 0).run 160 (pre ++ .timer 0 :: rest.take n)).currentThread ≠ some 0) ∧
      ((boot 1 0).run 160 (pre ++ .timer 0 :: rest)).currentThread = some 0) ∧
    ((boot 1 0).run 160 (pre ++ .timer 0 :: rest)).activePageTable =
      ((boot 1 0).run 160 pre).activePageTable) ∧
    (let k := (boot 1 0).run 160 [.newKernelThread 0x1000 0x8000 0x20000 0x202,
      .newKernelThread 0x1000 0x30000 0x40000 0x202, .timer 0]
    let parse : List UInt8 → Option ElfFile := fun _ => some ⟨0x400000, [⟨0x400000, some [0x90]⟩]⟩
    let r : UserThreadResources := ⟨5, 0x50000, 0x23, 0x1b⟩
    let turns := [.own, .own, .own, .timer 0, .other (.switchToPagetable 7),
      .other (.write 0x1000 1), .timer 0]
    let s := interleave 160 k.currentThread (k, ⟨newUserThreadSteps parse elfMagic r, 0⟩) turns
    (k.activePageTable ≠ 0 ∧ r.userPageTable ≠ 0 ∧ s.1.currentThread = k.currentThread) ∧
      s.2.pending = [.event (.write 0x400000 0x90), .switchToOriginal,
        .event (.enqueueUserThread r 0x400000)] ∧
      s.1.activePageTable = 5) :=
  ⟨⟨⟨by decide, by decide, by decide, by decide⟩,
    (page_table_restored_under_preemption 160).1 1 0 _ _ 0 0 (by decide) (by decide) (by decide)
      (by decide)⟩,
  ⟨⟨by decide, by decide, by decide⟩, by decide,
    ((page_table_restored_under_preemption 160).2 1 0 _ _ elfMagic _ _ (by decide) (by decide)
      (by decide)).1 0x400000 0x90
      [.switchToOriginal, .event (.enqueueUserThread ⟨5, 0x50000, 0x23, 0x1b⟩ 0x400000)]
      (by decide)⟩⟩

end Kernel

end Euralios.Process
