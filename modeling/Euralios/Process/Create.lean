import Euralios.Process.Schedule
import Mathlib.Algebra.Group.Nat.Basic

/-!
# Creating threads: `new_kernel_thread` and `new_user_thread`

Both functions build a `Thread` whose kernel stack ends with a prepared `Context` at
`kernel_stack_end - INTERRUPT_CONTEXT_SIZE`, and push it to the back of `RUNNING_QUEUE` with
interrupts off. `new_user_thread` first checks the ELF magic, has the `object` crate parse the
binary, switches to a fresh page table that maps only the kernel, copies each loadable segment
there, and switches back.

`INTERRUPT_CONTEXT_SIZE` is defined in `interrupts.rs`, outside this fragment, and is a parameter.
So are the results of the calls into other modules: the `object` parser, the buffers `Vec`
allocates, the table `create_kernel_only_pagetable` builds and the user selectors of
`gdt::get_user_segments`. A panic is an `Except.error` with Rust's message. `VirtAddr::new`
panics on an address that is not canonical, with the message of the `x86_64` crate.

* `newUserThread_of_length_lt`: a binary shorter than four bytes panics on `bin[0..4]`.
* `newUserThread_eq_error`: a longer binary panics only in `VirtAddr::new`, at a readable segment
  whose address is not canonical.
* `newUserThread_eq_ok_ok_iff`: `new_user_thread` returns `Ok` exactly when the magic matches, the
  binary parses, and every segment is readable and at a canonical address; the address is not
  compared with the kernel's memory.
* `newUserThread_ok` and `newUserThread_err`: what a return leaves in the scheduler state.
-/

namespace Euralios.Process

/-- A loadable segment as the `object` crate presents it. -/
structure Segment where
  /-- `segment.address()`, a `u64`. -/
  address : Nat
  /-- `segment.data()`: the segment's bytes, or `none` when they cannot be read. -/
  data : Option (List UInt8)
  deriving DecidableEq, Repr

/-- What `object::File::parse` gives `new_user_thread`. -/
structure ElfFile where
  /-- `obj.entry()`, the entry point. -/
  entry : Nat
  /-- `obj.segments()`, in the order the loop visits them. -/
  segments : List Segment
  deriving DecidableEq, Repr

/-- What `new_user_thread` obtains from other modules. -/
structure UserThreadResources where
  /-- The physical address of the table `memory::create_kernel_only_pagetable` built. -/
  userPageTable : Nat
  /-- The start of the `kernel_stack` buffer `Vec::with_capacity` returned. -/
  kernelStack : Nat
  /-- The code selector of `gdt::get_user_segments`. -/
  codeSelector : Nat
  /-- The data selector of `gdt::get_user_segments`. -/
  dataSelector : Nat
  deriving DecidableEq, Repr

/-- `ELF_MAGIC`: `[0x7f, b'E', b'L', b'F']`. -/
def elfMagic : List UInt8 := [0x7f, 0x45, 0x4c, 0x46]

/-- Whether `address` is a canonical x86-64 virtual address: a `u64` whose bits 47 to 63 are all
equal. -/
def isCanonical (address : Nat) : Bool :=
  address < 2 ^ 47 || (2 ^ 64 - 2 ^ 47 ≤ address && address < 2 ^ 64)

/-- `x86_64::VirtAddr::new(address)`, which panics unless the address is canonical. -/
def virtAddrNew (address : Nat) : Except String Nat :=
  if isCanonical address then .ok address
  else .error "virtual address must be sign extended in bits 48 to 64"

section Records

variable (interruptContextSize : Nat)

/-- The `Thread` that `new_kernel_thread` boxes: TID `0`, page table `0`, and the `Context` at the
top of its kernel stack. -/
def Thread.kernel (kernelStack userStack : Nat) : Thread where
  tid := 0
  pageTablePhysaddr := 0
  kernelStack := kernelStack
  kernelStackEnd := kernelStack + kernelStackSize
  context := kernelStack + kernelStackSize - interruptContextSize
  userStack := some userStack

/-- The `Thread` that `new_user_thread` boxes: TID `0`, the new page table, the `Context` at the
top of its kernel stack, and an empty `user_stack`. -/
def Thread.user (r : UserThreadResources) : Thread where
  tid := 0
  pageTablePhysaddr := r.userPageTable
  kernelStack := r.kernelStack
  kernelStackEnd := r.kernelStack + kernelStackSize
  context := r.kernelStack + kernelStackSize - interruptContextSize
  userStack := none

end Records

namespace Kernel

section Creation

variable (interruptContextSize : Nat)

/-- `new_kernel_thread(function)`: `kernelStack` and `userStack` are the two buffers
`Vec::with_capacity` returned, and `rflags` is what `pushf` read. Returns the new thread's TID. -/
def newKernelThread (k : Kernel) (function kernelStack userStack rflags : Nat) : Kernel × Nat :=
  let newThread := Thread.kernel interruptContextSize kernelStack userStack
  let k := k.setContext newThread.context fun context =>
    { context with rip := function, rflags, cs := 8, rsp := userStack + userStackSize }
  (k.pushBack newThread, newThread.tid)

/-- The copy loop `for (i, value) in data.iter().enumerate()` storing `value` at
`dest_ptr.add(i)`. -/
def copyData (k : Kernel) (address : Nat) : List UInt8 → Kernel
  | [] => k
  | value :: rest => (k.write address value).copyData (address + 1) rest

/-- The segment loop of `new_user_thread`: for each segment, `allocate_pages` at
`VirtAddr::new(segment_address)`, which panics on a non-canonical address, then the copy to
`segment_address`. It stops with `false` at the first segment whose data cannot be read. -/
def loadSegments (k : Kernel) (userPageTable : Nat) :
    List Segment → Except String (Kernel × Bool)
  | [] => .ok (k, true)
  | segment :: rest =>
    match segment.data with
    | some data =>
      match virtAddrNew segment.address with
      | .ok start =>
        ((k.allocatePages userPageTable start data.length).copyData segment.address
          data).loadSegments userPageTable rest
      | .error e => .error e
    | none => .ok (k, false)

/-- `new_user_thread` from `// Create the new Thread struct` on: prepare the new thread's
`Context`, map its user stack, and push it. Returns the new thread's TID. -/
def enqueueUserThread (k : Kernel) (r : UserThreadResources) (entryPoint : Nat) : Kernel × Nat :=
  let newThread := Thread.user interruptContextSize r
  let k := k.setContext newThread.context fun context =>
    { context with rip := entryPoint, rflags := 0x0200, cs := r.codeSelector, ss := r.dataSelector }
  let k := k.allocatePages r.userPageTable userStackStart userStackSize
  let k := k.setContext newThread.context fun context =>
    { context with rsp := userStackStart + userStackSize }
  (k.pushBack newThread, newThread.tid)

/-- `new_user_thread(bin)` run without preemption. The outer `Except` is a panic, the inner one
the function's `Result<usize, &'static str>`. -/
def newUserThread (parse : List UInt8 → Option ElfFile) (k : Kernel) (bin : List UInt8)
    (r : UserThreadResources) : Except String (Except String Nat × Kernel) :=
  if bin.length < 4 then
    .error ("range end index 4 out of range for slice of length " ++ toString bin.length)
  else if bin.take 4 ≠ elfMagic then .ok (.error "Expected ELF binary", k)
  else
    match parse bin with
    | none => .ok (.error "Could not parse ELF", k)
    | some obj =>
      let originalPageTable := k.activePageTable
      match (k.switchToPagetable r.userPageTable).loadSegments r.userPageTable obj.segments with
      | .error e => .error e
      | .ok (k, false) =>
        .ok (.error "Could not get segment data", k.switchToPagetable originalPageTable)
      | .ok (k, true) =>
        let created :=
          (k.switchToPagetable originalPageTable).enqueueUserThread interruptContextSize r obj.entry
        .ok (.ok created.2, created.1)

end Creation

/-! ## The copy loop and the segment loop -/

/-- The bytes the copy loop stores, each with the page table it runs under. -/
def copyWrites (table address : Nat) : List UInt8 → List (Nat × Nat × UInt8)
  | [] => []
  | value :: rest => (table, address, value) :: copyWrites table (address + 1) rest

theorem copyData_eq (k : Kernel) (address : Nat) (data : List UInt8) :
    k.copyData address data =
      { k with writes := k.writes ++ copyWrites k.activePageTable address data } := by
  induction data generalizing k address with
  | nil => simp [copyData, copyWrites]
  | cons v rest ih => simp [copyData, copyWrites, ih]

/-- `VirtAddr::new` returns its argument on a canonical address. -/
@[simp]
theorem virtAddrNew_eq_ok {address start : Nat} :
    virtAddrNew address = .ok start ↔ isCanonical address ∧ address = start := by
  unfold virtAddrNew; split <;> simp_all

/-- `VirtAddr::new` panics on any other address. -/
@[simp]
theorem virtAddrNew_eq_error {address : Nat} {e : String} :
    virtAddrNew address = .error e ↔
      isCanonical address = false ∧
        e = "virtual address must be sign extended in bits 48 to 64" := by
  unfold virtAddrNew
  split <;> rename_i hc
  · simp [hc]
  · simp [hc, @eq_comm _ e]

section Segments

variable {k k' : Kernel} {table : Nat} {segments : List Segment} {ok : Bool}

/-- The segment loop only appends to the records of stored bytes and of `allocate_pages` calls. -/
theorem loadSegments_frame (h : k.loadSegments table segments = .ok (k', ok)) :
    ∃ w a, k' = { k with writes := k.writes ++ w, allocations := k.allocations ++ a } := by
  induction segments generalizing k with
  | nil => cases h; exact ⟨[], [], by simp⟩
  | cons s rest ih =>
    cases hd : s.data with
    | none =>
      simp only [loadSegments, hd, Except.ok.injEq, Prod.mk.injEq] at h
      obtain ⟨rfl, -⟩ := h
      exact ⟨[], [], by simp⟩
    | some data =>
      cases hv : virtAddrNew s.address with
      | error e => simp [loadSegments, hd, hv] at h
      | ok start =>
        simp only [loadSegments, hd, hv] at h
        obtain ⟨w, a, rfl⟩ := ih h
        exact ⟨copyWrites k.activePageTable s.address data ++ w, (table, start, data.length) :: a,
          by simp [copyData_eq]⟩

/-- The segment loop panics only in `VirtAddr::new`, at a readable segment whose address is not
canonical. -/
theorem loadSegments_eq_error {e : String} (h : k.loadSegments table segments = .error e) :
    e = "virtual address must be sign extended in bits 48 to 64" ∧
      ∃ s ∈ segments, s.data.isSome ∧ isCanonical s.address = false := by
  induction segments generalizing k with
  | nil => cases h
  | cons s rest ih =>
    cases hd : s.data with
    | none => simp [loadSegments, hd] at h
    | some data =>
      cases hv : virtAddrNew s.address with
      | error e' =>
        simp only [loadSegments, hd, hv, Except.error.injEq] at h
        obtain ⟨hc, rfl⟩ := virtAddrNew_eq_error.mp hv
        exact ⟨h.symm, s, List.mem_cons_self s rest, by simp [hd], hc⟩
      | ok start =>
        simp only [loadSegments, hd, hv] at h
        obtain ⟨he, s', hs', h'⟩ := ih h
        exact ⟨he, s', List.mem_cons_of_mem s hs', h'⟩

/-- The segment loop finishes exactly when every segment is readable and lies at a canonical
address. -/
theorem loadSegments_finishes_iff :
    (∃ k', k.loadSegments table segments = .ok (k', true)) ↔
      ∀ s ∈ segments, s.data.isSome ∧ isCanonical s.address := by
  induction segments generalizing k with
  | nil => simp [loadSegments]
  | cons s rest ih =>
    cases hd : s.data with
    | none => simp [loadSegments, hd]
    | some data =>
      cases hv : virtAddrNew s.address with
      | error e => simp [loadSegments, hd, hv, (virtAddrNew_eq_error.mp hv).1]
      | ok start =>
        simp only [loadSegments, hd, hv, ih, List.forall_mem_cons]
        simp [(virtAddrNew_eq_ok.mp hv).1]

/-- When the segment loop finishes, each byte of each segment is stored at its address under the
page table active during the loop, whatever that address is. -/
theorem copyWrites_subset_loadSegments (h : k.loadSegments table segments = .ok (k', true))
    {s : Segment} {data : List UInt8} (hs : s ∈ segments) (hdata : s.data = some data) :
    copyWrites k.activePageTable s.address data ⊆ k'.writes := by
  induction segments generalizing k with
  | nil => simp at hs
  | cons s' rest ih =>
    cases hd : s'.data with
    | none => simp [loadSegments, hd] at h
    | some d =>
      cases hv : virtAddrNew s'.address with
      | error e => simp [loadSegments, hd, hv] at h
      | ok start =>
        simp only [loadSegments, hd, hv] at h
        rcases List.mem_cons.mp hs with rfl | hs
        · -- this segment's bytes are stored first, and the rest of the loop only appends
          cases hdata.symm.trans hd
          obtain ⟨w, a, rfl⟩ := loadSegments_frame h
          simp [copyData_eq]
        · simpa [copyData_eq] using ih h hs

end Segments

/-! ## What thread creation does to the state -/

section Spec

variable (interruptContextSize : Nat) (k : Kernel)

/-- `new_kernel_thread` writes the new thread's `Context`, puts the thread in a new box at the back
of the queue, and returns TID `0`. -/
theorem newKernelThread_eq (function kernelStack userStack rflags : Nat) :
    k.newKernelThread interruptContextSize function kernelStack userStack rflags =
      let t := Thread.kernel interruptContextSize kernelStack userStack
      (⟨k.runningQueue ++ [k.nextBox], k.currentThread, Function.update k.threads k.nextBox t,
        k.nextBox + 1, k.activePageTable, k.timerStack,
        Function.update k.contexts t.context { k.contexts t.context with
          rip := function, rflags, cs := 8, rsp := userStack + userStackSize },
        k.writes, k.allocations⟩, 0) :=
  rfl

/-- The end of `new_user_thread` writes the new thread's `Context`, maps its user stack, puts the
thread in a new box at the back of the queue, and returns TID `0`. -/
theorem enqueueUserThread_eq (r : UserThreadResources) (entryPoint : Nat) :
    k.enqueueUserThread interruptContextSize r entryPoint =
      let t := Thread.user interruptContextSize r
      (⟨k.runningQueue ++ [k.nextBox], k.currentThread, Function.update k.threads k.nextBox t,
        k.nextBox + 1, k.activePageTable, k.timerStack,
        Function.update k.contexts t.context { k.contexts t.context with
          rip := entryPoint, rflags := 0x0200, cs := r.codeSelector, ss := r.dataSelector,
          rsp := userStackStart + userStackSize },
        k.writes, k.allocations ++ [(r.userPageTable, userStackStart, userStackSize)]⟩, 0) := by
  simp [enqueueUserThread, setContext, allocatePages, pushBack, Function.update_idem, Thread.user]

@[simp]
theorem enqueueUserThread_snd (r : UserThreadResources) (entryPoint : Nat) :
    (k.enqueueUserThread interruptContextSize r entryPoint).2 = 0 :=
  rfl

variable {interruptContextSize k} {parse : List UInt8 → Option ElfFile} {bin : List UInt8}
  {r : UserThreadResources}

/-- `bin[0..4]` panics on a binary shorter than four bytes. -/
theorem newUserThread_of_length_lt (h : bin.length < 4) :
    k.newUserThread interruptContextSize parse bin r =
      .error ("range end index 4 out of range for slice of length " ++ toString bin.length) := by
  simp [newUserThread, h]

/-- On a binary of at least four bytes `new_user_thread` panics only in `VirtAddr::new`, at a
readable segment of the parsed object whose address is not canonical. -/
theorem newUserThread_eq_error {e : String} (hlen : 4 ≤ bin.length)
    (h : k.newUserThread interruptContextSize parse bin r = .error e) :
    e = "virtual address must be sign extended in bits 48 to 64" ∧ ∃ obj, parse bin = some obj ∧
      ∃ s ∈ obj.segments, s.data.isSome ∧ isCanonical s.address = false := by
  unfold newUserThread at h
  rw [if_neg (Nat.not_lt.mpr hlen)] at h
  split at h
  · cases h
  split at h
  · cases h
  rename_i obj hp
  split at h
  · rename_i e' hl
    cases h
    exact ⟨(loadSegments_eq_error hl).1, obj, hp, (loadSegments_eq_error hl).2⟩
  all_goals cases h

/-- `new_user_thread` returns `Ok` exactly when the magic matches, the `object` crate parses the
binary, and the segment loop finishes, which it does exactly when every segment's data is readable
and every segment address canonical (`loadSegments_finishes_iff`). It then returns TID `0`, after
loading every segment into the new page table, switching back, and queueing the new thread. -/
theorem newUserThread_eq_ok_ok_iff {tid : Nat} {k' : Kernel} :
    k.newUserThread interruptContextSize parse bin r = .ok (.ok tid, k') ↔
      4 ≤ bin.length ∧ bin.take 4 = elfMagic ∧ ∃ obj k₁, parse bin = some obj ∧
        (k.switchToPagetable r.userPageTable).loadSegments r.userPageTable obj.segments =
          .ok (k₁, true) ∧ tid = 0 ∧
        k' = ((k₁.switchToPagetable k.activePageTable).enqueueUserThread
          interruptContextSize r obj.entry).1 := by
  unfold newUserThread
  by_cases hlen : bin.length < 4
  · rw [if_pos hlen]
    exact ⟨nofun, fun h => absurd h.1 (Nat.not_le.mpr hlen)⟩
  by_cases hmagic : bin.take 4 = elfMagic
  · cases hp : parse bin with
    | none => simp [hlen, hmagic, hp]
    | some obj =>
      rcases hl : (k.switchToPagetable r.userPageTable).loadSegments r.userPageTable obj.segments
        with e | ⟨k₁, _ | _⟩ <;> simp [hlen, Nat.le_of_not_lt hlen, hmagic, hl, eq_comm]
  · rw [if_neg hlen, if_pos hmagic]
    exact ⟨nofun, fun h => absurd h.2.1 hmagic⟩

/-- A call that returns `Ok` has appended exactly the new thread, box `k.nextBox`, to the queue,
and left `CURRENT_THREAD`, the page table and every existing thread as they were. -/
theorem newUserThread_ok {tid : Nat} {k' : Kernel}
    (h : k.newUserThread interruptContextSize parse bin r = .ok (.ok tid, k')) :
    k'.runningQueue = k.runningQueue ++ [k.nextBox] ∧ k'.currentThread = k.currentThread ∧
      k'.activePageTable = k.activePageTable ∧
      k'.threads = Function.update k.threads k.nextBox (Thread.user interruptContextSize r) ∧
      k'.nextBox = k.nextBox + 1 := by
  obtain ⟨-, -, obj, k₁, -, hl, -, rfl⟩ := newUserThread_eq_ok_ok_iff.mp h
  obtain ⟨w, a, rfl⟩ := loadSegments_frame hl
  simp [enqueueUserThread_eq]

/-- A call that returns `Err` has left the queue, `CURRENT_THREAD`, the page table and every
thread as they were. -/
theorem newUserThread_err {e : String} {k' : Kernel}
    (h : k.newUserThread interruptContextSize parse bin r = .ok (.error e, k')) :
    k'.runningQueue = k.runningQueue ∧ k'.currentThread = k.currentThread ∧
      k'.activePageTable = k.activePageTable ∧ k'.threads = k.threads ∧
      k'.nextBox = k.nextBox := by
  unfold newUserThread at h
  split at h
  · cases h
  split at h
  · cases h; simp
  split at h
  · cases h; simp
  split at h
  · cases h
  · rename_i k₁ hl
    obtain ⟨w, a, rfl⟩ := loadSegments_frame hl
    cases h
    simp
  · cases h

end Spec

/-- A binary holding only the first three bytes of the ELF magic makes `bin[0..4]` panic,
whatever the rest of the state. -/
theorem newUserThread_truncated_magic_panics (interruptContextSize : Nat)
    (parse : List UInt8 → Option ElfFile) (k : Kernel) (r : UserThreadResources) :
    k.newUserThread interruptContextSize parse [0x7f, 0x45, 0x4c] r =
      .error "range end index 4 out of range for slice of length 3" := by
  rw [newUserThread_of_length_lt (by decide)]
  rfl

/-- `new_user_thread` loads a segment wherever its address lies, as long as `VirtAddr::new` accepts
it. Every binary it accepts has each byte of each segment stored at that byte's own address under
the new page table, and for every canonical address, a binary whose parsed object has one readable
segment there returns `Ok`. -/
theorem newUserThread_loads_segment_anywhere (interruptContextSize : Nat) (k : Kernel)
    (r : UserThreadResources) :
    (∀ parse bin tid k', k.newUserThread interruptContextSize parse bin r = .ok (.ok tid, k') →
      ∀ obj, parse bin = some obj → ∀ s ∈ obj.segments, ∀ data, s.data = some data →
        copyWrites r.userPageTable s.address data ⊆ k'.writes) ∧
    (∀ entry address (value : UInt8), isCanonical address →
      ∃ k', k.newUserThread interruptContextSize
          (fun _ => some ⟨entry, [⟨address, some [value]⟩]⟩) elfMagic r = .ok (.ok 0, k') ∧
        (r.userPageTable, address, value) ∈ k'.writes) := by
  refine ⟨fun parse bin tid k' h obj hp s hs data hdata => ?_, fun entry address value hA => ?_⟩
  · obtain ⟨-, -, obj', k₁, hp', hl, -, rfl⟩ := newUserThread_eq_ok_ok_iff.mp h
    cases hp.symm.trans hp'
    have hsub := copyWrites_subset_loadSegments hl hs hdata
    simp only [switchToPagetable_activePageTable] at hsub
    simpa [enqueueUserThread_eq] using hsub
  · refine ⟨_, newUserThread_eq_ok_ok_iff.mpr ⟨by decide, rfl, _,
      ((k.switchToPagetable r.userPageTable).allocatePages r.userPageTable address 1).copyData
        address [value], rfl, by simp [loadSegments, virtAddrNew, hA], rfl, rfl⟩, ?_⟩
    simp [enqueueUserThread_eq, copyData_eq, copyWrites]

/-- A one-byte segment at the canonical address `0x444444440000`: `new_user_thread` returns `Ok`
and stores the byte there under the new page table, whatever that address maps to. -/
theorem newUserThread_loads_segment_anywhere_heap_address :
    let parse : List UInt8 → Option ElfFile :=
      fun _ => some ⟨0x400000, [⟨0x444444440000, some [0x90]⟩]⟩
    (∀ tid k', (boot 1 0).newUserThread 160 parse elfMagic ⟨5, 0x50000, 0x23, 0x1b⟩ =
        .ok (.ok tid, k') →
      copyWrites 5 0x444444440000 [0x90] ⊆ k'.writes) ∧
    (isCanonical 0x444444440000 ∧ ∃ k', (boot 1 0).newUserThread 160
        (fun _ => some ⟨0x400000, [⟨0x444444440000, some [0x90]⟩]⟩) elfMagic
        ⟨5, 0x50000, 0x23, 0x1b⟩ = .ok (.ok 0, k') ∧
      (5, 0x444444440000, (0x90 : UInt8)) ∈ k'.writes) :=
  ⟨fun tid k' h => (newUserThread_loads_segment_anywhere 160 (boot 1 0) ⟨5, 0x50000, 0x23, 0x1b⟩).1
      _ _ tid k' h _ rfl _ (List.mem_singleton_self _) _ rfl,
    by decide, (newUserThread_loads_segment_anywhere 160 (boot 1 0) ⟨5, 0x50000, 0x23, 0x1b⟩).2
      0x400000 0x444444440000 0x90 (by decide)⟩

end Kernel

end Euralios.Process
