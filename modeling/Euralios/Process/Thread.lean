import Mathlib.Logic.Function.Basic
import Mathlib.Tactic.Simps.Basic

/-!
# Threads and the kernel state of `src/process.rs`

`process.rs` owns two globals, `RUNNING_QUEUE : VecDeque<Box<Thread>>` and
`CURRENT_THREAD : Option<Box<Thread>>`, and changes machine state through other kernel modules:
the page table in CR3 (`memory::switch_to_pagetable`), the timer's Interrupt Stack Table entry
(`gdt::set_interrupt_stack_table`), the `Context` frames on kernel stacks, and user memory.

A `Box<Thread>` is named by a number: `Box::new` hands out `Kernel.nextBox`, and
`Kernel.threads` holds what each box contains. The queue and the current-thread slot hold boxes,
so that a thread keeps its identity while `schedule_next` moves it and rewrites its fields.
Addresses are natural numbers; where a buffer lies in memory is an input that the allocator
chooses.

This module defines the state and the primitive operations every later module is built from:
`switchToPagetable`, `allocatePages`, `write`, `setContext` and `pushBack`, each with its field
lemmas generated by `simps`, and `roundRobin`, the queue followed by the current thread.
-/

namespace Euralios.Process

/-- Size of the kernel stack for each process, in bytes: `KERNEL_STACK_SIZE`. -/
def kernelStackSize : Nat := 4096 * 2

/-- Size of the user stack for each user process, in bytes: `USER_STACK_SIZE`. -/
def userStackSize : Nat := 4096 * 5

/-- Where `new_user_thread` maps the user stack: `USER_STACK_START`. -/
def userStackStart : Nat := 0x5200000

/-- The registers of an `interrupts::Context` frame that thread creation sets. -/
structure Context where
  /-- The instruction pointer: the thread function or the ELF entry point. -/
  rip : Nat
  /-- The flags register. -/
  rflags : Nat
  /-- The code segment selector. -/
  cs : Nat
  /-- The stack segment selector. -/
  ss : Nat
  /-- The stack pointer: the end of the user stack. -/
  rsp : Nat
  deriving DecidableEq, Repr, Inhabited

/-- Per-thread state, `struct Thread`. -/
structure Thread where
  /-- Thread ID. -/
  tid : Nat
  /-- Page table physical address; `0` means the thread does not switch page tables. -/
  pageTablePhysaddr : Nat
  /-- Start address of the `kernel_stack` buffer. -/
  kernelStack : Nat
  /-- Address of the end of the kernel stack, the value put in the Interrupt Stack Table. -/
  kernelStackEnd : Nat
  /-- Address within the kernel stack of the `Context` holding the thread's state. -/
  context : Nat
  /-- Start address of the `user_stack` buffer of a kernel thread; `none` for the empty `Vec` of
  a user thread, whose stack is mapped in its own page table. -/
  userStack : Option Nat
  deriving DecidableEq, Repr, Inhabited

/-- The state `process.rs` reads and writes. -/
structure Kernel where
  /-- `RUNNING_QUEUE`: the boxes of the threads that can run, front first. -/
  runningQueue : List Nat
  /-- `CURRENT_THREAD`. -/
  currentThread : Option Nat
  /-- The contents of each `Box<Thread>`. -/
  threads : Nat → Thread
  /-- The box `Box::new` returns next; the boxes below it have been allocated. -/
  nextBox : Nat
  /-- The page table in CR3, as `memory::active_pagetable_physaddr` returns it. -/
  activePageTable : Nat
  /-- The Interrupt Stack Table entry `gdt::TIMER_INTERRUPT_INDEX`. -/
  timerStack : Nat
  /-- The `Context` frames in kernel-stack memory, by address. -/
  contexts : Nat → Context
  /-- Every byte stored through a raw pointer: the page table active at the time, the address
  and the byte. -/
  writes : List (Nat × Nat × UInt8)
  /-- Every `memory::allocate_pages` call: page table, start address and size in bytes. -/
  allocations : List (Nat × Nat × Nat)

namespace Kernel

/-- The state at boot, before any thread exists: CR3 holds the boot page table and the timer
IST entry the stack `gdt` set up. -/
def boot (pageTable timerStack : Nat) : Kernel where
  runningQueue := []
  currentThread := none
  threads := fun _ => default
  nextBox := 0
  activePageTable := pageTable
  timerStack := timerStack
  contexts := fun _ => default
  writes := []
  allocations := []

/-- `memory::switch_to_pagetable(physaddr)`. -/
@[simps]
def switchToPagetable (k : Kernel) (physaddr : Nat) : Kernel :=
  { k with activePageTable := physaddr }

/-- `memory::allocate_pages(table, start, size, PRESENT | WRITABLE | USER_ACCESSIBLE)`. -/
@[simps]
def allocatePages (k : Kernel) (table start size : Nat) : Kernel :=
  { k with allocations := k.allocations ++ [(table, start, size)] }

/-- `core::ptr::write(address, value)`, translated by the active page table. -/
@[simps]
def write (k : Kernel) (address : Nat) (value : UInt8) : Kernel :=
  { k with writes := k.writes ++ [(k.activePageTable, address, value)] }

/-- Stores through the `&mut Context` cast from `address`. -/
@[simps]
def setContext (k : Kernel) (address : Nat) (f : Context → Context) : Kernel :=
  { k with contexts := Function.update k.contexts address (f (k.contexts address)) }

/-- `RUNNING_QUEUE.write().push_back(new_thread)` for a thread just put in a new box. -/
@[simps]
def pushBack (k : Kernel) (thread : Thread) : Kernel :=
  { k with
    threads := Function.update k.threads k.nextBox thread
    nextBox := k.nextBox + 1
    runningQueue := k.runningQueue ++ [k.nextBox] }

/-! `simps` states the function-valued fields applied to an argument; these state them whole. -/

@[simp] theorem switchToPagetable_threads' (k : Kernel) (p : Nat) :
    (k.switchToPagetable p).threads = k.threads := rfl

@[simp] theorem switchToPagetable_contexts' (k : Kernel) (p : Nat) :
    (k.switchToPagetable p).contexts = k.contexts := rfl

@[simp] theorem allocatePages_threads' (k : Kernel) (t s z : Nat) :
    (k.allocatePages t s z).threads = k.threads := rfl

@[simp] theorem allocatePages_contexts' (k : Kernel) (t s z : Nat) :
    (k.allocatePages t s z).contexts = k.contexts := rfl

@[simp] theorem write_threads' (k : Kernel) (a : Nat) (v : UInt8) :
    (k.write a v).threads = k.threads := rfl

@[simp] theorem write_contexts' (k : Kernel) (a : Nat) (v : UInt8) :
    (k.write a v).contexts = k.contexts := rfl

@[simp] theorem setContext_threads' (k : Kernel) (a : Nat) (f : Context → Context) :
    (k.setContext a f).threads = k.threads := rfl

@[simp] theorem pushBack_contexts' (k : Kernel) (t : Thread) :
    (k.pushBack t).contexts = k.contexts := rfl

/-- The threads in round-robin order: `RUNNING_QUEUE` followed by `CURRENT_THREAD`. -/
def roundRobin (k : Kernel) : List Nat :=
  k.runningQueue ++ k.currentThread.toList

@[simp]
theorem roundRobin_boot (pageTable timerStack : Nat) :
    (boot pageTable timerStack).roundRobin = [] :=
  rfl

@[simp]
theorem roundRobin_switchToPagetable (k : Kernel) (p : Nat) :
    (k.switchToPagetable p).roundRobin = k.roundRobin := rfl

@[simp]
theorem roundRobin_allocatePages (k : Kernel) (t s z : Nat) :
    (k.allocatePages t s z).roundRobin = k.roundRobin := rfl

@[simp]
theorem roundRobin_write (k : Kernel) (a : Nat) (v : UInt8) :
    (k.write a v).roundRobin = k.roundRobin := rfl

@[simp]
theorem roundRobin_setContext (k : Kernel) (a : Nat) (f : Context → Context) :
    (k.setContext a f).roundRobin = k.roundRobin := rfl

/-- A new thread joins the round-robin order right before the current thread. -/
theorem roundRobin_pushBack (k : Kernel) (t : Thread) :
    (k.pushBack t).roundRobin = k.runningQueue ++ k.nextBox :: k.currentThread.toList := by
  simp [roundRobin]

end Kernel

end Euralios.Process
