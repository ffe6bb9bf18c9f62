import Euralios.Time.Clock
import Mathlib.Data.List.Chain

/-!
# Reads interleaved with PIT interrupts

`microseconds_monotonic` makes four accesses to the counters, in this order: it loads
`PIT_TICKS`, samples the TSC, loads `LAST_TSC` (and subtracts it from the sample), and loads
`TSC_PER_PIT`. The PIT interrupt handler can run between any two of them. `interleavedCall` runs a
call with the interrupts `ts₁` after its first access, `ts₂` after its second and `ts₃` after its
third, each interrupt given by the TSC reading at which it runs. Interrupts before the first access
only change the counters the call starts from, and those after the last one do not change its
result.

* `lastTsc_pitInterrupts_gt_iff`: with the TSC never going back, `LAST_TSC` has moved past a TSC
  sample exactly when one of the interrupts after the sample ran at a later reading.
* `interleavedCall_underflows_iff`: the subtraction panics exactly when an interrupt with a later
  TSC reading runs between the sample and the `LAST_TSC` load.
* `interleavedCall_underflows_or_falls_behind`: such an interrupt makes the call panic, and one
  between the `PIT_TICKS` load and the sample makes it return less than the uninterrupted calls
  just before and just after it.
-/

namespace Euralios.Time

/-- `pit_interrupt_notify` at each TSC reading of `ts`, one after another. -/
def pitInterrupts (c : Clock) : List Nat → Except String Clock
  | [] => .ok c
  | t :: ts => do pitInterrupts (← pitInterruptNotify c t) ts

/-- A call of `microseconds_monotonic` on the counters `c`, with the interrupts `ts₁` between its
load of `PIT_TICKS` and its TSC sample `t`, the interrupts `ts₂` between the sample and its load of
`LAST_TSC`, and the interrupts `ts₃` between that load and its load of `TSC_PER_PIT`. -/
def interleavedCall (c : Clock) (ts₁ : List Nat) (t : Nat) (ts₂ ts₃ : List Nat) :
    Except String Nat := do
  let pit := c.pitTicks
  let c₁ ← pitInterrupts c ts₁
  let c₂ ← pitInterrupts c₁ ts₂
  let tsc ← u64Sub t c₂.lastTsc
  let c₃ ← pitInterrupts c₂ ts₃
  scaledMicroseconds pit tsc c₃.tscPerPit

/-- With no interrupt between its accesses, a call is `microseconds_monotonic` on the counters. -/
theorem interleavedCall_nil (c : Clock) (t : Nat) :
    interleavedCall c [] t [] [] = microsecondsMonotonic c t := rfl

/-! ## Runs of the interrupt handler -/

section Interrupts

variable {c c' : Clock} {ts : List Nat}

theorem pitInterrupts_append (c : Clock) (ts ts' : List Nat) :
    pitInterrupts c (ts ++ ts') = pitInterrupts c ts >>= fun c' => pitInterrupts c' ts' := by
  induction ts generalizing c with
  | nil => rfl
  | cons t ts ih =>
    simp only [List.cons_append, pitInterrupts]
    cases pitInterruptNotify c t with
    | error e => rfl
    | ok c₁ => exact ih c₁

theorem pitInterrupts_cons_eq_ok {t : Nat} :
    pitInterrupts c (t :: ts) = .ok c' ↔
      ∃ c₁, pitInterruptNotify c t = .ok c₁ ∧ pitInterrupts c₁ ts = .ok c' := by
  simp [pitInterrupts]

/-- Each interrupt adds one PIT period to `PIT_TICKS`, wrapping at `2 ^ 64`. -/
theorem pitTicks_pitInterrupts (hc : pitInterrupts c ts = .ok c') :
    c'.pitTicks % 2 ^ 64 = (c.pitTicks + ts.length * pitTicksPerInterrupt) % 2 ^ 64 := by
  induction ts generalizing c with
  | nil => cases hc; simp
  | cons t ts ih =>
    obtain ⟨c₁, h₁, hc⟩ := pitInterrupts_cons_eq_ok.mp hc
    obtain ⟨-, -, rfl⟩ := pitInterruptNotify_eq_ok.mp h₁
    rw [ih hc, Nat.mod_add_mod, List.length_cons, Nat.succ_mul, Nat.add_assoc,
      Nat.add_comm pitTicksPerInterrupt]

/-- With the TSC never going back, `LAST_TSC` never goes back either. -/
theorem lastTsc_le_pitInterrupts (h : ts.Chain (· ≤ ·) c.lastTsc)
    (hc : pitInterrupts c ts = .ok c') : c.lastTsc ≤ c'.lastTsc := by
  induction ts generalizing c with
  | nil => cases hc; exact le_rfl
  | cons t ts ih =>
    obtain ⟨c₁, h₁, hc⟩ := pitInterrupts_cons_eq_ok.mp hc
    obtain ⟨-, -, rfl⟩ := pitInterruptNotify_eq_ok.mp h₁
    rw [List.chain_cons] at h
    exact h.1.trans (ih h.2 hc)

/-- With the TSC never going back, `LAST_TSC` after interrupts that all run before a TSC sample `t`
is at most `t`. -/
theorem lastTsc_pitInterrupts_le {t : Nat} (h : (ts ++ [t]).Chain (· ≤ ·) c.lastTsc)
    (hc : pitInterrupts c ts = .ok c') : c'.lastTsc ≤ t := by
  induction ts generalizing c with
  | nil => cases hc; simpa using h
  | cons s ts ih =>
    obtain ⟨c₁, h₁, hc⟩ := pitInterrupts_cons_eq_ok.mp hc
    obtain ⟨-, -, rfl⟩ := pitInterruptNotify_eq_ok.mp h₁
    rw [List.cons_append, List.chain_cons] at h
    exact ih h.2 hc

/-- With the TSC never going back, interrupts that run after a TSC sample `t` leave `LAST_TSC`
past `t` exactly when one of them ran at a reading later than `t`. -/
theorem lastTsc_pitInterrupts_gt_iff {t : Nat} (hle : c.lastTsc ≤ t) (h : ts.Chain (· ≤ ·) t)
    (hc : pitInterrupts c ts = .ok c') : t < c'.lastTsc ↔ ∃ s ∈ ts, t < s := by
  induction ts generalizing c with
  | nil => cases hc; simpa using hle
  | cons s ts ih =>
    obtain ⟨c₁, h₁, hc⟩ := pitInterrupts_cons_eq_ok.mp hc
    obtain ⟨-, -, rfl⟩ := pitInterruptNotify_eq_ok.mp h₁
    rw [List.chain_cons] at h
    rcases Nat.lt_or_ge t s with hts | hst
    · -- this interrupt already moved `LAST_TSC` past the sample
      exact iff_of_true (hts.trans_le (lastTsc_le_pitInterrupts h.2 hc)) ⟨s, by simp, hts⟩
    · -- it ran at the sample's reading: the question passes to the later ones
      obtain rfl : s = t := Nat.le_antisymm hst h.1
      simpa using ih le_rfl h.2 hc

end Interrupts

/-! ## The interleaved call -/

/-- The arithmetic after the subtraction never panics with the subtraction's message. -/
theorem scaledMicroseconds_ne_subtract (pit tsc tscPerPit : Nat) :
    scaledMicroseconds pit tsc tscPerPit ≠ .error "attempt to subtract with overflow" := by
  simp [scaledMicroseconds, pure, Except.pure]

/-- Take one `microseconds_monotonic` call interleaved with PIT interrupts, the TSC never going
back and every interrupt returning. Its subtraction `time_stamp_counter() - LAST_TSC` panics
exactly when an interrupt at a TSC reading later than the call's sample runs between the sample
and the load of `LAST_TSC`. -/
theorem interleavedCall_underflows_iff (c : Clock) (ts₁ : List Nat) (t : Nat)
    (ts₂ ts₃ : List Nat) (hmono : (ts₁ ++ t :: ts₂).Chain (· ≤ ·) c.lastTsc)
    (hint : ∃ c', pitInterrupts c (ts₁ ++ ts₂ ++ ts₃) = .ok c') :
    interleavedCall c ts₁ t ts₂ ts₃ = .error "attempt to subtract with overflow" ↔
      ∃ s ∈ ts₂, t < s := by
  obtain ⟨c', hc'⟩ := hint
  rw [pitInterrupts_append, pitInterrupts_append] at hc'
  obtain ⟨c₂, h₁₂, h₃⟩ := except_bind_eq_ok.mp hc'
  obtain ⟨c₁, h₁, h₂⟩ := except_bind_eq_ok.mp h₁₂
  rw [List.chain_split] at hmono
  have hle : c₁.lastTsc ≤ t := lastTsc_pitInterrupts_le hmono.1 h₁
  rw [← lastTsc_pitInterrupts_gt_iff hle hmono.2 h₂]
  simp [interleavedCall, h₁, h₂, h₃, scaledMicroseconds_ne_subtract]

/-- An interrupt at TSC `200001` between the sample `200000` and the `LAST_TSC` load. -/
theorem interleavedCall_underflows_iff_late_interrupt :
    (([] ++ 200000 :: [200001]).Chain (· ≤ ·) (Clock.lastTsc ⟨65536, 131072, 1⟩) ∧
      ∃ c', pitInterrupts ⟨65536, 131072, 1⟩ ([] ++ [200001] ++ []) = .ok c') ∧
    (interleavedCall ⟨65536, 131072, 1⟩ [] 200000 [200001] [] =
        .error "attempt to subtract with overflow" ↔ ∃ s ∈ [200001], 200000 < s) :=
  ⟨⟨by simp, _, rfl⟩, interleavedCall_underflows_iff _ [] 200000 [200001] [] (by simp) ⟨_, rfl⟩⟩

/-- Two interleavings that break the call. On a clock one PIT period in with `TSC_PER_PIT = 1`, an
interrupt at TSC `200001` between the sample `200000` and the `LAST_TSC` load makes the subtraction
panic. On a calibrated clock (`TSC_PER_PIT = 100`, so a period lasts `6553600` TSC ticks), an
interrupt between the `PIT_TICKS` load and the TSC sample makes the call return `54925`, half the
`109850` that uninterrupted calls return just before and just after it: the call pairs the old
`PIT_TICKS` with the new `LAST_TSC` and loses one PIT period. -/
theorem interleavedCall_underflows_or_falls_behind :
    interleavedCall ⟨65536, 131072, 1⟩ [] 200000 [200001] [] =
        .error "attempt to subtract with overflow" ∧
      microsecondsMonotonic ⟨65536, 6553600, 100⟩ 13107190 = .ok 109850 ∧
      interleavedCall ⟨65536, 6553600, 100⟩ [13107200] 13107200 [] [] = .ok 54925 ∧
      pitInterrupts ⟨65536, 6553600, 100⟩ [13107200] = .ok ⟨131072, 13107200, 100⟩ ∧
      microsecondsMonotonic ⟨131072, 13107200, 100⟩ 13107200 = .ok 109850 :=
  ⟨rfl, rfl, rfl, rfl, rfl⟩

end Euralios.Time
