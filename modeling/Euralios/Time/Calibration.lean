import Euralios.Time.Reader

/-!
# The calibration `TSC_PER_PIT` along runs of the interrupt handler

Each `pit_interrupt_notify` computes the instantaneous estimate
`(new_tsc - last_tsc) / PIT_TICKS_PER_INTERRUPT` of TSC ticks per PIT tick and stores the mean
of it and the old `TSC_PER_PIT`, rounded down. A mean never exceeds the larger of its two terms,
so `TSC_PER_PIT` never exceeds the largest estimate seen so far, nor its start value. The TSC is a
`u64`, so an estimate is below `2 ^ 64 / 2 ^ 16 = 2 ^ 48`, and the sum the handler forms before
halving stays far below `2 ^ 64`.

* `tscPerPit_pitInterrupts_le`: along any run with a non-decreasing `u64` TSC, starting from
  `TSC_PER_PIT < 2 ^ 48`, every interrupt returns and `TSC_PER_PIT` stays at most the larger of
  its start value and the largest estimate, and below `2 ^ 48`.
* `tscPerPit_le_max_estimate`: from `LAST_TSC = TSC_PER_PIT = 0`, after every interrupt of such a
  run `TSC_PER_PIT` is at most the largest estimate so far and below `2 ^ 48`, and the sum of the
  next interrupt is below `2 ^ 64`.
* `tscPerPit_converges_to_band`: while every estimate lies in a band `[lo, hi]`, each interrupt
  halves the distance from `TSC_PER_PIT` to the band. From boot the first estimate is the whole
  TSC count since reset divided by `65536`, far above the steady rate, and this is how fast the
  average forgets it.
-/

namespace Euralios.Time

/-- The instantaneous estimates of TSC ticks per PIT tick of interrupts at the TSC readings `ts`,
the first one made against `LAST_TSC = last`. -/
def estimates (last : Nat) : List Nat → List Nat
  | [] => []
  | t :: ts => (t - last) / pitTicksPerInterrupt :: estimates t ts

/-- The largest of those estimates, `0` for none. -/
def maxEstimate (last : Nat) (ts : List Nat) : Nat :=
  (estimates last ts).foldr max 0

@[simp]
theorem maxEstimate_nil (last : Nat) : maxEstimate last [] = 0 := rfl

@[simp]
theorem maxEstimate_cons (last t : Nat) (ts : List Nat) :
    maxEstimate last (t :: ts) = max ((t - last) / pitTicksPerInterrupt) (maxEstimate t ts) :=
  rfl

/-- An estimate made at a `u64` TSC reading is below `2 ^ 48`. -/
theorem estimate_lt (last : Nat) {t : Nat} (ht : t < 2 ^ 64) :
    (t - last) / pitTicksPerInterrupt < 2 ^ 48 := by
  unfold pitTicksPerInterrupt
  omega

/-- One interrupt at a TSC reading no earlier than `LAST_TSC` returns, and the new `TSC_PER_PIT`
is at most the larger of the old one and the interrupt's estimate. -/
theorem pitInterruptNotify_bounded {c : Clock} {t : Nat} (hle : c.lastTsc ≤ t)
    (ht : t < 2 ^ 64) (hc : c.tscPerPit < 2 ^ 48) :
    ∃ c', pitInterruptNotify c t = .ok c' ∧ c'.lastTsc = t ∧
      c'.tscPerPit ≤ max c.tscPerPit ((t - c.lastTsc) / pitTicksPerInterrupt) := by
  have he := estimate_lt c.lastTsc ht
  refine ⟨_, pitInterruptNotify_eq_ok.mpr ⟨hle, by omega, rfl⟩, rfl, ?_⟩
  show (_ + _) / 2 ≤ _
  omega

/-- Along a run whose TSC readings do not decrease and fit in a `u64`, from a `TSC_PER_PIT` below
`2 ^ 48`, every interrupt returns, and `TSC_PER_PIT` stays at most the larger of its start value
and the largest estimate of the run, and below `2 ^ 48`. -/
theorem tscPerPit_pitInterrupts_le {c : Clock} {ts : List Nat}
    (hmono : ts.Chain (· ≤ ·) c.lastTsc) (hu64 : ∀ t ∈ ts, t < 2 ^ 64)
    (hc : c.tscPerPit < 2 ^ 48) :
    ∃ c', pitInterrupts c ts = .ok c' ∧
      c'.tscPerPit ≤ max c.tscPerPit (maxEstimate c.lastTsc ts) ∧ c'.tscPerPit < 2 ^ 48 := by
  induction ts generalizing c with
  | nil => exact ⟨c, rfl, by simp, hc⟩
  | cons t ts ih =>
    rw [List.chain_cons] at hmono
    have ht := hu64 t (List.mem_cons_self t ts)
    obtain ⟨c₁, h₁, hlast, hle₁⟩ := pitInterruptNotify_bounded hmono.1 ht hc
    have he := estimate_lt c.lastTsc ht
    obtain ⟨c', h', hle', hlt'⟩ := ih (hlast ▸ hmono.2)
      (fun s hs => hu64 s (List.mem_cons_of_mem t hs)) (by omega)
    refine ⟨c', pitInterrupts_cons_eq_ok.mpr ⟨c₁, h₁, h'⟩, ?_, hlt'⟩
    rw [hlast] at hle'
    calc c'.tscPerPit ≤ max c₁.tscPerPit (maxEstimate t ts) := hle'
      _ ≤ max (max c.tscPerPit ((t - c.lastTsc) / pitTicksPerInterrupt)) (maxEstimate t ts) :=
        Nat.max_le.mpr ⟨hle₁.trans (Nat.le_max_left _ _), Nat.le_max_right _ _⟩
      _ = max c.tscPerPit (maxEstimate c.lastTsc (t :: ts)) := by
        rw [maxEstimate_cons, Nat.max_assoc]

/-- Start from `LAST_TSC = 0` and `TSC_PER_PIT = 0` and run `pit_interrupt_notify` at TSC
readings `ts` that never decrease (each a `u64`). After every interrupt, that is after every
prefix `pre` of the run, the handler has returned each time, `TSC_PER_PIT` is at most the largest
instantaneous estimate `(new_tsc - last_tsc) / 65536` of `pre`, and below `2 ^ 48`; and the sum
`new_tsc_per_pit + TSC_PER_PIT` that the next interrupt forms is below `2 ^ 64`. -/
theorem tscPerPit_le_max_estimate (c : Clock) (hlast : c.lastTsc = 0) (hrate : c.tscPerPit = 0)
    (ts : List Nat) (hmono : ts.Chain' (· ≤ ·)) (hu64 : ∀ t ∈ ts, t < 2 ^ 64) :
    ∀ pre post, ts = pre ++ post → ∃ c', pitInterrupts c pre = .ok c' ∧
      c'.tscPerPit ≤ maxEstimate 0 pre ∧ c'.tscPerPit < 2 ^ 48 ∧
      ∀ t rest, post = t :: rest →
        (t - c'.lastTsc) / pitTicksPerInterrupt + c'.tscPerPit < 2 ^ 64 := by
  rintro pre post rfl
  -- the readings of `pre`, after the boot value `0` of `LAST_TSC`, never decrease
  have hchain : ((0 :: pre) ++ post).Chain' (· ≤ ·) := hmono.cons' fun _ _ => Nat.zero_le _
  obtain ⟨c', hc', hle, hlt⟩ := tscPerPit_pitInterrupts_le (hlast ▸ hchain.left_of_append)
    (fun t ht => hu64 t (List.mem_append_left post ht)) (by omega)
  refine ⟨c', hc', by simpa [hlast, hrate] using hle, hlt, fun t rest hpost => ?_⟩
  have he := estimate_lt c'.lastTsc (hu64 t (by simp [hpost]))
  omega

/-- Two interrupts from boot, one PIT period and then ten million TSC ticks apart. -/
theorem tscPerPit_le_max_estimate_from_boot :
    (Clock.boot.lastTsc = 0 ∧ Clock.boot.tscPerPit = 0 ∧
      [131072, 10131072].Chain' (· ≤ ·) ∧ ∀ t ∈ [131072, 10131072], t < 2 ^ 64) ∧
    ∀ pre post, [131072, 10131072] = pre ++ post → ∃ c', pitInterrupts Clock.boot pre = .ok c' ∧
      c'.tscPerPit ≤ maxEstimate 0 pre ∧ c'.tscPerPit < 2 ^ 48 ∧
      ∀ t rest, post = t :: rest →
        (t - c'.lastTsc) / pitTicksPerInterrupt + c'.tscPerPit < 2 ^ 64 :=
  ⟨⟨rfl, rfl, by simp, by decide⟩,
    tscPerPit_le_max_estimate Clock.boot rfl rfl _ (by simp) (by decide)⟩

/-! ## Convergence to the band of the estimates -/

/-- Rounding up a halving and then a division by `2 ^ n` rounds up the division by
`2 ^ (n + 1)`. -/
theorem ceil_half_div_two_pow (d n : Nat) :
    ((d + 1) / 2 + 2 ^ n - 1) / 2 ^ n = (d + 2 ^ (n + 1) - 1) / 2 ^ (n + 1) := by
  have hpos : 0 < 2 ^ n := Nat.two_pow_pos n
  have h : d + 2 ^ (n + 1) - 1 = d + 1 + 2 * (2 ^ n - 1) := by rw [Nat.pow_succ]; omega
  rw [h, Nat.pow_succ, Nat.mul_comm (2 ^ n) 2, ← Nat.div_div_eq_div_mul,
    Nat.add_mul_div_left _ _ (by decide : 0 < 2)]
  congr 1
  omega

/-- An interrupt whose estimate is at most `hi` halves the excess of `TSC_PER_PIT` over `hi`,
rounding down, and one whose estimate is at least `lo` halves its deficit below `lo`, rounding
up. -/
theorem tscPerPit_band_step {c c' : Clock} {t lo hi : Nat} (h : pitInterruptNotify c t = .ok c')
    (hlo : lo ≤ (t - c.lastTsc) / pitTicksPerInterrupt)
    (hhi : (t - c.lastTsc) / pitTicksPerInterrupt ≤ hi) :
    c'.tscPerPit - hi ≤ (c.tscPerPit - hi) / 2 ∧
      lo - c'.tscPerPit ≤ (lo - c.tscPerPit + 1) / 2 := by
  obtain ⟨-, -, rfl⟩ := pitInterruptNotify_eq_ok.mp h
  dsimp only
  omega

/-- Along any run of the interrupt handler whose instantaneous estimates
`(new_tsc - last_tsc) / 65536` all lie in `[lo, hi]`, every interrupt halves the distance from
`TSC_PER_PIT` to that band: after the run's `m` interrupts its excess over `hi` is at most the
initial excess divided by `2 ^ m`, rounded down, and its deficit below `lo` at most the initial
deficit divided by `2 ^ m`, rounded up. So the moving average reaches `[lo - 1, hi]` after about
`log₂` of its initial distance interrupts, and once there never leaves it. -/
theorem tscPerPit_converges_to_band {c c' : Clock} {ts : List Nat} {lo hi : Nat}
    (hrun : pitInterrupts c ts = .ok c') (hband : ∀ e ∈ estimates c.lastTsc ts, lo ≤ e ∧ e ≤ hi) :
    c'.tscPerPit - hi ≤ (c.tscPerPit - hi) / 2 ^ ts.length ∧
      lo - c'.tscPerPit ≤ (lo - c.tscPerPit + 2 ^ ts.length - 1) / 2 ^ ts.length := by
  induction ts generalizing c with
  | nil => cases hrun; simp
  | cons t ts ih =>
    obtain ⟨c₁, h₁, hrest⟩ := pitInterrupts_cons_eq_ok.mp hrun
    obtain ⟨-, -, rfl⟩ := pitInterruptNotify_eq_ok.mp h₁
    simp only [estimates, List.mem_cons, forall_eq_or_imp] at hband
    obtain ⟨hup, hdown⟩ := tscPerPit_band_step h₁ hband.1.1 hband.1.2
    obtain ⟨ih₁, ih₂⟩ := ih hrest hband.2
    rw [List.length_cons]
    constructor
    · calc _ ≤ (_ - hi) / 2 ^ ts.length := ih₁
        _ ≤ (c.tscPerPit - hi) / 2 / 2 ^ ts.length := Nat.div_le_div_right hup
        _ = (c.tscPerPit - hi) / 2 ^ (ts.length + 1) := by
          rw [Nat.div_div_eq_div_mul, Nat.pow_succ, Nat.mul_comm]
    · calc _ ≤ (lo - _ + 2 ^ ts.length - 1) / 2 ^ ts.length := ih₂
        _ ≤ ((lo - c.tscPerPit + 1) / 2 + 2 ^ ts.length - 1) / 2 ^ ts.length :=
          Nat.div_le_div_right (by omega)
        _ = (lo - c.tscPerPit + 2 ^ (ts.length + 1) - 1) / 2 ^ (ts.length + 1) :=
          ceil_half_div_two_pow _ _

/-- From an average of `100`, two interrupts ten PIT periods of TSC ticks apart: the average
falls to `55` and then to `32`, exactly `10 + 90 / 4`. -/
theorem tscPerPit_converges_to_band_steady :
    (pitInterrupts ⟨0, 0, 100⟩ [655360, 1310720] = .ok ⟨131072, 1310720, 32⟩ ∧
      ∀ e ∈ estimates 0 [655360, 1310720], 10 ≤ e ∧ e ≤ 10) ∧
    (32 - 10 ≤ (100 - 10) / 2 ^ [655360, 1310720].length ∧
      10 - 32 ≤ (10 - 100 + 2 ^ [655360, 1310720].length - 1) / 2 ^ [655360, 1310720].length) :=
  ⟨⟨rfl, by decide⟩, @tscPerPit_converges_to_band ⟨0, 0, 100⟩ ⟨131072, 1310720, 32⟩
    [655360, 1310720] 10 10 rfl (by decide)⟩

end Euralios.Time
