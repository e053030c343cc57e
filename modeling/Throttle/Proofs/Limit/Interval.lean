import Throttle.Proofs.Limit.Order

/-!
# Whole tokens at whole intervals

One token every `d` is the rate nearest to the reciprocal of the rounded seconds of `d`. Four roundings
lie between an interval and the wait for some tokens at that rate. For waits of up to 10^15 nanoseconds
they move it by less than half a nanosecond, and the last one takes it back to the exact multiple of the
interval. Main statement: `nanos_timeToEarn_every`.
-/

set_option autoImplicit false

namespace Throttle
open Binary64

/-! ## The rate of an interval -/

theorem roundedSeconds_bounds {d : Duration} (h : d ≠ .zero) :
    2 ^ (-31 : ℤ) ≤ d.roundedSeconds ∧ d.roundedSeconds ≤ 2 ^ (65 : ℤ) := by
  have hnanos : 1 ≤ d.nanos := Duration.nanos_pos h
  have hexact : 1 / 1_000_000_000 ≤ d.exactSeconds :=
    div_le_div_of_nonneg_right (by exact_mod_cast hnanos) (by norm_num)
  have herror := (abs_le.1 (abs_roundedSeconds_sub_le d)).1
  have hsmall : 2 * (2 : ℚ) ^ (-53 : ℤ) + 2 ^ (-106 : ℤ) ≤ 1 / 10 := by norm_num
  have hscaled := mul_le_mul_of_nonneg_left hsmall d.exactSeconds_nonneg
  have hbound : (2 : ℚ) ^ (-31 : ℤ) ≤ 9 / 10 * (1 / 1_000_000_000) := by norm_num
  refine ⟨hbound.trans ?_, nearest_le_of_le (expressible_zpow (by omega)) d.rounded_parts_bounds.2⟩
  generalize 2 * (2 : ℚ) ^ (-53 : ℤ) + 2 ^ (-106 : ℤ) = error at *
  linarith

theorem reciprocal_bounds {d : Duration} (h : d ≠ .zero) :
    2 ^ (-65 : ℤ) ≤ 1 / d.roundedSeconds ∧ 1 / d.roundedSeconds ≤ 2 ^ (31 : ℤ) := by
  obtain ⟨hlow, hhigh⟩ := roundedSeconds_bounds h
  have hpos := (two_zpow_pos (-31)).trans_le hlow
  constructor
  · calc (2 : ℚ) ^ (-65 : ℤ) = 1 / 2 ^ (65 : ℤ) := by rw [zpow_neg, one_div]
      _ ≤ 1 / d.roundedSeconds := one_div_le_one_div_of_le hpos hhigh
  · calc 1 / d.roundedSeconds ≤ 1 / 2 ^ (-31 : ℤ) := one_div_le_one_div_of_le (two_zpow_pos _) hlow
      _ = 2 ^ (31 : ℤ) := by rw [zpow_neg, one_div, inv_inv]

theorem ofRate_of_denotes {x : Binary64} {q : ℚ} (hx : x.Denotes q) (hq : 0 ≤ q) :
    ∃ rate : Rate, rate.value = q ∧ Limit.ofRate x = .perSecond rate := by
  cases hx with
  | negZero => exact ⟨.zero, rfl, rfl⟩
  | finite q h => exact ⟨⟨q, h, hq⟩, rfl, dif_pos hq⟩

theorem every_eq_perSecond {d : Duration} (h : d ≠ .zero) :
    ∃ rate : Rate, Limit.every d = .perSecond rate ∧ rate.value = nearest (1 / d.roundedSeconds) ∧ 0 < rate.value := by
  obtain ⟨hlow, hhigh⟩ := reciprocal_bounds h
  have hseconds := (two_zpow_pos (-31)).trans_le (roundedSeconds_bounds h).1
  have hpos := (two_zpow_pos (-65)).trans_le (le_nearest_of_le (expressible_zpow (by omega)) hlow)
  have hfinite : |nearest (1 / d.roundedSeconds)| < 2 ^ (1024 : ℤ) := by
    rw [abs_of_pos hpos]
    exact (nearest_le_of_le (expressible_zpow (by omega)) hhigh).trans_lt (zpow_lt_zpow_right₀ one_lt_two (by omega))
  have hone := denotes_natCast (n := 1) (by omega)
  rw [Nat.cast_one] at hone
  obtain ⟨rate, hvalue, hrate⟩ := ofRate_of_denotes (hone.div d.denotes_toSeconds hseconds.ne' hfinite) hpos.le
  refine ⟨rate, ?_, hvalue, hvalue ▸ hpos⟩
  unfold Limit.every
  rw [if_neg h]
  exact hrate

/-- The error of the reciprocal, as one of the product of the rate and the rounded seconds. -/
theorem abs_rate_mul_roundedSeconds_sub_le {d : Duration} (h : d ≠ .zero) :
    |nearest (1 / d.roundedSeconds) * d.roundedSeconds - 1| ≤ 2 ^ (-53 : ℤ) := by
  have hpos := (two_zpow_pos (-31)).trans_le (roundedSeconds_bounds h).1
  have hlow := (reciprocal_bounds h).1
  have hreciprocal : 0 < 1 / d.roundedSeconds := one_div_pos.2 hpos
  have hnormal : (2 : ℚ) ^ (-1022 : ℤ) ≤ |1 / d.roundedSeconds| := by
    rw [abs_of_pos hreciprocal]
    exact (zpow_le_zpow_right₀ one_le_two (by omega)).trans hlow
  have hone : 1 / d.roundedSeconds * d.roundedSeconds = 1 := one_div_mul_cancel hpos.ne'
  have herror := abs_nearest_sub_le_of_normal hnormal
  rw [abs_of_pos hreciprocal] at herror
  calc |nearest (1 / d.roundedSeconds) * d.roundedSeconds - 1|
      = |nearest (1 / d.roundedSeconds) - 1 / d.roundedSeconds| * d.roundedSeconds := by
        rw [← abs_of_pos hpos, ← abs_mul, abs_of_pos hpos, sub_mul, hone]
    _ ≤ 1 / d.roundedSeconds * 2 ^ (-53 : ℤ) * d.roundedSeconds := mul_le_mul_of_nonneg_right herror hpos.le
    _ = 2 ^ (-53 : ℤ) := by rw [mul_right_comm, hone, one_mul]

/-- The rate earns a token in the interval, up to three roundings. -/
theorem abs_rate_mul_exactSeconds_sub_le {d : Duration} (h : d ≠ .zero) :
    |nearest (1 / d.roundedSeconds) * d.exactSeconds - 1| ≤ 31 / 10 * 2 ^ (-53 : ℤ) := by
  have hproduct := abs_rate_mul_roundedSeconds_sub_le h
  have hseconds := abs_roundedSeconds_sub_le d
  have hrate : 0 ≤ nearest (1 / d.roundedSeconds) :=
    nearest_nonneg ((two_zpow_pos _).le.trans (reciprocal_bounds h).1)
  have hearned := mul_nonneg hrate d.exactSeconds_nonneg
  have hu := roundoff_pos
  have hsmall := roundoff_le
  rw [roundoff_sq] at hseconds
  generalize (2 : ℚ) ^ (-53 : ℤ) = u at *
  generalize nearest (1 / d.roundedSeconds) = r at *
  have hgap : |r * d.roundedSeconds - r * d.exactSeconds| ≤ r * d.exactSeconds * (2 * u + u * u) := by
    rw [← mul_sub, abs_mul, abs_of_nonneg hrate, mul_assoc]
    exact mul_le_mul_of_nonneg_left hseconds hrate
  generalize r * d.exactSeconds = e at *
  rw [abs_le] at hproduct hgap ⊢
  have hfactor : 2 * u + u * u ≤ 2001 / 1000 * u := by nlinarith
  have hlarge := mul_le_mul_of_nonneg_left (show 2 * u + u * u ≤ 3 / 1000 by linarith) hearned
  have hbound := mul_le_mul (show e ≤ 101 / 100 by linarith) hfactor (by positivity) (by norm_num)
  constructor <;> linarith

/-! ## The wait for some tokens -/

theorem abs_div_sub_mul_le {n r s error : ℚ} (hn : 0 ≤ n) (hr : 0 < r) (h : |r * s - 1| ≤ error) :
    |n / r - n * s| ≤ n / r * error := by
  have hn' : 0 ≤ n / r := div_nonneg hn hr.le
  calc |n / r - n * s| = n / r * |r * s - 1| := by
        rw [← abs_of_nonneg hn', ← abs_mul, abs_of_nonneg hn', mul_sub, ← mul_assoc, div_mul_cancel₀ _ hr.ne', mul_one,
          abs_sub_comm]
    _ ≤ n / r * error := mul_le_mul_of_nonneg_left h hn'

theorem waitNanos_every {d : Duration} {rate : Rate} (h : d ≠ .zero)
    (hrate : rate.value = nearest (1 / d.roundedSeconds)) (hr : 0 < rate.value) {n : ℕ}
    (hn : n * d.nanos ≤ 10 ^ 15) : rate.waitNanos n = n * d.nanos := by
  -- the quotient is the exact number of seconds, up to what the rate is off by
  have hseconds := abs_div_sub_mul_le (Nat.cast_nonneg n) hr (hrate ▸ abs_rate_mul_exactSeconds_sub_le h)
  have hquotient := abs_nearest_sub_le (n / rate.value)
  have hexact : (n : ℚ) * d.exactSeconds = n * d.nanos / 1_000_000_000 := by
    unfold Duration.exactSeconds
    ring
  have hlimit : (n * d.nanos : ℚ) ≤ 10 ^ 15 := by exact_mod_cast hn
  have hu : (2 : ℚ) ^ (-53 : ℤ) = 1 / 9007199254740992 := by norm_num
  have htiny : (2 : ℚ) ^ (-1075 : ℤ) ≤ 1 / 10 ^ 15 := by
    calc (2 : ℚ) ^ (-1075 : ℤ) ≤ 2 ^ (-50 : ℤ) := zpow_le_zpow_right₀ one_le_two (by omega)
      _ ≤ 1 / 10 ^ 15 := by norm_num
  have hnearest : nearestInt (nearest (n / rate.value) * 1_000_000_000) = ((n * d.nanos : ℕ) : ℤ) := by
    apply nearestInt_eq_of_abs_sub_lt_half
    rw [hexact, hu] at hseconds
    rw [abs_of_nonneg (div_nonneg (Nat.cast_nonneg n) hr.le), hu] at hquotient
    push_cast
    generalize nearest ((n : ℚ) / rate.value) = y at *
    generalize (n : ℚ) / rate.value = x at *
    generalize (n * d.nanos : ℚ) = total at *
    rw [abs_le] at hseconds hquotient
    rw [abs_lt]
    constructor <;> linarith
  unfold Rate.waitNanos
  rw [hnearest]
  exact Int.toNat_natCast _

/-- Whole tokens at one every `d` take whole multiples of `d`, exactly, as far as 10^15 nanoseconds. -/
theorem nanos_timeToEarn_every {d : Duration} {n : ℕ} {x : Binary64} (h : d ≠ .zero) (hn0 : n ≠ 0)
    (hn : n * d.nanos ≤ 10 ^ 15) (hx : x.Denotes n) : ((Limit.every d).timeToEarn x).nanos = n * d.nanos := by
  obtain ⟨rate, hrate, hvalue, hr⟩ := every_eq_perSecond h
  have hwait := waitNanos_every h hvalue hr hn
  have hforever := Duration.nanos_forever
  rw [hrate, nanos_timeToEarn hr hx (by exact_mod_cast Nat.pos_of_ne_zero hn0), hwait, hforever]
  omega

end Throttle
