import Throttle.Proofs.Limit.Interval

/-!
# From a span to tokens and back

A span passes five roundings on its way to tokens and back to seconds: a whole second and a fraction, their
sum, the product with the rate and the quotient by it. Four of them lie in a row. As long as neither
product nor quotient leaves the normal numbers, the seconds that come back are off by the relative error
of four roundings, which for spans of up to 10^15 nanoseconds is less than half a nanosecond. Main
statement: `timeToEarn_earnedIn`.
-/

set_option autoImplicit false

namespace Throttle
open Binary64

/-! ## Roundings in a row -/

/-- The relative error that `n` roundings in a row can add up to. -/
def drift (n : ℕ) : ℚ := (1 + 2 ^ (-53 : ℤ)) ^ n - 1

/-- `x` is as near to `q` as `n` roundings in a row leave it. -/
def OffBy (n : ℕ) (q x : ℚ) : Prop := |x - q| ≤ |q| * drift n

variable {m n : ℕ} {p q r : ℚ}

theorem drift_nonneg (n : ℕ) : 0 ≤ drift n :=
  sub_nonneg.2 (one_le_pow₀ (le_add_of_nonneg_right roundoff_pos.le))

theorem drift_add (m n : ℕ) : drift (m + n) = (1 + drift m) * drift n + drift m := by
  unfold drift
  rw [pow_add]
  ring

theorem OffBy.trans (h : OffBy m p q) (h' : OffBy n q r) : OffBy (m + n) p r := by
  have hq : |q| ≤ |p| * (1 + drift m) := by
    have htri := abs_sub_abs_le_abs_sub q p
    have herror : |q - p| ≤ |p| * drift m := h
    linarith
  have hscaled := mul_le_mul_of_nonneg_right hq (drift_nonneg n)
  calc |r - p| ≤ |r - q| + |q - p| := abs_sub_le r q p
    _ ≤ |q| * drift n + |p| * drift m := add_le_add h' h
    _ ≤ |p| * (1 + drift m) * drift n + |p| * drift m := by linarith
    _ = |p| * drift (m + n) := by
      rw [drift_add]
      ring

theorem OffBy.mul_left (h : OffBy n p q) (c : ℚ) : OffBy n (c * p) (c * q) := by
  unfold OffBy
  rw [← mul_sub, abs_mul, abs_mul, mul_assoc]
  exact mul_le_mul_of_nonneg_left h (abs_nonneg c)

/-- A small drift neither halves nor doubles. -/
theorem OffBy.bounds (h : OffBy n p q) (hp : 0 ≤ p) (hn : drift n ≤ 1 / 2) : p / 2 ≤ q ∧ q ≤ 2 * p := by
  have herror : |q - p| ≤ |p| * drift n := h
  have hscaled := mul_le_mul_of_nonneg_left hn hp
  rw [abs_of_nonneg hp, abs_le] at herror
  constructor <;> linarith

theorem offBy_nearest (h : 2 ^ (-1022 : ℤ) ≤ |q|) : OffBy 1 q (nearest q) := by
  have herror := abs_nearest_sub_le_of_normal h
  unfold OffBy drift
  rwa [pow_one, add_sub_cancel_left]

/-! ## There and back -/

theorem Duration.offBy_roundedSeconds (d : Duration) : OffBy 2 d.exactSeconds d.roundedSeconds := by
  have herror := abs_roundedSeconds_sub_le d
  have hdrift : drift 2 = 2 * 2 ^ (-53 : ℤ) + 2 ^ (-106 : ℤ) := by
    unfold drift
    rw [roundoff_sq]
    ring
  unfold OffBy
  rwa [abs_of_nonneg d.exactSeconds_nonneg, hdrift]

theorem ten_zpow_290_bounds : (2 : ℚ) ^ (-970 : ℤ) ≤ 10 ^ (-290 : ℤ) ∧ (10 : ℚ) ^ (290 : ℤ) ≤ 2 ^ (970 : ℤ) := by
  have hthousand : ((10 : ℚ) ^ (3 : ℤ)) ^ (97 : ℕ) ≤ (2 ^ (10 : ℤ)) ^ (97 : ℕ) :=
    pow_le_pow_left₀ (by norm_num) (by norm_num) 97
  have h : (10 : ℚ) ^ (290 : ℤ) ≤ 2 ^ (970 : ℤ) := by
    calc (10 : ℚ) ^ (290 : ℤ) ≤ 10 ^ (3 * (97 : ℕ) : ℤ) := zpow_le_zpow_right₀ (by norm_num) (by norm_num)
      _ = (10 ^ (3 : ℤ)) ^ (97 : ℕ) := by rw [zpow_mul, zpow_natCast]
      _ ≤ (2 ^ (10 : ℤ)) ^ (97 : ℕ) := hthousand
      _ = 2 ^ (10 * (97 : ℕ) : ℤ) := by rw [zpow_mul, zpow_natCast]
  refine ⟨?_, h⟩
  rw [zpow_neg, zpow_neg]
  exact inv_anti₀ (zpow_pos (by norm_num) _) h

variable {rate : Rate} {d : Duration}

/-- The product is a normal number. -/
theorem earned_bounds (hd : d ≠ .zero) (hlimit : d.nanos ≤ 10 ^ 15) (hlow : 10 ^ (-290 : ℤ) ≤ rate.value)
    (hhigh : rate.value ≤ 10 ^ (290 : ℤ)) :
    2 ^ (-1022 : ℤ) ≤ rate.value * d.roundedSeconds ∧ rate.value * d.roundedSeconds ≤ 2 ^ (1000 : ℤ) := by
  have hexact : d.exactSeconds ≤ 10 ^ 6 := by
    have hcast : (d.nanos : ℚ) ≤ 10 ^ 15 := by exact_mod_cast hlimit
    unfold Duration.exactSeconds
    linarith
  have hseconds := (d.offBy_roundedSeconds.bounds d.exactSeconds_nonneg (by unfold drift; norm_num)).2
  constructor
  · calc (2 : ℚ) ^ (-1022 : ℤ) ≤ 2 ^ (-970 + -31 : ℤ) := zpow_le_zpow_right₀ one_le_two (by omega)
      _ = 2 ^ (-970 : ℤ) * 2 ^ (-31 : ℤ) := two_zpow_add _ _
      _ ≤ rate.value * d.roundedSeconds :=
        mul_le_mul (ten_zpow_290_bounds.1.trans hlow) (roundedSeconds_bounds hd).1 (two_zpow_pos _).le rate.nonneg
  · have hmillions : d.roundedSeconds ≤ 2 ^ (21 : ℤ) := by
      have hpow : (2 : ℚ) * 10 ^ 6 ≤ 2 ^ (21 : ℤ) := by norm_num
      linarith
    calc rate.value * d.roundedSeconds ≤ 2 ^ (970 : ℤ) * 2 ^ (21 : ℤ) :=
          mul_le_mul (hhigh.trans ten_zpow_290_bounds.2) hmillions d.roundedSeconds_nonneg (two_zpow_pos _).le
      _ = 2 ^ (970 + 21 : ℤ) := (two_zpow_add _ _).symm
      _ ≤ 2 ^ (1000 : ℤ) := zpow_le_zpow_right₀ one_le_two (by omega)

/-- The quotient by the rate undoes the product with it, up to the three roundings before. -/
theorem offBy_quotient (hr : 0 < rate.value) (hnormal : 2 ^ (-1022 : ℤ) ≤ rate.value * d.roundedSeconds) :
    OffBy 3 d.exactSeconds (nearest (rate.value * d.roundedSeconds) / rate.value) := by
  have hproduct := (d.offBy_roundedSeconds.mul_left rate.value).trans
    (offBy_nearest (hnormal.trans (le_abs_self _)))
  have hquotient := hproduct.mul_left rate.value⁻¹
  rwa [inv_mul_cancel_left₀ hr.ne', inv_mul_eq_div] at hquotient

theorem offBy_returned (hr : 0 < rate.value) (hd : d ≠ .zero)
    (hnormal : 2 ^ (-1022 : ℤ) ≤ rate.value * d.roundedSeconds) :
    OffBy 4 d.exactSeconds (nearest (nearest (rate.value * d.roundedSeconds) / rate.value)) := by
  have hquotient := offBy_quotient hr hnormal
  have hhalf := (hquotient.bounds d.exactSeconds_nonneg (by unfold drift; norm_num)).1
  have hexact : 1 / 1_000_000_000 ≤ d.exactSeconds :=
    div_le_div_of_nonneg_right (by exact_mod_cast Duration.nanos_pos hd) (by norm_num)
  have htiny : (2 : ℚ) ^ (-1022 : ℤ) ≤ d.exactSeconds / 2 := by
    calc (2 : ℚ) ^ (-1022 : ℤ) ≤ 2 ^ (-40 : ℤ) := zpow_le_zpow_right₀ one_le_two (by omega)
      _ ≤ 1 / 1_000_000_000 / 2 := by norm_num
      _ ≤ d.exactSeconds / 2 := div_le_div_of_nonneg_right hexact (by norm_num)
  have hlast := offBy_nearest ((htiny.trans hhalf).trans (le_abs_self _))
  -- the three roundings before, and the last one
  show OffBy (3 + 1) _ _
  exact hquotient.trans hlast

/-- Up to 10^15 nanoseconds four roundings are less than half a nanosecond. -/
theorem nearestInt_of_offBy (hlimit : d.nanos ≤ 10 ^ 15) {seconds : ℚ} (h : OffBy 4 d.exactSeconds seconds) :
    nearestInt (seconds * 1_000_000_000) = d.nanos := by
  apply nearestInt_eq_of_abs_sub_lt_half
  have hcast : (d.nanos : ℚ) ≤ 10 ^ 15 := by exact_mod_cast hlimit
  have hsplit : seconds * 1_000_000_000 - ((d.nanos : ℤ) : ℚ) = 1_000_000_000 * (seconds - d.exactSeconds) := by
    unfold Duration.exactSeconds
    rw [Int.cast_natCast]
    ring
  have hnanos : (1_000_000_000 : ℚ) * d.exactSeconds = d.nanos := by
    unfold Duration.exactSeconds
    ring
  have herror : |seconds - d.exactSeconds| ≤ d.exactSeconds * drift 4 := by
    have h' : _ ≤ |d.exactSeconds| * drift 4 := h
    rwa [abs_of_nonneg d.exactSeconds_nonneg] at h'
  rw [hsplit, abs_mul, abs_of_pos (by norm_num)]
  calc 1_000_000_000 * |seconds - d.exactSeconds| ≤ 1_000_000_000 * (d.exactSeconds * drift 4) :=
        mul_le_mul_of_nonneg_left herror (by norm_num)
    _ = d.nanos * drift 4 := by rw [← mul_assoc, hnanos]
    _ ≤ 10 ^ 15 * drift 4 := mul_le_mul_of_nonneg_right hcast (drift_nonneg 4)
    _ < 1 / 2 := by
      unfold drift
      norm_num

/-- The tokens earned in a span take that span to be earned, to the nanosecond. -/
theorem timeToEarn_earnedIn (rate : Rate) (d : Duration) (hlow : 10 ^ (-290 : ℤ) ≤ rate.value)
    (hhigh : rate.value ≤ 10 ^ (290 : ℤ)) (hlimit : d.nanos ≤ 10 ^ 15) :
    (Limit.perSecond rate).timeToEarn ((Limit.perSecond rate).earnedIn d) = d := by
  have hr : 0 < rate.value := (show (0 : ℚ) < 10 ^ (-290 : ℤ) from zpow_pos (by norm_num) _).trans_le hlow
  have hearned := earnedIn_saturates rate d
  by_cases hd : d = .zero
  · subst hd
    rw [Duration.roundedSeconds_zero, mul_zero, nearest_zero] at hearned
    exact timeToEarn_of_nonpos _ (hearned.denotes (two_zpow_pos _)) (le_refl 0)
  obtain ⟨hnormal, hlarge⟩ := earned_bounds hd hlimit hlow hhigh
  have hsmall : nearest (rate.value * d.roundedSeconds) < 2 ^ (1024 : ℤ) :=
    (nearest_le_of_le (expressible_zpow (by omega)) hlarge).trans_lt (zpow_lt_zpow_right₀ one_lt_two (by omega))
  have hpos : 0 < nearest (rate.value * d.roundedSeconds) :=
    (two_zpow_pos _).trans_le (le_nearest_of_le (expressible_zpow (by omega)) hnormal)
  have hnanos := nanos_timeToEarn hr (hearned.denotes hsmall) hpos
  have hreturned := nearestInt_of_offBy hlimit (offBy_returned hr hd hnormal)
  have hforever := Duration.le_forever d
  rw [Duration.le_iff] at hforever
  apply Duration.ext_nanos
  rw [hnanos]
  unfold Rate.waitNanos
  rw [hreturned, Int.toNat_natCast]
  exact min_eq_left hforever

/-- A full significand near the upper end of the rates, so that the product is rounded, and the longest span but
one. -/
theorem timeToEarn_earnedIn_of_fast_rate :
    let rate : Rate := ⟨((9_007_199_254_740_991 : ℤ) : ℚ) * 2 ^ (910 : ℤ),
      ⟨9_007_199_254_740_991, 910, by decide, by decide, by decide, rfl⟩,
      Rat.mul_nonneg (Rat.intCast_nonneg.2 (by decide)) (Rat.le_of_lt (two_zpow_pos _))⟩
    let d : Duration := { nanos := 999_999_999_999_999 }
    10 ^ (-290 : ℤ) ≤ rate.value ∧ rate.value ≤ 10 ^ (290 : ℤ) ∧ d.nanos ≤ 10 ^ 15 ∧
      rate.value * d.exactSeconds ≠ ((Limit.perSecond rate).earnedIn d).toRat ∧
      (Limit.perSecond rate).timeToEarn ((Limit.perSecond rate).earnedIn d) = d := by
  intro rate d
  have hlow : (10 : ℚ) ^ (-290 : ℤ) ≤ rate.value := by decide +kernel
  have hhigh : rate.value ≤ 10 ^ (290 : ℤ) := by decide +kernel
  exact ⟨hlow, hhigh, by decide, by decide +kernel, timeToEarn_earnedIn rate d hlow hhigh (by decide)⟩

end Throttle
