import Throttle.Proofs.Bucket.Balance

/-!
# What a refill credits

How far the balance at an instant can lie above the stored balance and what the rate earned since.
A bucket that is set to full gains at most what its wait was rounded by, any other at most a few
units in the last place of its capacity. Main statements: `balance_le` and `balance_le_of_not_full`.
-/

set_option autoImplicit false

namespace Throttle
open Binary64

/-! ## Sizes -/

theorem underflow_le : 2 * (2 : ℚ) ^ (-1075 : ℤ) ≤ 2 ^ (-53 : ℤ) / 2 := by
  have h1 : (2 : ℚ) ^ (-1075 : ℤ) ≤ 2 ^ (-55 : ℤ) := zpow_le_zpow_right₀ one_le_two (by omega)
  have h2 : (2 : ℚ) * 2 ^ (-55 : ℤ) = 2 ^ (-53 : ℤ) / 2 := by norm_num
  rw [← h2]
  exact mul_le_mul_of_nonneg_left h1 (by norm_num)

theorem abs_fullBalance_sub_le (burst : UInt64) :
    |fullBalance burst - burst.toNat| ≤ burst.toNat * 2 ^ (-53 : ℤ) := by
  have h := abs_nearest_sub_le_of_onGrid (onGrid_natCast burst.toNat)
  rwa [abs_of_nonneg (Nat.cast_nonneg (α := ℚ) burst.toNat)] at h

theorem one_le_fullBalance {burst : UInt64} (h : burst ≠ 0) : 1 ≤ fullBalance burst := by
  have hpos : 1 ≤ burst.toNat := by
    rw [Nat.one_le_iff_ne_zero]
    intro hzero
    exact h (UInt64.toNat_inj.1 hzero)
  have hone := le_nearest_of_le (y := (1 : ℕ)) (expressible_natCast (by omega)) (Nat.cast_le.2 hpos)
  rwa [Nat.cast_one] at hone

/-! ## Tokens earned -/

theorem rounded_earned_le (rate : Rate) (d : Duration) :
    nearest (rate.value * d.roundedSeconds) ≤
      rate.value * d.exactSeconds * (1 + 4 * 2 ^ (-53 : ℤ)) + 2 ^ (-1075 : ℤ) := by
  have hseconds := (abs_le.1 (abs_roundedSeconds_sub_le d)).2
  have hproduct := (abs_le.1 (abs_nearest_sub_le (rate.value * d.roundedSeconds))).2
  have hearned := mul_nonneg rate.nonneg d.exactSeconds_nonneg
  rw [abs_of_nonneg (mul_nonneg rate.nonneg d.roundedSeconds_nonneg)] at hproduct
  have hu := roundoff_pos
  have hsmall := roundoff_le
  rw [roundoff_sq] at hseconds
  generalize (2 : ℚ) ^ (-53 : ℤ) = u at *
  have hrounded : d.roundedSeconds ≤ d.exactSeconds * (1 + 2 * u + u * u) := by linarith
  have hscaled : rate.value * d.roundedSeconds * (1 + u) ≤
      rate.value * d.exactSeconds * (1 + 2 * u + u * u) * (1 + u) := by
    rw [mul_assoc rate.value d.exactSeconds]
    exact mul_le_mul_of_nonneg_right (mul_le_mul_of_nonneg_left hrounded rate.nonneg) (by linarith)
  have hpolynomial : (1 + 2 * u + u * u) * (1 + u) ≤ 1 + 4 * u := by nlinarith
  have hbound := mul_le_mul_of_nonneg_left hpolynomial hearned
  linarith

theorem le_rounded_earned (rate : Rate) (d : Duration) :
    rate.value * d.exactSeconds * (1 - 4 * 2 ^ (-53 : ℤ)) - 2 ^ (-1075 : ℤ) ≤
      nearest (rate.value * d.roundedSeconds) := by
  have hseconds := (abs_le.1 (abs_roundedSeconds_sub_le d)).1
  have hproduct := (abs_le.1 (abs_nearest_sub_le (rate.value * d.roundedSeconds))).1
  have hearned := mul_nonneg rate.nonneg d.exactSeconds_nonneg
  rw [abs_of_nonneg (mul_nonneg rate.nonneg d.roundedSeconds_nonneg)] at hproduct
  have hu := roundoff_pos
  have hsmall := roundoff_le
  rw [roundoff_sq] at hseconds
  generalize (2 : ℚ) ^ (-53 : ℤ) = u at *
  have hrounded : d.exactSeconds * (1 - 2 * u - u * u) ≤ d.roundedSeconds := by linarith
  have hscaled : rate.value * d.exactSeconds * (1 - 2 * u - u * u) * (1 - u) ≤
      rate.value * d.roundedSeconds * (1 - u) := by
    rw [mul_assoc rate.value d.exactSeconds]
    exact mul_le_mul_of_nonneg_right (mul_le_mul_of_nonneg_left hrounded rate.nonneg) (by linarith)
  have hpolynomial : 1 - 4 * u ≤ (1 - 2 * u - u * u) * (1 - u) := by nlinarith
  have hbound := mul_le_mul_of_nonneg_left hpolynomial hearned
  linarith

/-- A stored balance and the earned tokens, each rounded, as long as no more is earned than fits. -/
theorem rounded_sum_le {q x e c : ℚ} (hq : Expressible q) (he : Expressible e) (hq0 : 0 ≤ q)
    (he0 : 0 ≤ e) (hqc : q ≤ c) (hc : 1 ≤ c) (hx : x ≤ c)
    (hex : e ≤ x * (1 + 4 * 2 ^ (-53 : ℤ)) + 2 ^ (-1075 : ℤ)) :
    nearest (q + e) ≤ q + x + c * (8 * 2 ^ (-53 : ℤ)) := by
  have hsum := (abs_le.1 (abs_nearest_sub_le_of_onGrid (hq.onGrid.add he.onGrid))).2
  rw [abs_of_nonneg (add_nonneg hq0 he0)] at hsum
  have hu := roundoff_pos
  have hsmall := roundoff_le
  have hunder := underflow_le
  generalize (2 : ℚ) ^ (-53 : ℤ) = u at *
  generalize (2 : ℚ) ^ (-1075 : ℤ) = tiny at *
  have hcu : u ≤ c * u := le_mul_of_one_le_left hu.le hc
  have hxu : x * u ≤ c * u := mul_le_mul_of_nonneg_right hx hu.le
  have hqu : q * u ≤ c * u := mul_le_mul_of_nonneg_right hqc hu.le
  have he2 : e ≤ 2 * c := by nlinarith
  have heu : e * u ≤ 2 * c * u := mul_le_mul_of_nonneg_right he2 hu.le
  linarith

namespace Bucket

/-! ## The balance -/

variable {b : Bucket} {burst : UInt64} {q : ℚ}

def earnedSince (b : Bucket) (rate : Rate) (now : Instant) : ℚ :=
  rate.value * (b.idle now).exactSeconds

/-- The most by which the roundings of a refill lift a balance. -/
def refillError (burst : UInt64) : ℚ := fullBalance burst * (8 * 2 ^ (-53 : ℤ))

theorem refillError_nonneg (burst : UInt64) : 0 ≤ refillError burst :=
  mul_nonneg (fullBalance_nonneg burst) (mul_nonneg (by norm_num) roundoff_pos.le)

theorem capped_sum_le (b : Bucket) (rate : Rate) (now : Instant) (hq : Expressible q) (h0 : 0 ≤ q)
    (hfull : q ≤ fullBalance burst) (hburst : burst ≠ 0) :
    min (nearest (q + nearest (rate.value * (b.idle now).roundedSeconds))) (fullBalance burst) ≤
      q + b.earnedSince rate now + refillError burst := by
  by_cases hx : b.earnedSince rate now ≤ fullBalance burst
  · have hrounded := mul_nonneg rate.nonneg (b.idle now).roundedSeconds_nonneg
    exact (min_le_left _ _).trans (rounded_sum_le hq (expressible_nearest _) h0 (nearest_nonneg hrounded)
      hfull (one_le_fullBalance hburst) hx (rounded_earned_le rate (b.idle now)))
  · have herror := refillError_nonneg burst
    have hcap := min_le_right (nearest (q + nearest (rate.value * (b.idle now).roundedSeconds))) (fullBalance burst)
    linarith

variable {T : ℚ} (rate : Rate) (now : Instant)

/-- A balance that is not full owes nothing to the rounding of a wait. -/
theorem balance_le_of_not_full (hq : b.tokens.Denotes q) (h0 : 0 ≤ q) (hfull : q ≤ fullBalance burst)
    (hburst : burst ≠ 0) (hT : (b.balanceAt (.perSecond rate) burst now).Denotes T)
    (hlt : T < fullBalance burst) :
    T ≤ q + b.earnedSince rate now + refillError burst := by
  rcases balanceAt_full_or rate now (denotes_held hq h0 hfull) h0 with ⟨_, h⟩ | h
  · rw [h] at hT
    rw [hT.unique (denotes_capacity burst)] at hlt
    exact absurd hlt (lt_irrefl _)
  · rw [hT.unique h]
    exact capped_sum_le b rate now hq.expressible h0 hfull hburst

/-- Setting a bucket to full adds at most six tenths of a nanosecond to what was earned. -/
theorem fullBalance_le_of_due (hq : b.tokens.Denotes q) (h0 : 0 ≤ q) (hfull : q ≤ fullBalance burst)
    (hidle : b.idle now < .forever)
    (hdue : (Limit.perSecond rate).timeToEarn (capacity burst - b.tokens) ≤ b.idle now) :
    fullBalance burst ≤ q + b.earnedSince rate now + rate.value * (6 / 10 ^ 10) + refillError burst := by
  have hmissing := denotes_missing (denotes_held hq h0 hfull) h0 hfull
  rw [held_eq_tokens ⟨q, hq, h0, hfull⟩] at hmissing
  have hgap := sub_nonneg.2 hfull
  have hwait := amount_le_earned_in_wait hmissing (nearest_nonneg hgap) (Nat.lt_of_le_of_lt hdue hidle)
  -- the wait is no longer than the time that passed
  have hpassed : ((Limit.perSecond rate).timeToEarn (capacity burst - b.tokens)).exactSeconds ≤
      (b.idle now).exactSeconds :=
    div_le_div_of_nonneg_right (Nat.cast_le.2 (Duration.le_iff.1 hdue)) (by norm_num)
  have hearned := mul_le_mul_of_nonneg_left hpassed rate.nonneg
  have hround := (abs_le.1 (abs_nearest_sub_le_of_onGrid
    ((denotes_capacity burst).expressible.onGrid.sub hq.expressible.onGrid))).1
  rw [abs_of_nonneg hgap] at hround
  have hle : nearest (fullBalance burst - q) ≤ fullBalance burst :=
    nearest_le_of_le (denotes_capacity burst).expressible (by linarith)
  have hu := roundoff_pos
  unfold refillError earnedSince
  generalize (2 : ℚ) ^ (-53 : ℤ) = u at *
  have h1 := mul_le_mul_of_nonneg_right hle hu.le
  have h2 := mul_le_mul_of_nonneg_right (show fullBalance burst - q ≤ fullBalance burst by linarith) hu.le
  have h3 := mul_nonneg (fullBalance_nonneg burst) hu.le
  linarith

/-- In every case a refill credits what was earned, up to six tenths of a nanosecond and a few units
in the last place of the capacity. -/
theorem balance_le (hq : b.tokens.Denotes q) (h0 : 0 ≤ q) (hfull : q ≤ fullBalance burst)
    (hburst : burst ≠ 0) (hidle : b.idle now < .forever)
    (hT : (b.balanceAt (.perSecond rate) burst now).Denotes T) :
    T ≤ q + b.earnedSince rate now + rate.value * (6 / 10 ^ 10) + refillError burst := by
  rcases balanceAt_full_or rate now (denotes_held hq h0 hfull) h0 with ⟨hdue, h⟩ | h
  · rw [h] at hT
    rw [held_eq_tokens ⟨q, hq, h0, hfull⟩] at hdue
    rw [hT.unique (denotes_capacity burst)]
    exact fullBalance_le_of_due rate now hq h0 hfull hidle hdue
  · have hsum := capped_sum_le b rate now hq.expressible h0 hfull hburst
    have hnano : 0 ≤ rate.value * (6 / 10 ^ 10) := mul_nonneg rate.nonneg (by norm_num)
    rw [hT.unique h]
    linarith

end Bucket

end Throttle
