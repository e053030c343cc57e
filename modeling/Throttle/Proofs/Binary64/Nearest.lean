import Mathlib.Algebra.Order.Field.Basic
import Mathlib.Algebra.Order.Ring.Rat
import Mathlib.Tactic.Linarith
import Mathlib.Tactic.Positivity
import Mathlib.Tactic.Ring
import Throttle.Binary64.Basic

/-!
# The nearest value of the format

Rounding to the format is closest rounding: no value of the format, the upper end left open, is
nearer to `q` than `nearest q`. From this one fact come that rounding fixes the values of the format
and keeps the order. The error is at most 2^-53 of the exact value, and a fixed 2^-1075 more where
the exact value lies between the values of the smallest exponent; a sum or difference of two values
of the format never does.
-/

set_option autoImplicit false

namespace Throttle

/-! ## The nearest integer is nearest -/

theorem rat_abs_eq_abs (q : ℚ) : q.abs = |q| := by
  rcases le_total 0 q with h | h
  · rw [Rat.abs_of_nonneg h, abs_of_nonneg h]
  · rw [Rat.abs_of_nonpos h, abs_of_nonpos h]

theorem abs_nearestInt_sub_le_half (q : ℚ) : |(nearestInt q : ℚ) - q| ≤ 1 / 2 := by
  obtain ⟨hlow, hhigh⟩ := floor_le_and_lt q
  rw [abs_le]
  rcases nearestInt_eq_floor_or q with ⟨e, h⟩ | ⟨e, h⟩
  · rw [e]
    constructor <;> linarith
  · rw [e, Int.cast_add, Int.cast_one]
    constructor <;> linarith

theorem abs_nearestInt_sub_le (q : ℚ) (n : ℤ) : |(nearestInt q : ℚ) - q| ≤ |(n : ℚ) - q| := by
  by_cases h : n = nearestInt q
  · rw [h]
  · have hone : (1 : ℚ) ≤ |(n : ℚ) - nearestInt q| := by
      rw [← Int.cast_sub, ← Int.cast_abs]
      exact_mod_cast Int.one_le_abs (sub_ne_zero.2 h)
    have htri := abs_sub_le (n : ℚ) q (nearestInt q)
    have hhalf := abs_nearestInt_sub_le_half q
    rw [abs_sub_comm q] at htri
    linarith

theorem nearestInt_eq_of_abs_sub_lt_half {q : ℚ} {n : ℤ} (h : |q - n| < 1 / 2) : nearestInt q = n := by
  have hhalf := abs_nearestInt_sub_le_half q
  rw [abs_le] at hhalf
  rw [abs_lt] at h
  have hlow : ((n - 1 : ℤ) : ℚ) < nearestInt q := by
    push_cast
    linarith
  have hhigh : (nearestInt q : ℚ) < ((n + 1 : ℤ) : ℚ) := by
    push_cast
    linarith
  rw [Int.cast_lt] at hlow hhigh
  omega

theorem nearestInt_mono {p q : ℚ} (h : p ≤ q) : nearestInt p ≤ nearestInt q := by
  have hfloor := Rat.floor_monotone h
  rcases nearestInt_eq_floor_or p with ⟨hp, _⟩ | ⟨hp, hup⟩
  · rcases nearestInt_eq_floor_or q with ⟨hq, _⟩ | ⟨hq, _⟩ <;> omega
  · rcases nearestInt_eq_floor_or q with ⟨hq, hdown⟩ | ⟨hq, _⟩
    · rcases hfloor.eq_or_lt with heq | hlt
      · -- one half is rounded up and the other down, so they are the same half
        rw [heq] at hup
        have hsame : p = q := by linarith
        rw [hsame]
      · omega
    · omega

/-! ## Values without an upper end -/

/-- The values that the format would have if its exponents had no upper end. A significand may be
2^53 itself, which is a value of the next exponent. -/
def Expressible (q : ℚ) : Prop :=
  ∃ m e : ℤ, m.natAbs ≤ 9007199254740992 ∧ -1074 ≤ e ∧ q = m * 2 ^ e

theorem Representable.expressible {q : ℚ} (h : Representable q) : Expressible q := by
  obtain ⟨m, e, hm, he, _, hq⟩ := h
  exact ⟨m, e, Nat.le_of_lt hm, he, hq⟩

theorem neg_1074_le_placeExponent (q : ℚ) : -1074 ≤ placeExponent q := by
  unfold placeExponent
  omega

theorem expressible_nearest (q : ℚ) : Expressible (nearest q) :=
  ⟨_, _, natAbs_significand_le q, neg_1074_le_placeExponent q, rfl⟩

theorem expressible_zpow {e : ℤ} (he : -1074 ≤ e) : Expressible (2 ^ e) :=
  ⟨1, e, by decide, he, by rw [Int.cast_one, one_mul]⟩

/-! ## Closest rounding -/

theorem nearest_sub_eq (q : ℚ) :
    nearest q - q = (nearestInt (q / 2 ^ placeExponent q) - q / 2 ^ placeExponent q) * 2 ^ placeExponent q := by
  rw [sub_mul, div_mul_cancel₀ q (two_zpow_ne_zero _)]
  rfl

theorem abs_nearest_sub_le_half_place (q : ℚ) : |nearest q - q| ≤ 2 ^ placeExponent q / 2 := by
  have hpos := two_zpow_pos (placeExponent q)
  have h := abs_nearestInt_sub_le_half (q / 2 ^ placeExponent q)
  rw [nearest_sub_eq, abs_mul, abs_of_pos hpos]
  nlinarith

/-- A multiple of the last place is no nearer than the rounded value. -/
theorem abs_nearest_sub_le_of_multiple (q : ℚ) (n : ℤ) :
    |nearest q - q| ≤ |n * 2 ^ placeExponent q - q| := by
  have hpos := two_zpow_pos (placeExponent q)
  have hn : (n : ℚ) * 2 ^ placeExponent q - q = (n - q / 2 ^ placeExponent q) * 2 ^ placeExponent q := by
    rw [sub_mul, div_mul_cancel₀ q (two_zpow_ne_zero _)]
  rw [nearest_sub_eq, hn, abs_mul, abs_mul]
  exact mul_le_mul_of_nonneg_right (abs_nearestInt_sub_le _ n) (abs_nonneg _)

theorem intCast_mul_two_zpow {e f : ℤ} (m : ℤ) (h : f ≤ e) : ∃ n : ℤ, (m : ℚ) * 2 ^ e = n * 2 ^ f := by
  refine ⟨m * 2 ^ (e - f).toNat, ?_⟩
  have hsplit : e = ((e - f).toNat : ℤ) + f := by omega
  rw [Int.cast_mul, Int.cast_pow, Int.cast_ofNat, mul_assoc, ← zpow_natCast, ← two_zpow_add, ← hsplit]

/-- A value below the last place of `q` is smaller than the power of two at the top of `q`. -/
theorem abs_le_two_zpow_of_lt_place {q : ℚ} {m e : ℤ} (hm : m.natAbs ≤ 9007199254740992)
    (he : e < placeExponent q) : |(m : ℚ) * 2 ^ e| ≤ 2 ^ (placeExponent q + 52) := by
  have hcast : |(m : ℚ)| ≤ 2 ^ (53 : ℤ) := by
    have h : |m| ≤ 9007199254740992 := by
      rw [Int.abs_eq_natAbs]
      omega
    calc |(m : ℚ)| = ((|m| : ℤ) : ℚ) := (Int.cast_abs).symm
      _ ≤ ((9007199254740992 : ℤ) : ℚ) := Int.cast_le.2 h
      _ = 2 ^ (53 : ℤ) := by norm_num
  rw [abs_mul, abs_of_pos (two_zpow_pos e)]
  calc |(m : ℚ)| * 2 ^ e ≤ 2 ^ (53 : ℤ) * 2 ^ e :=
        mul_le_mul_of_nonneg_right hcast (le_of_lt (two_zpow_pos e))
    _ = 2 ^ (53 + e) := (two_zpow_add 53 e).symm
    _ ≤ 2 ^ (placeExponent q + 52) := zpow_le_zpow_right₀ one_le_two (by omega)

/-- Above the smallest exponents the last place is 52 places below the top. -/
theorem two_zpow_place_le_abs {q : ℚ} (hq : q ≠ 0) (h : -1022 ≤ binaryExponent q.abs) :
    (2 : ℚ) ^ (placeExponent q + 52) ≤ |q| := by
  have hplace : placeExponent q + 52 = binaryExponent q.abs := by
    unfold placeExponent
    omega
  rw [hplace, ← rat_abs_eq_abs]
  exact two_zpow_binaryExponent_le (Rat.abs_pos_iff.2 hq)

theorem placeExponent_eq_or (q : ℚ) : placeExponent q = -1074 ∨ -1022 ≤ binaryExponent q.abs := by
  unfold placeExponent
  omega

/-- No value is nearer to `q` than `nearest q`. -/
theorem abs_nearest_sub_le_of_expressible {y : ℚ} (hy : Expressible y) (q : ℚ) :
    |nearest q - q| ≤ |y - q| := by
  by_cases hq : q = 0
  · rw [hq, nearest_zero, sub_zero, abs_zero]
    exact abs_nonneg _
  obtain ⟨m, e, hm, he, rfl⟩ := hy
  rcases le_or_gt (placeExponent q) e with hle | hlt
  · obtain ⟨n, hn⟩ := intCast_mul_two_zpow m hle
    rw [hn]
    exact abs_nearest_sub_le_of_multiple q n
  · -- the power of two at the top of `q`, with its sign, lies between the value and `q`
    have hsmall := abs_le_two_zpow_of_lt_place hm hlt
    have htop := two_zpow_place_le_abs hq ((placeExponent_eq_or q).resolve_left (by omega))
    have hpow : (2 : ℚ) ^ (placeExponent q + 52) = ((2 ^ 52 : ℤ) : ℚ) * 2 ^ placeExponent q := by
      rw [add_comm, two_zpow_add]
      norm_num
    have htri := abs_sub_abs_le_abs_sub q ((m : ℚ) * 2 ^ e)
    rw [abs_sub_comm q] at htri
    rcases le_total 0 q with h | h
    · have hmul := abs_nearest_sub_le_of_multiple q (2 ^ 52)
      rw [← hpow] at hmul
      rw [abs_of_nonneg h] at htop htri
      rw [abs_of_nonpos (sub_nonpos.2 htop)] at hmul
      linarith
    · have hmul := abs_nearest_sub_le_of_multiple q (-2 ^ 52)
      rw [Int.cast_neg, neg_mul, ← hpow] at hmul
      rw [abs_of_nonpos h] at htop htri
      rw [abs_of_nonneg (show 0 ≤ -2 ^ (placeExponent q + 52) - q by linarith)] at hmul
      linarith

theorem nearest_of_expressible {q : ℚ} (h : Expressible q) : nearest q = q := by
  have hle := abs_nearest_sub_le_of_expressible h q
  rw [sub_self, abs_zero] at hle
  exact sub_eq_zero.1 (abs_nonpos_iff.1 hle)

theorem nearest_mono {p q : ℚ} (h : p ≤ q) : nearest p ≤ nearest q := by
  rcases h.eq_or_lt with rfl | hlt
  · exact le_refl _
  by_contra hcross
  rw [not_le] at hcross
  -- crossed roundings would put the midpoint of the two results between `q` and `p`
  have hp := abs_nearest_sub_le_of_expressible (expressible_nearest q) p
  have hq := abs_nearest_sub_le_of_expressible (expressible_nearest p) q
  rcases abs_cases (nearest p - p) with ⟨e1, _⟩ | ⟨e1, _⟩ <;>
    rcases abs_cases (nearest q - p) with ⟨e2, _⟩ | ⟨e2, _⟩ <;>
    rcases abs_cases (nearest q - q) with ⟨e3, _⟩ | ⟨e3, _⟩ <;>
    rcases abs_cases (nearest p - q) with ⟨e4, _⟩ | ⟨e4, _⟩ <;>
    rw [e1, e2] at hp <;> rw [e3, e4] at hq <;> linarith

theorem nearest_le_of_le {q y : ℚ} (hy : Expressible y) (h : q ≤ y) : nearest q ≤ y := by
  rw [← nearest_of_expressible hy]
  exact nearest_mono h

theorem le_nearest_of_le {q y : ℚ} (hy : Expressible y) (h : y ≤ q) : y ≤ nearest q := by
  rw [← nearest_of_expressible hy]
  exact nearest_mono h

theorem nearest_nonneg {q : ℚ} (h : 0 ≤ q) : 0 ≤ nearest q :=
  le_nearest_of_le representable_zero.expressible h

theorem nearest_nonpos {q : ℚ} (h : q ≤ 0) : nearest q ≤ 0 :=
  nearest_le_of_le representable_zero.expressible h

/-! ## Large values -/

theorem Expressible.even_of_large {q : ℚ} (h : Expressible q) (hlarge : 9007199254740992 ≤ q) :
    ∃ n : ℤ, q = n * 2 := by
  obtain ⟨m, e, hm, _, rfl⟩ := h
  rcases le_or_gt 1 e with he | he
  · have hmultiple := intCast_mul_two_zpow m he
    rwa [zpow_one] at hmultiple
  · -- without a factor of two only the full significand is so large
    have hm' : (m : ℚ) ≤ 9007199254740992 := by
      have hle : m ≤ 9007199254740992 := by omega
      exact_mod_cast hle
    have hpow : (2 : ℚ) ^ e ≤ 1 := zpow_le_one_of_nonpos₀ one_le_two (by omega)
    have hscaled := mul_le_mul_of_nonneg_right hm' (two_zpow_pos e).le
    refine ⟨4503599627370496, le_antisymm ?_ ?_⟩
    · push_cast
      linarith
    · push_cast
      linarith

/-- From 2^53 on a fraction that is added is lost. -/
theorem nearest_add_of_large {q f : ℚ} (hq : Expressible q) (hlarge : 9007199254740992 ≤ q) (h0 : 0 ≤ f) (h1 : f < 1) :
    nearest (q + f) = q := by
  have hlow : q ≤ nearest (q + f) := le_nearest_of_le hq (by linarith)
  have hclose := abs_nearest_sub_le_of_expressible hq (q + f)
  rw [show q - (q + f) = -f by ring, abs_neg, abs_of_nonneg h0] at hclose
  have hhigh := (abs_le.1 hclose).2
  obtain ⟨m, hm⟩ := hq.even_of_large hlarge
  obtain ⟨n, hn⟩ := (expressible_nearest (q + f)).even_of_large (hlarge.trans hlow)
  have hnext : (n : ℚ) < ((m + 1 : ℤ) : ℚ) := by
    push_cast
    linarith
  have hle : (n : ℚ) ≤ m := by
    rw [Int.cast_lt] at hnext
    exact_mod_cast Int.lt_add_one_iff.1 hnext
  linarith

/-! ## Errors -/

theorem abs_nearest_sub_le_of_exponent {q : ℚ} (hq : q ≠ 0) (h : -1022 ≤ binaryExponent q.abs) :
    |nearest q - q| ≤ |q| * 2 ^ (-53 : ℤ) := by
  have hhalf := abs_nearest_sub_le_half_place q
  have htop := mul_le_mul_of_nonneg_right (two_zpow_place_le_abs hq h) (le_of_lt (two_zpow_pos (-53)))
  rw [← two_zpow_add, show placeExponent q + 52 + -53 = placeExponent q - 1 by omega,
    zpow_sub_one₀ two_ne_zero, ← div_eq_mul_inv] at htop
  exact hhalf.trans htop

theorem abs_nearest_sub_le_of_normal {q : ℚ} (h : 2 ^ (-1022 : ℤ) ≤ |q|) :
    |nearest q - q| ≤ |q| * 2 ^ (-53 : ℤ) := by
  have hpos : 0 < |q| := (two_zpow_pos _).trans_le h
  have hq : q ≠ 0 := abs_pos.1 hpos
  apply abs_nearest_sub_le_of_exponent hq
  have hlt := lt_two_zpow_binaryExponent (Rat.abs_pos_iff.2 hq)
  rw [rat_abs_eq_abs] at hlt ⊢
  have := (zpow_lt_zpow_iff_right₀ one_lt_two).1 (h.trans_lt hlt)
  omega

theorem abs_nearest_sub_le (q : ℚ) : |nearest q - q| ≤ |q| * 2 ^ (-53 : ℤ) + 2 ^ (-1075 : ℤ) := by
  by_cases hq : q = 0
  · rw [hq, nearest_zero, sub_zero, abs_zero, zero_mul, zero_add]
    exact le_of_lt (two_zpow_pos _)
  rcases placeExponent_eq_or q with h | h
  · have hhalf := abs_nearest_sub_le_half_place q
    have hsub : (2 : ℚ) ^ (-1074 : ℤ) / 2 = 2 ^ (-1075 : ℤ) := by
      rw [show (-1075 : ℤ) = -1074 - 1 from rfl, zpow_sub_one₀ two_ne_zero, div_eq_mul_inv]
    rw [h, hsub] at hhalf
    have := mul_nonneg (abs_nonneg q) (le_of_lt (two_zpow_pos (-53)))
    linarith
  · have := abs_nearest_sub_le_of_exponent hq h
    have := two_zpow_pos (-1075)
    linarith

/-- The whole multiples of the smallest value, among which are the sums of values of the format. -/
def OnGrid (q : ℚ) : Prop :=
  ∃ n : ℤ, q = n * 2 ^ (-1074 : ℤ)

theorem Expressible.onGrid {q : ℚ} (h : Expressible q) : OnGrid q := by
  obtain ⟨m, e, _, he, rfl⟩ := h
  exact intCast_mul_two_zpow m he

theorem OnGrid.add {p q : ℚ} (hp : OnGrid p) (hq : OnGrid q) : OnGrid (p + q) := by
  obtain ⟨m, rfl⟩ := hp
  obtain ⟨n, rfl⟩ := hq
  exact ⟨m + n, by rw [Int.cast_add, add_mul]⟩

theorem OnGrid.sub {p q : ℚ} (hp : OnGrid p) (hq : OnGrid q) : OnGrid (p - q) := by
  obtain ⟨m, rfl⟩ := hp
  obtain ⟨n, rfl⟩ := hq
  exact ⟨m - n, by rw [Int.cast_sub, sub_mul]⟩

theorem onGrid_natCast (n : ℕ) : OnGrid n := by
  have h := intCast_mul_two_zpow (n : ℤ) (show -1074 ≤ 0 by omega)
  rwa [zpow_zero, mul_one] at h

theorem abs_nearest_sub_le_of_onGrid {q : ℚ} (h : OnGrid q) : |nearest q - q| ≤ |q| * 2 ^ (-53 : ℤ) := by
  by_cases hq : q = 0
  · rw [hq, nearest_zero, sub_zero, abs_zero, zero_mul]
  rcases placeExponent_eq_or q with hplace | hplace
  · -- the last place is the grid's, so nothing is lost
    obtain ⟨n, hn⟩ := h
    have hexact := abs_nearest_sub_le_of_multiple q n
    rw [hplace, ← hn, sub_self, abs_zero] at hexact
    exact hexact.trans (mul_nonneg (abs_nonneg q) (le_of_lt (two_zpow_pos _)))
  · exact abs_nearest_sub_le_of_exponent hq hplace

end Throttle
