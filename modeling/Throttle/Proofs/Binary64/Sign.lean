import Throttle.Proofs.Binary64.Denotation

/-!
# The sign bit

No operation sets the sign bit of a result that is not below zero unless an operand has it set, so a
number whose sign bit is not set is its own sum with nothing: `add_of_denotes_zero`.
-/

set_option autoImplicit false

namespace Throttle.Binary64

variable {x y : Binary64} {p q : ℚ}

/-! ## Signs of results -/

theorem nonneg_of_isNegative (h : x.isNegative = false) : 0 ≤ x.toRat := by
  cases x with
  | finite q hq => exact not_lt.1 (of_decide_eq_false h)
  | nan => exact le_refl _
  | infinity negative => exact le_refl _
  | negZero => exact le_refl _

theorem isNegative_ofRat (h : 0 ≤ q) : (ofRat q).isNegative = false := by
  have hsign : decide (q < 0) = false := decide_eq_false (not_lt.2 h)
  unfold ofRat
  rw [hsign]
  split
  · split
    · rfl
    · exact decide_eq_false (not_lt.2 (nearest_nonneg h))
  · rfl

theorem isNegative_ofNat (n : ℕ) : (ofNat n).isNegative = false :=
  isNegative_ofRat (Nat.cast_nonneg n)

theorem isNegative_signed (h : 0 ≤ q) : (signed false q).isNegative = false := by
  unfold signed
  split
  · rfl
  · exact isNegative_ofRat h

theorem isNegative_add (hx : x.isNegative = false) (hy : y.isNegative = false) : (x + y).isNegative = false := by
  have hsum := add_nonneg (nonneg_of_isNegative hx) (nonneg_of_isNegative hy)
  cases x with
  | nan => cases y <;> rfl
  | negZero => cases hx
  | infinity s =>
    obtain rfl : s = false := hx
    cases y with
    | nan => rfl
    | negZero => rfl
    | finite q hq => rfl
    | infinity t =>
      obtain rfl : t = false := hy
      rfl
  | finite p hp =>
    cases y with
    | nan => rfl
    | negZero => cases hy
    | infinity t => exact hy
    | finite q hq => exact isNegative_ofRat hsum

theorem isNegative_mul (hx : x.isNegative = false) (hy : y.isNegative = false) : (x * y).isNegative = false := by
  have hproduct := mul_nonneg (nonneg_of_isNegative hx) (nonneg_of_isNegative hy)
  show (Binary64.mul x y).isNegative = false
  unfold Binary64.mul
  rw [hx, hy]
  dsimp only
  split
  · rfl
  · split
    · split <;> rfl
    · exact isNegative_signed hproduct

theorem isNegative_div (hx : x.isNegative = false) (hy : y.isNegative = false) : (x / y).isNegative = false := by
  have hquotient := div_nonneg (nonneg_of_isNegative hx) (nonneg_of_isNegative hy)
  show (Binary64.div x y).isNegative = false
  unfold Binary64.div
  rw [hx, hy]
  dsimp only
  split
  · rfl
  split
  · split <;> rfl
  split
  · rfl
  split
  · split <;> rfl
  · exact isNegative_signed hquotient

theorem isNegative_min (hx : x.isNegative = false) (hy : y.isNegative = false) :
    (Binary64.min x y).isNegative = false := by
  unfold Binary64.min
  split
  · exact hy
  · split
    · exact hy
    · exact hx

/-- A difference that is not below zero. -/
theorem Denotes.isNegative_sub (hx : x.Denotes p) (hy : y.Denotes q) (hsign : x.isNegative = false) (h : q ≤ p) :
    (x - y).isNegative = false := by
  cases hx with
  | negZero => cases hsign
  | finite p hp =>
    cases hy with
    | negZero =>
      show (ofRat (p + 0)).isNegative = false
      exact isNegative_ofRat (by linarith)
    | finite q hq =>
      show (Binary64.add (.finite p hp) (if q = 0 then Binary64.negZero else .finite (-q) _)).isNegative = false
      split
      · exact hsign
      · exact isNegative_ofRat (by linarith)

/-! ## Sums with nothing -/

theorem ofRat_eq_finite (h : Representable q) : ofRat q = finite q h := by
  have hexact := nearest_of_expressible h.expressible
  have hsmall := (Denotes.finite q h).abs_lt
  unfold ofRat
  rw [dif_pos (by rwa [rat_abs_eq_abs, hexact])]
  split
  · next hzero =>
    rw [hexact] at hzero
    subst hzero
    rfl
  · simp only [hexact]

theorem Denotes.add_of_denotes_zero (hx : x.Denotes p) (hsign : x.isNegative = false) (hy : y.Denotes 0) : x + y = x := by
  cases hx with
  | negZero => cases hsign
  | finite p hp =>
    cases hy with
    | negZero => rfl
    | finite =>
      show ofRat (p + 0) = _
      rw [add_zero, ofRat_eq_finite hp]

end Throttle.Binary64
