import Throttle.Proofs.Binary64.Nearest

/-!
# What the operations denote

A finite number denotes one rational, both zeros denoting 0. Between finite numbers each operation
denotes the exact result rounded once, unless that overflows, and the order is the order of the
rationals denoted.
-/

set_option autoImplicit false

namespace Throttle.Binary64

/-- `x` is finite and its exact value is `q`. -/
inductive Denotes : Binary64 → ℚ → Prop where
  | negZero : Denotes negZero 0
  | finite (q : ℚ) (h : Representable q) : Denotes (finite q h) q

variable {x y : Binary64} {p q : ℚ}

/-! ## Views -/

theorem Denotes.representable (h : x.Denotes q) : Representable q := by
  cases h with
  | negZero => exact representable_zero
  | finite q h => exact h

theorem Denotes.expressible (h : x.Denotes q) : Expressible q :=
  h.representable.expressible

theorem Denotes.toRat_eq (h : x.Denotes q) : x.toRat = q := by
  cases h <;> rfl

theorem Denotes.isNaN_eq (h : x.Denotes q) : x.isNaN = false := by
  cases h <;> rfl

theorem Denotes.isInfinite_eq (h : x.Denotes q) : x.isInfinite = false := by
  cases h <;> rfl

theorem Denotes.isZero_iff (h : x.Denotes q) : x.isZero = true ↔ q = 0 := by
  cases h with
  | negZero => exact ⟨fun _ => rfl, fun _ => rfl⟩
  | finite q h => exact decide_eq_true_iff

theorem Denotes.unique (hp : x.Denotes p) (hq : x.Denotes q) : p = q :=
  hp.toRat_eq.symm.trans hq.toRat_eq

theorem denotes_zero (negative : Bool) : (zero negative).Denotes 0 := by
  cases negative with
  | true => exact .negZero
  | false => exact .finite 0 _

theorem denotes_ofNat_zero : (0 : Binary64).Denotes 0 :=
  .finite 0 _

/-! ## Rounded results -/

theorem Denotes.abs_lt (h : x.Denotes q) : |q| < 2 ^ (1024 : ℤ) := by
  obtain ⟨m, e, hm, _, he, rfl⟩ := h.representable
  have hm' : |(m : ℚ)| < 2 ^ (53 : ℤ) := by
    have h : |m| < 9007199254740992 := by
      rw [Int.abs_eq_natAbs]
      omega
    calc |(m : ℚ)| = ((|m| : ℤ) : ℚ) := (Int.cast_abs).symm
      _ < ((9007199254740992 : ℤ) : ℚ) := Int.cast_lt.2 h
      _ = 2 ^ (53 : ℤ) := by norm_num
  rw [abs_mul, abs_of_pos (two_zpow_pos e)]
  calc |(m : ℚ)| * 2 ^ e < 2 ^ (53 : ℤ) * 2 ^ e := mul_lt_mul_of_pos_right hm' (two_zpow_pos e)
    _ = 2 ^ (53 + e) := (two_zpow_add 53 e).symm
    _ ≤ 2 ^ (1024 : ℤ) := zpow_le_zpow_right₀ one_le_two (by omega)

theorem denotes_ofRat (h : |nearest q| < 2 ^ (1024 : ℤ)) : (ofRat q).Denotes (nearest q) := by
  unfold ofRat
  rw [dif_pos (by rwa [rat_abs_eq_abs])]
  split
  · next hzero =>
    rw [hzero]
    exact denotes_zero _
  · exact .finite _ _

theorem ofRat_eq_infinity (h : 2 ^ (1024 : ℤ) ≤ |nearest q|) : ofRat q = infinity (q < 0) := by
  unfold ofRat
  rw [dif_neg (by rwa [rat_abs_eq_abs, not_lt])]

theorem denotes_signed {negative : Bool} (h : |nearest q| < 2 ^ (1024 : ℤ)) :
    (signed negative q).Denotes (nearest q) := by
  unfold signed
  split
  · next hzero =>
    rw [hzero, nearest_zero]
    exact denotes_zero _
  · exact denotes_ofRat h

/-! ## Arithmetic -/

theorem Denotes.neg (h : x.Denotes q) : (-x).Denotes (-q) := by
  cases h with
  | negZero =>
    rw [neg_zero]
    exact .finite 0 _
  | finite q h =>
    show (if q = 0 then Binary64.negZero else .finite (-q) _).Denotes (-q)
    split
    · next hzero =>
      rw [hzero, neg_zero]
      exact .negZero
    · exact .finite _ _

theorem Denotes.add (hx : x.Denotes p) (hy : y.Denotes q) (h : |nearest (p + q)| < 2 ^ (1024 : ℤ)) :
    (x + y).Denotes (nearest (p + q)) := by
  cases hx with
  | negZero =>
    rw [zero_add, nearest_of_expressible hy.expressible]
    cases hy with
    | negZero => exact .negZero
    | finite q hq => exact .finite q hq
  | finite p hp =>
    cases hy with
    | negZero =>
      rw [add_zero, nearest_of_expressible hp.expressible]
      exact .finite p hp
    | finite q hq => exact denotes_ofRat h

theorem Denotes.sub (hx : x.Denotes p) (hy : y.Denotes q) (h : |nearest (p - q)| < 2 ^ (1024 : ℤ)) :
    (x - y).Denotes (nearest (p - q)) := by
  rw [sub_eq_add_neg] at h ⊢
  exact hx.add hy.neg h

theorem ofRat_zero : ofRat 0 = 0 := by
  unfold ofRat
  rw [dif_pos (by rw [rat_abs_eq_abs, nearest_zero, abs_zero]; exact two_zpow_pos _), if_pos nearest_zero]
  rfl

theorem Denotes.sub_self (hx : x.Denotes p) : x - x = 0 := by
  cases hx with
  | negZero => rfl
  | finite p hp =>
    show Binary64.finite p hp + (if p = 0 then Binary64.negZero else .finite (-p) _) = 0
    split
    · next hzero =>
      subst hzero
      rfl
    · show ofRat (p + -p) = 0
      rw [add_neg_cancel, ofRat_zero]

theorem Denotes.mul_eq (hx : x.Denotes p) (hy : y.Denotes q) :
    x * y = signed (x.isNegative != y.isNegative) (p * q) := by
  show Binary64.mul x y = _
  unfold Binary64.mul
  simp only [hx.isNaN_eq, hy.isNaN_eq, hx.isInfinite_eq, hy.isInfinite_eq, hx.toRat_eq, hy.toRat_eq,
    Bool.or_false, Bool.false_eq_true, if_false]

theorem Denotes.div_eq (hx : x.Denotes p) (hy : y.Denotes q) (hq : q ≠ 0) :
    x / y = signed (x.isNegative != y.isNegative) (p / q) := by
  have hzero : y.isZero = false := by
    rw [← Bool.not_eq_true, hy.isZero_iff]
    exact hq
  show Binary64.div x y = _
  unfold Binary64.div
  simp only [hx.isNaN_eq, hy.isNaN_eq, hx.isInfinite_eq, hy.isInfinite_eq, hx.toRat_eq, hy.toRat_eq,
    hzero, Bool.or_false, Bool.false_eq_true, if_false]

theorem Denotes.div (hx : x.Denotes p) (hy : y.Denotes q) (hq : q ≠ 0)
    (h : |nearest (p / q)| < 2 ^ (1024 : ℤ)) : (x / y).Denotes (nearest (p / q)) := by
  rw [hx.div_eq hy hq]
  exact denotes_signed h

/-! ## Order -/

theorem Denotes.lt_iff (hx : x.Denotes p) (hy : y.Denotes q) : x < y ↔ p < q := by
  show x.blt y = true ↔ p < q
  cases hx <;> cases hy <;> simp only [Binary64.blt, toRat] <;> exact decide_eq_true_iff

theorem Denotes.le_iff (hx : x.Denotes p) (hy : y.Denotes q) : x ≤ y ↔ p ≤ q := by
  show x.ble y = true ↔ p ≤ q
  cases hx <;> cases hy <;> simp only [Binary64.ble, toRat] <;> exact decide_eq_true_iff

theorem shape (x : Binary64) : x = nan ∨ x = infinity true ∨ x = infinity false ∨ ∃ q, x.Denotes q := by
  cases x with
  | nan => exact .inl rfl
  | infinity negative => cases negative <;> simp
  | negZero => exact .inr (.inr (.inr ⟨0, .negZero⟩))
  | finite q h => exact .inr (.inr (.inr ⟨q, .finite q h⟩))

theorem le_cases (h : x ≤ y) :
    x = infinity true ∨ y = infinity false ∨ ∃ p q, x.Denotes p ∧ y.Denotes q ∧ p ≤ q := by
  rcases x.shape with rfl | rfl | rfl | ⟨p, hp⟩
  · cases h
  · exact .inl rfl
  · rcases y.shape with rfl | rfl | rfl | ⟨q, hq⟩
    · cases h
    · cases h
    · exact .inr (.inl rfl)
    · cases hq <;> cases h
  · rcases y.shape with rfl | rfl | rfl | ⟨q, hq⟩
    · cases hp <;> cases h
    · cases hp <;> cases h
    · exact .inr (.inl rfl)
    · exact .inr (.inr ⟨p, q, hp, hq, (hp.le_iff hq).1 h⟩)

theorem Denotes.min (hx : x.Denotes p) (hy : y.Denotes q) : (Binary64.min x y).Denotes (min p q) := by
  unfold Binary64.min
  rw [hx.isNaN_eq, if_neg Bool.false_ne_true]
  split
  · next h =>
    rw [min_eq_right (le_of_lt ((hy.lt_iff hx).1 h))]
    exact hy
  · next h =>
    rw [hy.lt_iff hx, not_lt] at h
    rw [min_eq_left h]
    exact hx

theorem Denotes.min_eq_left (hx : x.Denotes p) (hy : y.Denotes q) (h : p ≤ q) : Binary64.min x y = x := by
  unfold Binary64.min
  rw [hx.isNaN_eq, if_neg Bool.false_ne_true, if_neg (by rw [hy.lt_iff hx, not_lt]; exact h)]

theorem Denotes.lt_infinity (hx : x.Denotes p) : x < infinity false := by
  cases hx <;> rfl

theorem not_nan_lt (y : Binary64) : ¬ nan < y :=
  Bool.false_ne_true

theorem not_lt_nan (x : Binary64) : ¬ x < nan := by
  cases x <;> exact Bool.false_ne_true

theorem nan_min (y : Binary64) : Binary64.min nan y = y := rfl

theorem Denotes.infinity_min (hy : y.Denotes q) : Binary64.min (infinity false) y = y := by
  cases hy <;> rfl

/-! ## Overflow -/

/-- `x` denotes `q`, or it is the infinity in place of a `q` above all finite numbers. -/
def Saturates (x : Binary64) (q : ℚ) : Prop :=
  x.Denotes q ∨ x = infinity false ∧ 2 ^ (1024 : ℤ) ≤ q

theorem Denotes.saturates (h : x.Denotes q) : x.Saturates q := .inl h

theorem saturates_ofRat (hq : 0 ≤ q) : (ofRat q).Saturates (nearest q) := by
  rcases lt_or_ge |nearest q| (2 ^ (1024 : ℤ)) with h | h
  · exact .inl (denotes_ofRat h)
  · rw [abs_of_nonneg (nearest_nonneg hq)] at h
    refine .inr ⟨?_, h⟩
    rw [ofRat_eq_infinity (by rwa [abs_of_nonneg (nearest_nonneg hq)])]
    simp [not_lt.2 hq]

theorem saturates_signed {negative : Bool} (hq : 0 ≤ q) : (signed negative q).Saturates (nearest q) := by
  unfold signed
  split
  · next hzero =>
    rw [hzero, nearest_zero]
    exact (denotes_zero _).saturates
  · exact saturates_ofRat hq

theorem Denotes.mul_saturates (hx : x.Denotes p) (hy : y.Denotes q) (h : 0 ≤ p * q) :
    (x * y).Saturates (nearest (p * q)) := by
  rw [hx.mul_eq hy]
  exact saturates_signed h

theorem Denotes.div_saturates (hx : x.Denotes p) (hy : y.Denotes q) (hq : q ≠ 0) (h : 0 ≤ p / q) :
    (x / y).Saturates (nearest (p / q)) := by
  rw [hx.div_eq hy hq]
  exact saturates_signed h

theorem Denotes.add_saturates (hx : x.Denotes p) (hy : y.Saturates q) (hp : 0 ≤ p) (hq : 0 ≤ q) :
    (x + y).Saturates (nearest (p + q)) := by
  rcases hy with hy | ⟨rfl, hlarge⟩
  · rcases lt_or_ge |nearest (p + q)| (2 ^ (1024 : ℤ)) with h | h
    · exact .inl (hx.add hy h)
    · cases hx with
      | negZero =>
        rw [zero_add, nearest_of_expressible hy.expressible] at h
        exact absurd hy.abs_lt (not_lt.2 h)
      | finite p hp' =>
        cases hy with
        | negZero =>
          rw [add_zero, nearest_of_expressible hp'.expressible] at h
          exact absurd (Denotes.finite p hp').abs_lt (not_lt.2 h)
        | finite q hq' => exact saturates_ofRat (add_nonneg hp hq)
  · refine .inr ⟨by cases hx <;> rfl, ?_⟩
    apply le_nearest_of_le (expressible_zpow (by omega))
    linarith

theorem Saturates.min (hx : x.Saturates p) (hy : y.Denotes q) : (Binary64.min x y).Denotes (min p q) := by
  rcases hx with hx | ⟨rfl, hlarge⟩
  · exact hx.min hy
  · have hq := (le_abs_self q).trans_lt hy.abs_lt
    rw [hy.infinity_min, min_eq_right (le_of_lt (hq.trans_le hlarge))]
    exact hy

theorem Saturates.denotes (h : x.Saturates q) (hq : q < 2 ^ (1024 : ℤ)) : x.Denotes q :=
  h.resolve_right fun hlarge => absurd hq (not_lt.2 hlarge.2)

theorem Saturates.ne_nan (h : x.Saturates q) : x ≠ nan := by
  rcases h with h | ⟨rfl, -⟩
  · cases h <;> exact Binary64.noConfusion
  · exact Binary64.noConfusion

theorem Saturates.le_infinity (h : x.Saturates q) : x ≤ infinity false := by
  rcases h with h | ⟨rfl, -⟩
  · cases h <;> rfl
  · rfl

theorem Saturates.le (hx : x.Saturates p) (hy : y.Saturates q) (h : p ≤ q) : x ≤ y := by
  rcases hy with hy | ⟨rfl, -⟩
  · rcases hx with hx | ⟨rfl, hlarge⟩
    · exact (hx.le_iff hy).2 h
    · exact absurd hy.abs_lt (not_lt.2 ((hlarge.trans h).trans (le_abs_self q)))
  · exact hx.le_infinity

/-! ## Counts -/

theorem two_pow_64_eq : ((18446744073709551616 : ℕ) : ℚ) = 2 ^ (64 : ℤ) := by
  norm_num

theorem nearest_word_le (n : UInt64) : nearest n.toNat ≤ 2 ^ (64 : ℤ) := by
  apply nearest_le_of_le (expressible_zpow (by omega))
  rw [← two_pow_64_eq]
  exact_mod_cast le_of_lt n.toNat_lt

theorem denotes_word (n : UInt64) : (ofNat n.toNat).Denotes (nearest n.toNat) := by
  apply denotes_ofRat
  rw [abs_of_nonneg (nearest_nonneg (Nat.cast_nonneg _))]
  exact (nearest_word_le n).trans_lt (zpow_lt_zpow_right₀ one_lt_two (by omega))

end Throttle.Binary64
