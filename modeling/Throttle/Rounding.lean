/-!
# Nearest integers and binary exponents of rationals

Two functions on exact rationals from which every rounding of the library is built: the nearest
integer, where a half goes to the even neighbour, and the exponent of the power of two at or below
a positive rational. Main statements: `nearestInt` stays between integer bounds and fixes integers,
and `two_zpow_binaryExponent_le` with `lt_two_zpow_binaryExponent` fix the exponent.
-/

set_option autoImplicit false

namespace Throttle

/-! ## Powers of two -/

theorem two_zpow_pos (e : Int) : (0 : Rat) < 2 ^ e :=
  Rat.zpow_pos (by decide)

theorem two_zpow_ne_zero (e : Int) : (2 : Rat) ^ e ≠ 0 :=
  Rat.ne_of_gt (two_zpow_pos e)

theorem two_zpow_add (a b : Int) : (2 : Rat) ^ (a + b) = 2 ^ a * 2 ^ b :=
  Rat.zpow_add (by decide) a b

theorem two_zpow_succ (a : Int) : (2 : Rat) ^ (a + 1) = 2 * 2 ^ a := by
  rw [two_zpow_add, Rat.zpow_one, Rat.mul_comm]

theorem two_zpow_sub_mul (a b : Int) : (2 : Rat) ^ (a - b) * 2 ^ b = 2 ^ a := by
  rw [← two_zpow_add, Int.sub_add_cancel]

theorem natCast_two_pow (n : Nat) : ((Nat.pow 2 n : Nat) : Rat) = 2 ^ (n : Int) :=
  (Rat.natCast_pow 2 n).trans (Rat.zpow_natCast 2 n).symm

-- The format is built on core alone, which does not order the powers of a rational. Where the whole
-- library is at hand this is `zpow_le_zpow_right₀`.
theorem two_zpow_le {a b : Int} (h : a ≤ b) : (2 : Rat) ^ a ≤ 2 ^ b := by
  have hone : (1 : Rat) ≤ 2 ^ (b - a) := by
    rw [← Int.toNat_of_nonneg (Int.sub_nonneg_of_le h), ← natCast_two_pow]
    exact Rat.natCast_le_natCast.2 Nat.one_le_two_pow
  have hscaled := Rat.mul_le_mul_of_nonneg_right hone (Rat.le_of_lt (two_zpow_pos a))
  rwa [Rat.one_mul, two_zpow_sub_mul] at hscaled

/-! ## The nearest integer -/

/-- The integer nearest to `q`; of two equally near ones, the even one. -/
def nearestInt (q : Rat) : Int :=
  let below := q.floor
  let twice := 2 * (q - below)
  if twice < 1 then below
  else if 1 < twice then below + 1
  else if below % 2 = 0 then below else below + 1

theorem floor_le_and_lt (q : Rat) : (q.floor : Rat) ≤ q ∧ q < (q.floor : Rat) + 1 := by
  refine ⟨Rat.floor_le q, ?_⟩
  have h := Rat.lt_floor_add_one q
  rwa [Rat.intCast_add, Rat.intCast_one] at h

theorem nearestInt_eq_floor_or (q : Rat) :
    (nearestInt q = q.floor ∧ 2 * (q - q.floor) ≤ 1) ∨
      (nearestInt q = q.floor + 1 ∧ 1 ≤ 2 * (q - q.floor)) := by
  unfold nearestInt
  grind

theorem nearestInt_intCast (n : Int) : nearestInt (n : Rat) = n := by
  unfold nearestInt
  rw [Rat.floor_intCast]
  grind

theorem le_nearestInt {n : Int} {q : Rat} (h : (n : Rat) ≤ q) : n ≤ nearestInt q := by
  have hf : n ≤ q.floor := Rat.le_floor_iff.2 h
  rcases nearestInt_eq_floor_or q with ⟨e, _⟩ | ⟨e, _⟩ <;> omega

theorem nearestInt_le {n : Int} {q : Rat} (h : q ≤ (n : Rat)) : nearestInt q ≤ n := by
  have hf : q.floor ≤ n := by
    have := Rat.floor_monotone h
    rwa [Rat.floor_intCast] at this
  rcases nearestInt_eq_floor_or q with ⟨e, _⟩ | ⟨e, hhalf⟩
  · omega
  · rcases Int.lt_or_eq_of_le hf with hlt | heq
    · omega
    · have hcast : (q.floor : Rat) = n := by rw [heq]
      grind

/-! ## The binary exponent -/

/-- The exponent of the greatest power of two at or below a positive `q`. -/
def binaryExponent (q : Rat) : Int :=
  let guess : Int := (q.num.natAbs.log2 : Int) - (q.den.log2 : Int)
  if 2 ^ guess ≤ q then guess else guess - 1

theorem two_zpow_log2_le {n : Nat} (h : n ≠ 0) : (2 : Rat) ^ (n.log2 : Int) ≤ n := by
  rw [← natCast_two_pow]
  exact Rat.natCast_le_natCast.2 (Nat.log2_self_le h)

theorem lt_two_zpow_log2 (n : Nat) : (n : Rat) < 2 ^ ((n.log2 : Int) + 1) := by
  rw [← Int.natCast_add_one, ← natCast_two_pow]
  exact Rat.natCast_lt_natCast.2 Nat.lt_log2_self

theorem mul_den_eq_natAbs_num {q : Rat} (hq : 0 < q) : q * q.den = q.num.natAbs := by
  have hden : (q.den : Rat) ≠ 0 := Rat.ne_of_gt (Rat.natCast_pos.2 q.den_pos)
  have hvalue : (q.num : Rat) / q.den = q := by
    rw [← Rat.intCast_natCast, ← Rat.divInt_eq_div, Rat.num_divInt_den]
  rw [← Rat.intCast_natCast q.num.natAbs, Int.natAbs_of_nonneg (Rat.num_nonneg.2 (Rat.le_of_lt hq))]
  calc q * q.den = (q.num : Rat) / q.den * q.den := by rw [hvalue]
    _ = q.num := Rat.div_mul_cancel hden

/-- A quotient lies above the quotient of powers below its numerator and above its denominator. -/
theorem two_zpow_sub_lt {q d : Rat} {a b : Int} (hd : 0 < d) (hnum : 2 ^ a ≤ q * d) (hden : d < 2 ^ b) :
    (2 : Rat) ^ (a - b) < q := by
  have hscaled := Rat.mul_lt_mul_of_pos_left hden (two_zpow_pos (a - b))
  rw [two_zpow_sub_mul] at hscaled
  exact Rat.lt_of_mul_lt_mul_right (Std.lt_of_lt_of_le hscaled hnum) (Rat.le_of_lt hd)

theorem lt_two_zpow_sub {q d : Rat} {a b : Int} (hd : 0 < d) (hnum : q * d < 2 ^ a) (hden : 2 ^ b ≤ d) :
    q < (2 : Rat) ^ (a - b) := by
  have hscaled := Rat.mul_le_mul_of_nonneg_left hden (Rat.le_of_lt (two_zpow_pos (a - b)))
  rw [two_zpow_sub_mul] at hscaled
  exact Rat.lt_of_mul_lt_mul_right (Std.lt_of_lt_of_le hnum hscaled) (Rat.le_of_lt hd)

theorem binaryExponent_bounds {q : Rat} (hq : 0 < q) :
    (2 : Rat) ^ binaryExponent q ≤ q ∧ q < 2 ^ (binaryExponent q + 1) := by
  have hden : (0 : Rat) < q.den := Rat.natCast_pos.2 q.den_pos
  have hnum : q.num.natAbs ≠ 0 := Int.natAbs_ne_zero.2 (mt Rat.num_eq_zero.1 (Rat.ne_of_gt hq))
  have hvalue := mul_den_eq_natAbs_num hq
  have low : (2 : Rat) ^ ((q.num.natAbs.log2 : Int) - (q.den.log2 + 1)) < q :=
    two_zpow_sub_lt hden (by rw [hvalue]; exact two_zpow_log2_le hnum) (lt_two_zpow_log2 q.den)
  have high : q < (2 : Rat) ^ ((q.num.natAbs.log2 : Int) + 1 - q.den.log2) :=
    lt_two_zpow_sub hden (by rw [hvalue]; exact lt_two_zpow_log2 _) (two_zpow_log2_le q.den_nz)
  unfold binaryExponent
  dsimp only
  split
  · next h =>
    rw [show ((q.num.natAbs.log2 : Int) - q.den.log2 + 1) = q.num.natAbs.log2 + 1 - q.den.log2 by omega]
    exact ⟨h, high⟩
  · next h =>
    rw [Int.sub_add_cancel, Int.sub_sub]
    exact ⟨Rat.le_of_lt low, Rat.not_le.1 h⟩

theorem two_zpow_binaryExponent_le {q : Rat} (hq : 0 < q) : (2 : Rat) ^ binaryExponent q ≤ q :=
  (binaryExponent_bounds hq).1

theorem lt_two_zpow_binaryExponent {q : Rat} (hq : 0 < q) :
    q < (2 : Rat) ^ (binaryExponent q + 1) :=
  (binaryExponent_bounds hq).2

end Throttle
