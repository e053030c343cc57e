import Throttle.Rounding

/-!
# Double-precision numbers as exact values

A finite value is the rational it stands for, together with the fact that the binary64 format has
it; the other values are the negative zero, the two infinities and the not-a-number. Each operation
computes the exact rational and rounds it once: to the nearest value of the format, of two equally
near ones to the one with the even significand, and beyond the largest to an infinity.

Main statement: `representable_nearest`, the rounded rational is one of the format unless it
overflows.
-/

set_option autoImplicit false

namespace Throttle

/-! ## The format -/

/-- The rationals of the format: a whole number below 2^53 in magnitude times a power of two. -/
def Representable (q : Rat) : Prop :=
  ∃ m e : Int, m.natAbs < 9007199254740992 ∧ -1074 ≤ e ∧ e ≤ 971 ∧ q = m * 2 ^ e

inductive Binary64 where
  | nan
  | infinity (negative : Bool)
  | negZero
  | finite (value : Rat) (representable : Representable value)
  deriving DecidableEq

/-! ## Rounding to the format -/

/-- The exponent of the last place that the format keeps of `q`. -/
def placeExponent (q : Rat) : Int :=
  max (binaryExponent q.abs - 52) (-1074)

/-- The multiple of the last place nearest to `q`, before any overflow. -/
def nearest (q : Rat) : Rat :=
  nearestInt (q / 2 ^ placeExponent q) * 2 ^ placeExponent q

theorem neg_abs_le_and_le_abs (q : Rat) : -q.abs ≤ q ∧ q ≤ q.abs := by
  rcases Rat.le_total (a := 0) (b := q) with h | h
  · rw [Rat.abs_of_nonneg h]
    grind
  · rw [Rat.abs_of_nonpos h]
    grind

/-- A significand never exceeds the carry of 53 one bits, 2^53. -/
theorem natAbs_significand_le (q : Rat) :
    (nearestInt (q / 2 ^ placeExponent q)).natAbs ≤ 9007199254740992 := by
  have hpos := two_zpow_pos (placeExponent q)
  have hbound : q.abs < 2 ^ (53 : Int) * 2 ^ placeExponent q := by
    rw [← two_zpow_add]
    rcases Rat.le_iff_lt_or_eq.1 (Rat.abs_nonneg (x := q)) with h | h
    · have h1 := lt_two_zpow_binaryExponent h
      have h2 : (2 : Rat) ^ (binaryExponent q.abs + 1) ≤ 2 ^ (53 + placeExponent q) :=
        two_zpow_le (by unfold placeExponent; omega)
      grind
    · rw [← h]
      exact two_zpow_pos _
  have ⟨hlow, hhigh⟩ := neg_abs_le_and_le_abs q
  have h53 : ((9007199254740992 : Int) : Rat) = 2 ^ (53 : Int) := by decide
  have up : nearestInt (q / 2 ^ placeExponent q) ≤ 9007199254740992 := by
    apply nearestInt_le
    rw [h53]
    exact Rat.le_of_lt ((Rat.div_lt_iff hpos).2 (by grind))
  have down : -9007199254740992 ≤ nearestInt (q / 2 ^ placeExponent q) := by
    apply le_nearestInt
    rw [Rat.intCast_neg, h53]
    exact Rat.le_of_lt ((Rat.lt_div_iff hpos).2 (by grind))
  omega

theorem abs_intCast_mul_zpow (m e : Int) :
    ((m : Rat) * 2 ^ e).abs = (m.natAbs : Rat) * 2 ^ e := by
  have hpos := Rat.le_of_lt (two_zpow_pos e)
  rw [← Rat.intCast_natCast]
  rcases Int.le_total 0 m with h | h
  · rw [Int.natAbs_of_nonneg h]
    exact Rat.abs_of_nonneg (Rat.mul_nonneg (Rat.intCast_nonneg.2 h) hpos)
  · rw [show ((m.natAbs : Int)) = -m by omega, Rat.intCast_neg, Rat.neg_mul]
    apply Rat.abs_of_nonpos
    have := Rat.mul_nonneg (Rat.intCast_nonneg.2 (show 0 ≤ -m by omega)) hpos
    rw [Rat.intCast_neg, Rat.neg_mul] at this
    grind

/-- A full significand keeps its top bit, 2^52, unless the last place is the smallest one. -/
theorem le_natAbs_significand {q : Rat} (hq : q ≠ 0) (h : -1074 < placeExponent q) :
    4503599627370496 ≤ (nearestInt (q / 2 ^ placeExponent q)).natAbs := by
  have hplace : placeExponent q = binaryExponent q.abs - 52 := by
    unfold placeExponent at h ⊢
    omega
  have hpos := two_zpow_pos (placeExponent q)
  have hne : 0 < q.abs := Rat.abs_pos_iff.2 hq
  have h1 : (2 : Rat) ^ (52 : Int) * 2 ^ placeExponent q ≤ q.abs := by
    rw [← two_zpow_add, hplace, show (52 : Int) + (binaryExponent q.abs - 52) = binaryExponent q.abs by omega]
    exact two_zpow_binaryExponent_le hne
  have h52 : ((4503599627370496 : Int) : Rat) = 2 ^ (52 : Int) := by decide
  rcases Rat.le_total (a := 0) (b := q) with hs | hs
  · rw [Rat.abs_of_nonneg hs] at h1
    have : 4503599627370496 ≤ nearestInt (q / 2 ^ placeExponent q) := by
      apply le_nearestInt
      rw [h52]
      apply Rat.not_lt.1
      rw [Rat.div_lt_iff hpos]
      grind
    omega
  · rw [Rat.abs_of_nonpos hs] at h1
    have : nearestInt (q / 2 ^ placeExponent q) ≤ -4503599627370496 := by
      apply nearestInt_le
      rw [Rat.intCast_neg, h52]
      apply Rat.not_lt.1
      rw [Rat.lt_div_iff hpos]
      grind
    omega

theorem representable_zero : Representable 0 :=
  ⟨0, 0, by decide, by decide, by decide, by rw [Rat.intCast_zero, Rat.zero_mul]⟩

theorem nearest_zero : nearest 0 = 0 := by
  have h : nearestInt ((0 : Rat) / 2 ^ placeExponent 0) = 0 := by
    rw [Rat.div_def, Rat.zero_mul]
    exact nearestInt_intCast 0
  rw [nearest, h, Rat.intCast_zero, Rat.zero_mul]

/-- A significand with so many bits leaves as many fewer to the exponent. -/
theorem bits_add_exponent_lt {m e : Int} {k : Nat} (h : ((m : Rat) * 2 ^ e).abs < 2 ^ (1024 : Int))
    (hk : Nat.pow 2 k ≤ m.natAbs) : (k : Int) + e < 1024 := by
  apply Int.not_le.1
  intro hlarge
  have htop := two_zpow_le hlarge
  rw [two_zpow_add] at htop
  have hbits : (2 : Rat) ^ (k : Int) ≤ (m.natAbs : Rat) := by
    rw [← natCast_two_pow]
    exact Rat.natCast_le_natCast.2 hk
  have hvalue := Rat.mul_le_mul_of_nonneg_right hbits (Rat.le_of_lt (two_zpow_pos e))
  rw [abs_intCast_mul_zpow] at h
  grind

theorem representable_nearest {q : Rat} (h : (nearest q).abs < 2 ^ (1024 : Int)) :
    Representable (nearest q) := by
  by_cases hq : q = 0
  · rw [hq, nearest_zero]
    exact representable_zero
  unfold nearest at h ⊢
  have hle := natAbs_significand_le q
  have htop := le_natAbs_significand hq
  have hmin : -1074 ≤ placeExponent q := by
    unfold placeExponent
    omega
  generalize nearestInt (q / 2 ^ placeExponent q) = m at *
  generalize placeExponent q = e at *
  rcases Nat.lt_or_eq_of_le hle with hlt | heq
  · refine ⟨m, e, hlt, hmin, ?_, rfl⟩
    rcases Int.lt_or_le (-1074) e with hbig | hsmall
    · have he : ((52 : Nat) : Int) + e < 1024 := bits_add_exponent_lt h (htop hbig)
      omega
    · omega
  · have he : ((53 : Nat) : Int) + e < 1024 := bits_add_exponent_lt h (Nat.le_of_eq heq.symm)
    refine ⟨m / 2, e + 1, by omega, by omega, by omega, ?_⟩
    rw [two_zpow_succ]
    have hm : (m : Rat) = ((m / 2 : Int) : Rat) * 2 := by
      rw [show (2 : Rat) = ((2 : Int) : Rat) from rfl, ← Rat.intCast_mul]
      congr 1
      omega
    grind

theorem representable_neg {q : Rat} (h : Representable q) : Representable (-q) := by
  obtain ⟨m, e, hm, hlow, hhigh, rfl⟩ := h
  exact ⟨-m, e, by omega, hlow, hhigh, by rw [Rat.intCast_neg, Rat.neg_mul]⟩

namespace Binary64

/-! ## Constants and views -/

def zero (negative : Bool) : Binary64 :=
  if negative then negZero else finite 0 representable_zero

instance : OfNat Binary64 0 where
  ofNat := finite 0 representable_zero

instance : Inhabited Binary64 where
  default := 0

def ofRat (q : Rat) : Binary64 :=
  if h : (nearest q).abs < 2 ^ (1024 : Int) then
    if nearest q = 0 then zero (q < 0) else finite (nearest q) (representable_nearest h)
  else infinity (q < 0)

def ofNat (n : Nat) : Binary64 :=
  ofRat n

/-- The rational that a finite value stands for; 0 for the others. -/
def toRat : Binary64 → Rat
  | finite q _ => q
  | _ => 0

def isNaN : Binary64 → Bool
  | nan => true
  | _ => false

def isInfinite : Binary64 → Bool
  | infinity _ => true
  | _ => false

def isZero : Binary64 → Bool
  | negZero => true
  | finite q _ => q = 0
  | _ => false

/-- The sign bit, false for the not-a-number. -/
def isNegative : Binary64 → Bool
  | nan => false
  | infinity negative => negative
  | negZero => true
  | finite q _ => q < 0

/-! ## Arithmetic -/

protected def neg : Binary64 → Binary64
  | nan => nan
  | infinity negative => infinity (!negative)
  | negZero => finite 0 representable_zero
  | finite q h => if q = 0 then negZero else finite (-q) (representable_neg h)

protected def add : Binary64 → Binary64 → Binary64
  | nan, _ => nan
  | _, nan => nan
  | infinity s, infinity t => if s = t then infinity s else nan
  | infinity s, _ => infinity s
  | _, infinity t => infinity t
  | negZero, y => y
  | x, negZero => x
  | finite p _, finite q _ => ofRat (p + q)

/-- An exact product or quotient, whose sign is known even where it is zero. -/
def signed (negative : Bool) (q : Rat) : Binary64 :=
  if q = 0 then zero negative else ofRat q

protected def mul (x y : Binary64) : Binary64 :=
  let negative := x.isNegative != y.isNegative
  if x.isNaN || y.isNaN then nan
  else if x.isInfinite || y.isInfinite then
    if x.isZero || y.isZero then nan else infinity negative
  else signed negative (x.toRat * y.toRat)

protected def div (x y : Binary64) : Binary64 :=
  let negative := x.isNegative != y.isNegative
  if x.isNaN || y.isNaN then nan
  else if x.isInfinite then
    if y.isInfinite then nan else infinity negative
  else if y.isInfinite then zero negative
  else if y.isZero then
    if x.isZero then nan else infinity negative
  else signed negative (x.toRat / y.toRat)

instance : Neg Binary64 := ⟨Binary64.neg⟩
instance : Add Binary64 := ⟨Binary64.add⟩
instance : Sub Binary64 := ⟨fun x y => x + -y⟩
instance : Mul Binary64 := ⟨Binary64.mul⟩
instance : Div Binary64 := ⟨Binary64.div⟩

/-! ## Order -/

/-- Strictly below; never so for a not-a-number. -/
protected def blt : Binary64 → Binary64 → Bool
  | nan, _ => false
  | _, nan => false
  | infinity s, infinity t => s && !t
  | infinity s, _ => s
  | _, infinity t => !t
  | x, y => x.toRat < y.toRat

/-- Below or equal, the two zeros being equal; never so for a not-a-number. -/
protected def ble : Binary64 → Binary64 → Bool
  | nan, _ => false
  | _, nan => false
  | infinity s, infinity t => s || !t
  | infinity s, _ => s
  | _, infinity t => !t
  | x, y => x.toRat ≤ y.toRat

instance : LT Binary64 := ⟨fun x y => x.blt y⟩
instance : LE Binary64 := ⟨fun x y => x.ble y⟩

instance (x y : Binary64) : Decidable (x < y) := inferInstanceAs (Decidable (x.blt y = true))
instance (x y : Binary64) : Decidable (x ≤ y) := inferInstanceAs (Decidable (x.ble y = true))

/-- The smaller of two values, and the other one beside a not-a-number. -/
protected def min (x y : Binary64) : Binary64 :=
  if x.isNaN then y
  else if y < x then y
  else x

/-- The greater of two values, and the other one beside a not-a-number. -/
protected def max (x y : Binary64) : Binary64 :=
  if x.isNaN then y
  else if x < y then y
  else x

/-- `x` moved into the interval from `low` to `high`; a not-a-number stays what it is. -/
def clamp (low high x : Binary64) : Binary64 :=
  if x < low then low
  else if high < x then high
  else x

end Binary64

end Throttle
