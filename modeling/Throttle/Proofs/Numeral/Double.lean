import Throttle.Numeral.Decimal
import Throttle.Proofs.Binary64.Denotation
import Throttle.Proofs.Numeral.Grammar

/-!
# What the text of a double-precision number denotes

Digits with or without a point, perhaps an exponent, behind an optional sign, or one of the names. Such
a text denotes its exact value rounded once; that numbers far outside the format are not worked out by
the reader makes no difference. Main statement: `binary64?_eq_some_iff`.
-/

set_option autoImplicit false

namespace Throttle.Numeral

/-! ## The grammar -/

/-- Digits, of which the last ones may be behind a point. -/
inductive Mantissa : List Char → (digits places : ℕ) → Prop where
  | whole {cs : List Char} {n : ℕ} (h : Digits cs n) : Mantissa cs n 0
  | pointed {front back : List Char} {n : ℕ} (h : Digits (front ++ back) n) :
    Mantissa (front ++ '.' :: back) n back.length

inductive Exponent : List Char → ℤ → Prop where
  | absent : Exponent [] 0
  | marked {mark : Char} {cs : List Char} {e : ℤ} (hmark : mark = 'e' ∨ mark = 'E') (h : Signed cs e) :
    Exponent (mark :: cs) e

/-- A number without a sign, and its exact value. -/
inductive Positional : List Char → ℚ → Prop where
  | mk {mantissa exponent : List Char} {n places : ℕ} {e : ℤ} (hmantissa : Mantissa mantissa n places)
    (hexponent : Exponent exponent e) : Positional (mantissa ++ exponent) (n * 10 ^ (e - places))

/-- What follows a sign; the names are in letters of any case. -/
inductive Magnitude (negative : Bool) : List Char → Binary64 → Prop where
  | number {cs : List Char} {q : ℚ} (h : Positional cs q) :
    Magnitude negative cs (.signed negative (if negative then -q else q))
  | infinity {cs : List Char}
    (h : cs.map Char.toLower = "inf".toList ∨ cs.map Char.toLower = "infinity".toList) :
    Magnitude negative cs (.infinity negative)
  | nan {cs : List Char} (h : cs.map Char.toLower = "nan".toList) : Magnitude negative cs .nan

inductive Double : List Char → Binary64 → Prop where
  | bare {cs : List Char} {x : Binary64} (h : Magnitude false cs x) : Double cs x
  | plus {cs : List Char} {x : Binary64} (h : Magnitude false cs x) : Double ('+' :: cs) x
  | minus {cs : List Char} {x : Binary64} (h : Magnitude true cs x) : Double ('-' :: cs) x

/-! ## Numbers far outside the format -/

theorem ofRat_of_large {q : ℚ} (h : 2 ^ (1024 : ℤ) ≤ |q|) : Binary64.ofRat q = .infinity (q < 0) := by
  have hpower : Expressible (2 ^ (1024 : ℤ)) := expressible_zpow (by decide)
  have hopposite : Expressible (-2 ^ (1024 : ℤ)) :=
    ⟨-1, 1024, by decide, by decide, by rw [Int.cast_neg, Int.cast_one, neg_one_mul]⟩
  apply Binary64.ofRat_eq_infinity
  rcases le_total 0 q with hq | hq
  · rw [abs_of_nonneg hq] at h
    exact (le_nearest_of_le hpower h).trans (le_abs_self _)
  · rw [abs_of_nonpos hq] at h
    have hle := nearest_le_of_le hopposite (show q ≤ -2 ^ (1024 : ℤ) by linarith)
    exact (le_neg.1 hle).trans (neg_le_abs _)

theorem nearest_of_small {q : ℚ} (h : |q| < 2 ^ (-1075 : ℤ)) : nearest q = 0 := by
  have hclose := abs_nearest_sub_le_of_expressible representable_zero.expressible q
  rw [zero_sub, abs_neg] at hclose
  have hdouble : (2 : ℚ) ^ (-1074 : ℤ) = 2 * 2 ^ (-1075 : ℤ) := by
    rw [← two_zpow_succ]
    rfl
  have hlt : |nearest q| < 2 ^ (-1074 : ℤ) := by
    have htri := abs_sub_abs_le_abs_sub (nearest q) q
    rw [hdouble]
    linarith
  -- the only multiple of the smallest value that is below it
  obtain ⟨n, hn⟩ := (expressible_nearest q).onGrid
  rw [hn, abs_mul, abs_of_pos (two_zpow_pos _), mul_lt_iff_lt_one_left (two_zpow_pos _)] at hlt
  have hzero : n = 0 := by
    rw [← Int.abs_lt_one_iff]
    exact_mod_cast hlt
  rw [hn, hzero, Int.cast_zero, zero_mul]

theorem ofRat_of_small {q : ℚ} (h : |q| < 2 ^ (-1075 : ℤ)) : Binary64.ofRat q = .zero (q < 0) := by
  have hzero := nearest_of_small h
  unfold Binary64.ofRat
  rw [dif_pos (by rw [hzero]; exact two_zpow_pos _), if_pos hzero]

/-! ## Decimals -/

namespace Decimal

variable {d : Decimal}

theorem width_pos (n : ℕ) : 0 < width n :=
  Nat.length_toDigits_pos

theorem lt_ten_pow_width (n : ℕ) : n < 10 ^ width n :=
  (Nat.length_toDigits_le_iff (by decide) (width_pos n)).1 (le_refl _)

theorem ten_pow_width_le {n : ℕ} (hn : n ≠ 0) : 10 ^ (width n - 1) ≤ n := by
  rcases Nat.eq_zero_or_pos (width n - 1) with h | h
  · rw [h, pow_zero]
    exact Nat.one_le_iff_ne_zero.2 hn
  · rw [← not_lt, ← Nat.length_toDigits_le_iff (by decide) h]
    have hpos := width_pos n
    unfold width at h hpos ⊢
    omega

theorem toRat_eq_zero_iff : d.toRat = 0 ↔ d.digits = 0 := by
  have hpow : (10 : ℚ) ^ d.exponent ≠ 0 := zpow_ne_zero _ (by norm_num)
  rw [toRat, mul_eq_zero, Nat.cast_eq_zero, or_iff_left hpow]

theorem toRat_nonneg : 0 ≤ d.toRat :=
  mul_nonneg (Nat.cast_nonneg _) (zpow_nonneg (by norm_num) _)

theorem le_toRat (hd : d.digits ≠ 0) : (10 : ℚ) ^ ((width d.digits : ℤ) + d.exponent - 1) ≤ d.toRat := by
  have hdigits : (10 : ℚ) ^ ((width d.digits : ℤ) - 1) ≤ d.digits := by
    have hpos := width_pos d.digits
    have hcast : (width d.digits : ℤ) - 1 = ((width d.digits - 1 : ℕ) : ℤ) := by omega
    rw [hcast, zpow_natCast]
    exact_mod_cast ten_pow_width_le hd
  rw [show (width d.digits : ℤ) + d.exponent - 1 = (width d.digits - 1) + d.exponent by ring,
    zpow_add₀ (by norm_num)]
  exact mul_le_mul_of_nonneg_right hdigits (zpow_nonneg (by norm_num) _)

theorem toRat_lt : d.toRat < (10 : ℚ) ^ ((width d.digits : ℤ) + d.exponent) := by
  rw [zpow_add₀ (by norm_num), zpow_natCast]
  refine mul_lt_mul_of_pos_right ?_ (zpow_pos (by norm_num) _)
  exact_mod_cast lt_ten_pow_width d.digits

theorem two_pow_1024_le : (2 : ℕ) ^ 1024 ≤ 10 ^ 310 := by decide +kernel

theorem two_pow_1075_le : (2 : ℕ) ^ 1075 ≤ 10 ^ 330 := by decide +kernel

theorem toRat_large (hd : d.digits ≠ 0) (h : 310 < (width d.digits : ℤ) + d.exponent) :
    2 ^ (1024 : ℤ) ≤ d.toRat :=
  calc (2 : ℚ) ^ (1024 : ℤ) ≤ 10 ^ (310 : ℤ) := by exact_mod_cast two_pow_1024_le
    _ ≤ 10 ^ ((width d.digits : ℤ) + d.exponent - 1) := zpow_le_zpow_right₀ (by norm_num) (by omega)
    _ ≤ d.toRat := le_toRat hd

theorem toRat_small (h : (width d.digits : ℤ) + d.exponent < -330) : d.toRat < 2 ^ (-1075 : ℤ) :=
  calc d.toRat < 10 ^ ((width d.digits : ℤ) + d.exponent) := toRat_lt
    _ ≤ 10 ^ (-330 : ℤ) := zpow_le_zpow_right₀ (by norm_num) (by omega)
    _ ≤ 2 ^ (-1075 : ℤ) := by
      rw [zpow_neg, zpow_neg]
      refine inv_anti₀ (two_zpow_pos _) ?_
      exact_mod_cast two_pow_1075_le

/-- The exact value with the sign, rounded once. -/
theorem toBinary64_eq (negative : Bool) (d : Decimal) :
    d.toBinary64 negative = .signed negative (if negative then -d.toRat else d.toRat) := by
  have hnonneg : 0 ≤ d.toRat := toRat_nonneg
  have habs : |if negative then -d.toRat else d.toRat| = d.toRat := by
    split
    · rw [abs_neg, abs_of_nonneg hnonneg]
    · exact abs_of_nonneg hnonneg
  by_cases hd : d.digits = 0
  · have hzero : (if negative then -d.toRat else d.toRat) = 0 := by
      rw [← abs_eq_zero, habs, toRat_eq_zero_iff.2 hd]
    rw [hzero, Binary64.signed, if_pos rfl, toBinary64, if_pos hd]
  · have hne : (if negative then -d.toRat else d.toRat) ≠ 0 := by
      rw [← abs_ne_zero, habs]
      exact mt toRat_eq_zero_iff.1 hd
    have hsign : decide ((if negative then -d.toRat else d.toRat) < 0) = negative := by
      have hpos : 0 < d.toRat := lt_of_le_of_ne hnonneg (Ne.symm (mt toRat_eq_zero_iff.1 hd))
      cases negative with
      | true => exact decide_eq_true (neg_lt_zero.2 hpos)
      | false => exact decide_eq_false (not_lt.2 hnonneg)
    rw [Binary64.signed, if_neg hne, toBinary64, if_neg hd]
    split
    · next htop =>
      rw [ofRat_of_large (by rw [habs]; exact toRat_large hd htop), hsign]
    · split
      · next htop =>
        rw [ofRat_of_small (by rw [habs]; exact toRat_small htop), hsign]
      · rfl

end Decimal

/-! ## Reading without a sign -/

theorem exponent?_eq_some_iff {cs : List Char} {e : ℤ} : exponent? cs = some e ↔ Signed cs e :=
  integer?_eq_some_iff

/-- The decimal of a mantissa's digits, as far as they are read, with the exponent behind them. -/
def ended? (digits? : Option ℕ) (places : ℕ) (rest : List Char) : Option Decimal :=
  match digits?, rest with
  | some digits, [] => some ⟨digits, -(places : ℤ)⟩
  | some digits, mark :: rest =>
    if mark = 'e' ∨ mark = 'E' then (exponent? rest).map fun e => ⟨digits, e + -(places : ℤ)⟩ else none
  | none, _ => none

theorem decimal?_of_point {cs rest : List Char} (h : cs.dropWhile Char.isDigit = '.' :: rest) :
    decimal? cs = ended? (ofDigits? 10 (cs.takeWhile Char.isDigit ++ rest.takeWhile Char.isDigit))
      (rest.takeWhile Char.isDigit).length (rest.dropWhile Char.isDigit) := by
  unfold decimal?
  rw [h]
  rfl

theorem decimal?_of_no_point {cs rest : List Char} (h : cs.dropWhile Char.isDigit = rest)
    (hpoint : rest.head? ≠ some '.') : decimal? cs = ended? (ofDigits? 10 (cs.takeWhile Char.isDigit)) 0 rest := by
  unfold decimal?
  rw [h]
  split
  · next heq =>
    split at heq
    · exact absurd rfl hpoint
    · cases heq
      dsimp only
      rw [List.append_nil]
      rfl

theorem ended?_eq_some_iff {cs rest : List Char} {places : ℕ} {d : Decimal} :
    ended? (ofDigits? 10 cs) places rest = some d ↔ ∃ n e, Digits cs n ∧ Exponent rest e ∧ d = ⟨n, e - places⟩ := by
  cases hdigits : ofDigits? 10 cs with
  | none =>
    constructor
    · intro h
      cases h
    · rintro ⟨n, e, hn, -, -⟩
      rw [ofDigits?_eq_some_iff.2 hn] at hdigits
      cases hdigits
  | some n =>
    have hn := ofDigits?_eq_some_iff.1 hdigits
    have hunique : ∀ {m}, Digits cs m → m = n := fun hm => hm.value.symm.trans hn.value
    cases rest with
    | nil =>
      show some (⟨n, -(places : ℤ)⟩ : Decimal) = some d ↔ _
      rw [Option.some.injEq]
      constructor
      · rintro rfl
        exact ⟨n, 0, hn, .absent, by rw [zero_sub]⟩
      · rintro ⟨m, e, hm, he, rfl⟩
        cases he
        rw [hunique hm, zero_sub]
    | cons mark rest =>
      show (if mark = 'e' ∨ mark = 'E' then
        (exponent? rest).map fun e => (⟨n, e + -(places : ℤ)⟩ : Decimal) else none) = some d ↔ _
      constructor
      · intro h
        split at h
        · next hmark =>
          obtain ⟨e, he, rfl⟩ := Option.map_eq_some_iff.1 h
          exact ⟨n, e, hn, .marked hmark (exponent?_eq_some_iff.1 he), by rw [sub_eq_add_neg]⟩
        · cases h
      · rintro ⟨m, e, hm, he, rfl⟩
        cases he with
        | marked hmark he =>
          rw [if_pos hmark, exponent?_eq_some_iff.2 he, hunique hm, sub_eq_add_neg]
          rfl

theorem span_digits {cs rest : List Char} (hcs : ∀ c ∈ cs, c.isDigit = true)
    (hrest : ∀ c, rest.head? = some c → c.isDigit = false) :
    (cs ++ rest).takeWhile Char.isDigit = cs ∧ (cs ++ rest).dropWhile Char.isDigit = rest := by
  rw [List.takeWhile_append_of_pos hcs, List.dropWhile_append_of_pos hcs]
  cases rest with
  | nil => exact ⟨List.append_nil cs, rfl⟩
  | cons c rest => simp [hrest c rfl]

/-- An exponent begins with its mark, so neither with a digit nor with a point. -/
theorem Exponent.head {cs : List Char} {e : ℤ} (h : Exponent cs e) {c : Char} (hc : cs.head? = some c) :
    c.isDigit = false ∧ c ≠ '.' := by
  cases h with
  | absent => cases hc
  | marked hmark h =>
    cases hc
    rcases hmark with rfl | rfl
    · decide
    · decide

theorem decimal?_eq_some_iff {cs : List Char} {d : Decimal} :
    decimal? cs = some d ↔ ∃ mantissa exponent n places e, cs = mantissa ++ exponent ∧ Mantissa mantissa n places ∧
      Exponent exponent e ∧ d = ⟨n, e - places⟩ := by
  have hsplit := (List.takeWhile_append_dropWhile (p := Char.isDigit) (l := cs)).symm
  -- neither the point nor the mark of an exponent is a digit, so there is one way to take a text apart
  constructor
  · intro h
    by_cases hpoint : (cs.dropWhile Char.isDigit).head? = some '.'
    · obtain ⟨rest, hrest⟩ := List.head?_eq_some_iff.1 hpoint
      rw [decimal?_of_point hrest] at h
      obtain ⟨n, e, hn, he, rfl⟩ := ended?_eq_some_iff.1 h
      refine ⟨_, _, n, _, e, ?_, .pointed hn, he, rfl⟩
      rw [List.append_assoc, List.cons_append, List.takeWhile_append_dropWhile, ← hrest]
      exact hsplit
    · rw [decimal?_of_no_point rfl hpoint] at h
      obtain ⟨n, e, hn, he, rfl⟩ := ended?_eq_some_iff.1 h
      exact ⟨_, _, n, 0, e, hsplit, .whole hn, he, rfl⟩
  · rintro ⟨mantissa, exponent, n, places, e, rfl, hmantissa, hexponent, rfl⟩
    cases hmantissa with
    | whole hn =>
      obtain ⟨htake, hdrop⟩ := span_digits hn.isDigit fun c hc => (hexponent.head hc).1
      rw [decimal?_of_no_point hdrop fun hc => (hexponent.head hc).2 rfl, htake]
      exact ended?_eq_some_iff.2 ⟨n, e, hn, hexponent, rfl⟩
    | @pointed front back n hn =>
      have hfront : ∀ c ∈ front, c.isDigit = true := fun c hc => hn.isDigit c (List.mem_append_left back hc)
      have hback : ∀ c ∈ back, c.isDigit = true := fun c hc => hn.isDigit c (List.mem_append_right front hc)
      have hpoint : ∀ c, ('.' :: (back ++ exponent)).head? = some c → c.isDigit = false := by simp
      obtain ⟨htake, hdrop⟩ := span_digits hfront hpoint
      obtain ⟨htake', hdrop'⟩ := span_digits hback fun c hc => (hexponent.head hc).1
      rw [List.append_assoc, List.cons_append, decimal?_of_point hdrop, htake, htake', hdrop']
      exact ended?_eq_some_iff.2 ⟨n, e, hn, hexponent, rfl⟩

theorem map_decimal?_eq_some_iff {negative : Bool} {cs : List Char} {x : Binary64} :
    (decimal? cs).map (Decimal.toBinary64 negative) = some x ↔
      ∃ q, Positional cs q ∧ x = .signed negative (if negative then -q else q) := by
  rw [Option.map_eq_some_iff]
  constructor
  · rintro ⟨d, hd, rfl⟩
    obtain ⟨mantissa, exponent, n, places, e, rfl, hmantissa, hexponent, rfl⟩ := decimal?_eq_some_iff.1 hd
    exact ⟨_, .mk hmantissa hexponent, Decimal.toBinary64_eq negative _⟩
  · rintro ⟨q, hq, rfl⟩
    cases hq with
    | @mk mantissa exponent n places e hmantissa hexponent =>
      have hread := decimal?_eq_some_iff.2 ⟨mantissa, exponent, n, places, e, rfl, hmantissa, hexponent, rfl⟩
      exact ⟨⟨n, e - places⟩, hread, Decimal.toBinary64_eq negative _⟩

/-! ## Names and signs -/

/-- A number begins with a digit or a point, so with no letter and no sign. -/
theorem Positional.head {cs : List Char} {q : ℚ} (h : Positional cs q) :
    ∃ c, cs.head? = some c ∧ (c.isDigit = true ∨ c = '.') := by
  cases h with
  | @mk mantissa exponent n places e hmantissa hexponent =>
    cases hmantissa with
    | whole hn =>
      cases mantissa with
      | nil => exact absurd rfl hn.ne_nil
      | cons c cs => exact ⟨c, rfl, .inl hn.head_isDigit⟩
    | @pointed front back n hn =>
      cases front with
      | nil => exact ⟨'.', rfl, .inr rfl⟩
      | cons c cs => exact ⟨c, rfl, .inl hn.head_isDigit⟩

theorem toLower_eq_self {c : Char} (h : c.isDigit = true ∨ c = '.') : c.toLower = c := by
  have hlow : c.toNat ≤ 57 := by
    rcases h with h | rfl
    · exact (Char.isDigit_iff_toNat.1 h).2
    · decide
  unfold Char.toLower
  rw [dif_neg]
  rintro ⟨hupper, -⟩
  have hletter : 65 ≤ c.toNat := hupper
  omega

theorem Positional.toLower_head {cs : List Char} {q : ℚ} (h : Positional cs q) :
    (cs.map Char.toLower).head? ≠ some 'i' ∧ (cs.map Char.toLower).head? ≠ some 'n' := by
  obtain ⟨c, hhead, hc⟩ := h.head
  rw [List.head?_map, hhead, Option.map_some, toLower_eq_self hc]
  rcases hc with hc | rfl
  · constructor
    · rintro ⟨⟩
      exact absurd hc (by decide)
    · rintro ⟨⟩
      exact absurd hc (by decide)
  · decide

theorem ofList_eq_iff {cs : List Char} {s : String} : String.ofList cs = s ↔ cs = s.toList := by
  rw [← String.toList_inj, String.toList_ofList]

theorem unsignedBinary64?_eq_some_iff {negative : Bool} {cs : List Char} {x : Binary64} :
    unsignedBinary64? negative cs = some x ↔ Magnitude negative cs x := by
  unfold unsignedBinary64?
  simp only [ofList_eq_iff]
  constructor
  · intro h
    split at h
    · next hname =>
      cases h
      exact .infinity hname
    · split at h
      · next hname =>
        cases h
        exact .nan hname
      · obtain ⟨q, hq, rfl⟩ := map_decimal?_eq_some_iff.1 h
        exact .number hq
  · intro h
    cases h with
    | number h =>
      obtain ⟨hi, hn⟩ := h.toLower_head
      have hinfinity : ¬(cs.map Char.toLower = "inf".toList ∨ cs.map Char.toLower = "infinity".toList) := by
        rintro (hname | hname)
        · exact hi (by rw [hname]; rfl)
        · exact hi (by rw [hname]; rfl)
      have hnan : cs.map Char.toLower ≠ "nan".toList := fun hname => hn (by rw [hname]; rfl)
      rw [if_neg hinfinity, if_neg hnan]
      exact map_decimal?_eq_some_iff.2 ⟨_, h, rfl⟩
    | infinity h => rw [if_pos h]
    | nan h => rw [h, if_neg (by decide), if_pos rfl]

theorem Magnitude.head {negative : Bool} {cs : List Char} {x : Binary64} (h : Magnitude negative cs x) :
    cs.head? ≠ some '-' ∧ cs.head? ≠ some '+' := by
  have hname : ∀ {sign : Char} {name : List Char}, cs.map Char.toLower = name → name.head? ≠ some sign.toLower →
      cs.head? ≠ some sign := by
    rintro sign name rfl hne hhead
    rw [List.head?_map, hhead] at hne
    exact hne rfl
  cases h with
  | number h =>
    obtain ⟨c, hhead, hc⟩ := h.head
    rw [hhead]
    rcases hc with hc | rfl
    · constructor
      · rintro ⟨⟩
        exact absurd hc (by decide)
      · rintro ⟨⟩
        exact absurd hc (by decide)
    · decide
  | infinity h =>
    rcases h with h | h
    · exact ⟨hname h (by decide), hname h (by decide)⟩
    · exact ⟨hname h (by decide), hname h (by decide)⟩
  | nan h => exact ⟨hname h (by decide), hname h (by decide)⟩

theorem binary64?_eq_some_iff {cs : List Char} {x : Binary64} : binary64? cs = some x ↔ Double cs x := by
  unfold binary64?
  split
  · rw [unsignedBinary64?_eq_some_iff]
    refine ⟨.minus, fun h => ?_⟩
    cases h with
    | bare h => exact absurd rfl h.head.1
    | minus h => exact h
  · rw [unsignedBinary64?_eq_some_iff]
    refine ⟨.plus, fun h => ?_⟩
    cases h with
    | bare h => exact absurd rfl h.head.2
    | plus h => exact h
  · next hminus hplus =>
    rw [unsignedBinary64?_eq_some_iff]
    refine ⟨.bare, fun h => ?_⟩
    cases h with
    | bare h => exact h
    | plus h => exact absurd rfl (hplus _)
    | minus h => exact absurd rfl (hminus _)

theorem Double.unique {cs : List Char} {x y : Binary64} (hx : Double cs x) (hy : Double cs y) : x = y :=
  Option.some.inj ((binary64?_eq_some_iff.2 hx).symm.trans (binary64?_eq_some_iff.2 hy))

end Throttle.Numeral
