import Throttle.Numeral.Integer

/-!
# What a numeral denotes

The texts that stand for whole numbers, said apart from how they are read: one or more decimal digits,
with leading zeros or without, behind a sign where one is allowed. The readers accept these texts and no
others. Main statements: `natural?_eq_some_iff`, `integer?_eq_some_iff`, `unsigned64?_eq_some_iff` for those
that fit into a word, and `digits_toDigits` for numbers that are written out.
-/

set_option autoImplicit false

namespace Throttle.Numeral

/-! ## The grammar -/

/-- One or more decimal digits, which denote a number. -/
structure Digits (cs : List Char) (n : Nat) : Prop where
  ne_nil : cs ≠ []
  isDigit : ∀ c ∈ cs, c.isDigit = true
  value : Nat.ofDigitChars 10 cs 0 = n

/-- Digits behind an optional plus sign. -/
inductive Unsigned : List Char → Nat → Prop where
  | bare {cs : List Char} {n : Nat} (h : Digits cs n) : Unsigned cs n
  | plus {cs : List Char} {n : Nat} (h : Digits cs n) : Unsigned ('+' :: cs) n

/-- Digits behind an optional sign. -/
inductive Signed : List Char → Int → Prop where
  | bare {cs : List Char} {n : Nat} (h : Digits cs n) : Signed cs n
  | plus {cs : List Char} {n : Nat} (h : Digits cs n) : Signed ('+' :: cs) n
  | minus {cs : List Char} {n : Nat} (h : Digits cs n) : Signed ('-' :: cs) (-n)

theorem Digits.head_isDigit {c : Char} {cs : List Char} {n : Nat} (h : Digits (c :: cs) n) : c.isDigit = true :=
  h.isDigit c List.mem_cons_self

/-! ## Digits -/

theorem digit?_of_isDigit {c : Char} (h : c.isDigit = true) : digit? 10 c = some (c.toNat - '0'.toNat) := by
  have hlt : c.toNat - '0'.toNat < 10 := by
    have hrange := Char.isDigit_iff_toNat.1 h
    simp only [Char.reduceToNat] at hrange ⊢
    omega
  unfold digit?
  rw [if_pos h]
  simpa using hlt

/-- Letters count from ten on, which is too much for a decimal digit. -/
theorem digit?_of_not_isDigit {c : Char} (h : ¬ c.isDigit = true) : digit? 10 c = none := by
  unfold digit?
  rw [if_neg h]
  split
  · exact Option.filter_eq_none_iff.2 (by simp)
  · split
    · exact Option.filter_eq_none_iff.2 (by simp)
    · rfl

theorem continueDigits?_cons (base read : Nat) (c : Char) (cs : List Char) :
    continueDigits? base read (c :: cs) = (digit? base c).bind fun v => continueDigits? base (base * read + v) cs := by
  unfold continueDigits?
  rw [List.foldlM_cons]
  cases digit? base c <;> rfl

theorem continueDigits?_eq_some_iff {cs : List Char} {read n : Nat} :
    continueDigits? 10 read cs = some n ↔ (∀ c ∈ cs, c.isDigit = true) ∧ Nat.ofDigitChars 10 cs read = n := by
  induction cs generalizing read with
  | nil => simp [continueDigits?]
  | cons c cs ih =>
    rw [continueDigits?_cons, Nat.ofDigitChars_cons]
    by_cases hc : c.isDigit = true
    · rw [digit?_of_isDigit hc, Option.bind_some, ih]
      simp [hc]
    · rw [digit?_of_not_isDigit hc]
      simp [hc]

theorem ofDigits?_eq_some_iff {cs : List Char} {n : Nat} : ofDigits? 10 cs = some n ↔ Digits cs n := by
  unfold ofDigits?
  cases cs with
  | nil =>
    simp only [List.isEmpty_nil, if_true, reduceCtorEq, false_iff]
    exact fun h => h.ne_nil rfl
  | cons c cs =>
    simp only [List.isEmpty_cons, Bool.false_eq_true, if_false]
    rw [continueDigits?_eq_some_iff]
    exact ⟨fun h => ⟨List.cons_ne_nil c cs, h.1, h.2⟩, fun h => ⟨h.isDigit, h.value⟩⟩

/-! ## Signs -/

theorem natural?_eq_some_iff {cs : List Char} {n : Nat} : natural? cs = some n ↔ Unsigned cs n := by
  unfold natural?
  split
  · next digits =>
    rw [ofDigits?_eq_some_iff]
    refine ⟨.plus, fun h => ?_⟩
    cases h with
    | bare h => exact absurd h.head_isDigit (by decide)
    | plus h => exact h
  · next hplus =>
    rw [ofDigits?_eq_some_iff]
    refine ⟨.bare, fun h => ?_⟩
    cases h with
    | bare h => exact h
    | plus h => exact absurd rfl (hplus _)

theorem integer?_minus (digits : List Char) :
    integer? ('-' :: digits) = Option.map (fun n : Nat => -(n : Int)) (ofDigits? 10 digits) := by
  show Option.map _ (ofDigits? 10 digits >>= _) = _
  cases ofDigits? 10 digits <;> rfl

theorem integer?_eq_some_iff {cs : List Char} {z : Int} : integer? cs = some z ↔ Signed cs z := by
  unfold integer?
  split
  · next digits =>
    rw [← integer?, integer?_minus, Option.map_eq_some_iff]
    constructor
    · rintro ⟨n, hn, rfl⟩
      exact .minus (ofDigits?_eq_some_iff.1 hn)
    · intro h
      cases h with
      | bare h => exact absurd h.head_isDigit (by decide)
      | minus h => exact ⟨_, ofDigits?_eq_some_iff.2 h, rfl⟩
  · next digits =>
    rw [Option.map_eq_some_iff]
    constructor
    · rintro ⟨n, hn, rfl⟩
      exact .plus (ofDigits?_eq_some_iff.1 hn)
    · intro h
      cases h with
      | bare h => exact absurd h.head_isDigit (by decide)
      | plus h => exact ⟨_, ofDigits?_eq_some_iff.2 h, rfl⟩
  · next hminus hplus =>
    rw [Option.map_eq_some_iff]
    constructor
    · rintro ⟨n, hn, rfl⟩
      exact .bare (ofDigits?_eq_some_iff.1 hn)
    · intro h
      cases h with
      | bare h => exact ⟨_, ofDigits?_eq_some_iff.2 h, rfl⟩
      | plus h => exact absurd rfl (hplus _)
      | minus h => exact absurd rfl (hminus _)

/-! ## Words -/

theorem word64?_eq_some_iff {n : Nat} {w : UInt64} : word64? n = some w ↔ w.toNat = n := by
  unfold word64?
  constructor
  · intro h
    split at h
    · next hlt =>
      cases h
      exact UInt64.toNat_ofNat_of_lt' hlt
    · cases h
  · rintro rfl
    rw [if_pos w.toNat_lt, UInt64.ofNat_toNat]

theorem word16?_eq_some_iff {n : Nat} {w : UInt16} : word16? n = some w ↔ w.toNat = n := by
  unfold word16?
  constructor
  · intro h
    split at h
    · next hlt =>
      cases h
      exact UInt16.toNat_ofNat_of_lt' hlt
    · cases h
  · rintro rfl
    rw [if_pos w.toNat_lt, UInt16.ofNat_toNat]

theorem signed64?_of_fits {z : Int} (hlow : -9_223_372_036_854_775_808 ≤ z) (hhigh : z ≤ 9_223_372_036_854_775_807) :
    ∃ w, signed64? z = some w ∧ w.toInt = z := by
  refine ⟨Int64.ofInt z, if_pos ⟨hlow, hhigh⟩, Int64.toInt_ofInt_of_le hlow ?_⟩
  omega

theorem signed64?_of_not_fits {z : Int} (h : z < -9_223_372_036_854_775_808 ∨ 9_223_372_036_854_775_807 < z) :
    signed64? z = none := by
  apply if_neg
  rintro ⟨hlow, hhigh⟩
  have hmin : Int64.minValue.toInt = -9_223_372_036_854_775_808 := rfl
  have hmax : Int64.maxValue.toInt = 9_223_372_036_854_775_807 := rfl
  omega

/-- A reader of words that goes through a natural number accepts the texts of the numbers that fit. -/
theorem natural?_bind_eq_some_iff {α : Type} {word? : Nat → Option α} {value : α → Nat}
    (hword : ∀ {n : Nat} {w : α}, word? n = some w ↔ value w = n) {cs : List Char} {w : α} :
    (natural? cs).bind word? = some w ↔ Unsigned cs (value w) := by
  rw [Option.bind_eq_some_iff]
  simp only [natural?_eq_some_iff, hword]
  exact ⟨fun ⟨_, hspelled, hw⟩ => hw ▸ hspelled, fun h => ⟨_, h, rfl⟩⟩

theorem unsigned64?_eq_some_iff {cs : List Char} {w : UInt64} : unsigned64? cs = some w ↔ Unsigned cs w.toNat :=
  natural?_bind_eq_some_iff word64?_eq_some_iff

theorem unsigned16?_eq_some_iff {cs : List Char} {w : UInt16} : unsigned16? cs = some w ↔ Unsigned cs w.toNat :=
  natural?_bind_eq_some_iff word16?_eq_some_iff

/-! ## Leading zeros and written numbers -/

/-- Leading zeros are of no account, whatever follows them. -/
theorem ofDigits?_replicate_zero_append (k : Nat) {cs : List Char} (h : cs ≠ []) :
    ofDigits? 10 (List.replicate k '0' ++ cs) = ofDigits? 10 cs := by
  induction k with
  | zero => rfl
  | succ k ih =>
    have hrest : (List.replicate k '0' ++ cs).isEmpty = false := by simp [h]
    rw [← ih, List.replicate_succ, List.cons_append]
    unfold ofDigits?
    rw [hrest, List.isEmpty_cons, continueDigits?_cons, digit?_of_isDigit (by decide)]
    rfl

theorem integer?_of_isDigit {c : Char} (hc : c.isDigit = true) (cs : List Char) :
    integer? (c :: cs) = (ofDigits? 10 (c :: cs)).map Int.ofNat := by
  unfold integer?
  split
  · next heq =>
    cases heq
    exact absurd hc (by decide)
  · next heq =>
    cases heq
    exact absurd hc (by decide)
  · rfl

theorem integer?_zeros {sign : List Char} (hsign : sign = [] ∨ sign = ['+'] ∨ sign = ['-']) (k : Nat) {d : Char}
    (hd : d.isDigit = true) (cs : List Char) :
    integer? (sign ++ (List.replicate k '0' ++ d :: cs)) = integer? (sign ++ d :: cs) := by
  have hzeros := ofDigits?_replicate_zero_append k (List.cons_ne_nil d cs)
  rcases hsign with rfl | rfl | rfl
  · rw [List.nil_append, List.nil_append]
    cases k with
    | zero => rfl
    | succ k =>
      rw [List.replicate_succ, List.cons_append] at hzeros ⊢
      rw [integer?_of_isDigit (by decide), hzeros, integer?_of_isDigit hd]
  · rw [List.singleton_append, List.singleton_append]
    show Option.map Int.ofNat (ofDigits? 10 _) = Option.map Int.ofNat (ofDigits? 10 _)
    rw [hzeros]
  · rw [List.singleton_append, List.singleton_append, integer?_minus, integer?_minus, hzeros]

theorem digits_toDigits (n : Nat) : Digits (Nat.toDigits 10 n) n where
  ne_nil := Nat.toDigits_ne_nil
  isDigit _ hc := Nat.isDigit_of_mem_toDigits (by decide) (by decide) hc
  value := Nat.ofDigitChars_toDigits (by decide) (by decide)

end Throttle.Numeral
