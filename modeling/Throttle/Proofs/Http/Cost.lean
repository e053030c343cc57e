import Mathlib.Data.List.DropRight
import Throttle.Http.Request
import Throttle.Proofs.Numeral.Grammar
import Throttle.Proofs.Registry.ByteOrder

/-!
# The cost that headers state

The first header of the name decides, by the grammar of its value: blanks, an integer of 64 bits, blanks.
Any other value costs one token, and so does the absence of the header. Main statement:
`cost_by_first_header`.
-/

set_option autoImplicit false

namespace Throttle.Http
open Numeral (Signed)

/-! ## The grammar of a value -/

/-- The character that a byte is in ASCII. -/
def character (b : UInt8) : Char := Char.ofNat b.toNat

def characters (value : ByteArray) : List Char := value.toList.map character

def Blanks (cs : List Char) : Prop := ∀ c ∈ cs, c = ' ' ∨ c = '\t'

/-- A tab, or a byte from the blank to the tilde. -/
def PlainByte (b : UInt8) : Prop := b = 9 ∨ (0x20 ≤ b ∧ b ≤ 0x7e)

instance (b : UInt8) : Decidable (PlainByte b) :=
  inferInstanceAs (Decidable (b = 9 ∨ (0x20 ≤ b ∧ b ≤ 0x7e)))

/-- The bytes are plain, and the text without the blanks around it is an integer. -/
structure States (value : ByteArray) (z : Int) : Prop where
  plain : ∀ b ∈ value.toList, PlainByte b
  text : ∃ before number after, characters value = before ++ number ++ after ∧
    Blanks before ∧ Blanks after ∧ Signed number z

/-- What a value costs: an integer of 64 bits costs itself, or nothing if it is negative, and anything
else one token. -/
inductive Costs (value : ByteArray) (n : UInt64) : Prop where
  | stated (z : Int) (h : States value z) (hlow : -9_223_372_036_854_775_808 ≤ z)
    (hhigh : z ≤ 9_223_372_036_854_775_807) (hn : n.toNat = z.toNat)
  | other (h : ∀ z, States value z → z < -9_223_372_036_854_775_808 ∨ 9_223_372_036_854_775_807 < z) (hn : n = 1)

/-! ## Blanks -/

theorem isBlank_iff {c : Char} : isBlank c = true ↔ c = ' ' ∨ c = '\t' := by
  simp [isBlank]

theorem blanks_iff {cs : List Char} : Blanks cs ↔ ∀ c ∈ cs, isBlank c = true :=
  forall₂_congr fun _ _ => isBlank_iff.symm

theorem trimmed_eq (cs : List Char) : trimmed cs = (cs.dropWhile isBlank).rdropWhile isBlank := rfl

theorem exists_trimmed (cs : List Char) :
    ∃ before after, cs = before ++ trimmed cs ++ after ∧ Blanks before ∧ Blanks after := by
  refine ⟨cs.takeWhile isBlank, (cs.dropWhile isBlank).rtakeWhile isBlank, ?_, ?_, ?_⟩
  · rw [trimmed_eq, List.append_assoc, List.rdropWhile_append_rtakeWhile, List.takeWhile_append_dropWhile]
  · exact blanks_iff.2 fun c hc => List.mem_takeWhile_imp hc
  · exact blanks_iff.2 fun c hc => List.mem_rtakeWhile_imp hc

theorem rdropWhile_append_blanks {after : List Char} (hafter : Blanks after) (cs : List Char) :
    (cs ++ after).rdropWhile isBlank = cs.rdropWhile isBlank := by
  unfold List.rdropWhile
  rw [List.reverse_append, List.dropWhile_append_of_pos]
  intro c hc
  exact blanks_iff.1 hafter c (List.mem_reverse.1 hc)

theorem trimmed_append {before after : List Char} (hbefore : Blanks before) (hafter : Blanks after)
    (cs : List Char) : trimmed (before ++ cs ++ after) = trimmed cs := by
  rw [trimmed_eq, trimmed_eq, List.append_assoc, List.dropWhile_append_of_pos (blanks_iff.1 hbefore),
    List.dropWhile_append]
  split
  · next hnothing =>
    rw [List.isEmpty_iff] at hnothing
    rw [hnothing, List.dropWhile_eq_nil_iff.2 (blanks_iff.1 hafter)]
  · exact rdropWhile_append_blanks hafter _

/-- What neither begins nor ends with a blank stays as it is. -/
theorem trimmed_of_ends {cs : List Char} (hhead : ∀ c, cs.head? = some c → isBlank c = false)
    (hlast : ∀ c, cs.getLast? = some c → isBlank c = false) : trimmed cs = cs := by
  have hfront : cs.dropWhile isBlank = cs := by
    cases cs with
    | nil => rfl
    | cons c cs => simp [hhead c rfl]
  rw [trimmed_eq, hfront, List.rdropWhile_eq_self_iff]
  intro hne
  simp [hlast _ (List.getLast?_eq_some_getLast hne)]

theorem isBlank_of_isDigit {c : Char} (hc : c.isDigit = true) : isBlank c = false := by
  rw [Bool.eq_false_iff]
  intro hblank
  rcases isBlank_iff.1 hblank with rfl | rfl
  · exact absurd hc (by decide)
  · exact absurd hc (by decide)

theorem isBlank_of_mem_signed {cs : List Char} {z : Int} (h : Signed cs z) {c : Char} (hc : c ∈ cs) :
    isBlank c = false := by
  cases h with
  | bare h => exact isBlank_of_isDigit (h.isDigit c hc)
  | plus h =>
    rcases List.mem_cons.1 hc with rfl | hc
    · rfl
    · exact isBlank_of_isDigit (h.isDigit c hc)
  | minus h =>
    rcases List.mem_cons.1 hc with rfl | hc
    · rfl
    · exact isBlank_of_isDigit (h.isDigit c hc)

theorem signed_trimmed_iff {cs : List Char} {z : Int} :
    Signed (trimmed cs) z ↔
      ∃ before number after, cs = before ++ number ++ after ∧ Blanks before ∧ Blanks after ∧ Signed number z := by
  constructor
  · intro h
    obtain ⟨before, after, hcs, hbefore, hafter⟩ := exists_trimmed cs
    exact ⟨before, trimmed cs, after, hcs, hbefore, hafter, h⟩
  · rintro ⟨before, number, after, rfl, hbefore, hafter, h⟩
    rw [trimmed_append hbefore hafter, trimmed_of_ends]
    · exact h
    · exact fun c hc => isBlank_of_mem_signed h (List.mem_of_mem_head? hc)
    · exact fun c hc => isBlank_of_mem_signed h (List.mem_of_mem_getLast? hc)

/-! ## Values -/

theorem isPlain_iff {b : UInt8} : isPlain b = true ↔ PlainByte b := by
  have htop : b < 127 ↔ b ≤ 0x7e := by
    rw [UInt8.lt_iff_toNat_lt, UInt8.le_iff_toNat_le]
    exact Nat.lt_succ_iff
  simp [isPlain, PlainByte, htop]

theorem states_iff {value : ByteArray} {z : Int} :
    States value z ↔ (plainText? value).bind (fun text => Numeral.integer? (trimmed text)) = some z := by
  have hplain : value.toList.all isPlain = true ↔ ∀ b ∈ value.toList, PlainByte b := by
    simp only [List.all_eq_true, isPlain_iff]
  unfold plainText?
  dsimp only
  split
  · next h =>
    rw [Option.bind_some, Numeral.integer?_eq_some_iff, signed_trimmed_iff]
    exact ⟨fun hz => hz.text, fun hz => ⟨hplain.1 h, hz⟩⟩
  · next h =>
    simp only [Option.bind_none, reduceCtorEq, iff_false]
    exact fun hz => h (hplain.2 hz.plain)

theorem States.unique {value : ByteArray} {y z : Int} (hy : States value y) (hz : States value z) : y = z :=
  Option.some.inj ((states_iff.1 hy).symm.trans (states_iff.1 hz))

theorem statedCost?_eq (value : ByteArray) :
    statedCost? value =
      ((plainText? value).bind fun text => Numeral.integer? (trimmed text)).bind fun z =>
        (Numeral.signed64? z).map fun n => UInt64.ofNat n.toInt.toNat := by
  unfold statedCost?
  cases plainText? value with
  | none => rfl
  | some text =>
    show (Numeral.integer? (trimmed text)).bind _ = (Numeral.integer? (trimmed text)).bind _
    congr 1
    funext z
    cases Numeral.signed64? z <;> rfl

theorem costs_iff {value : ByteArray} {n : UInt64} : Costs value n ↔ (statedCost? value).getD 1 = n := by
  have hother : (∀ z, States value z → z < -9_223_372_036_854_775_808 ∨ 9_223_372_036_854_775_807 < z) →
      statedCost? value = none := by
    intro h
    rw [statedCost?_eq]
    refine Option.bind_eq_none_iff.2 fun z hz => ?_
    rw [Numeral.signed64?_of_not_fits (h z (states_iff.2 hz)), Option.map_none]
  have hstated : ∀ z, States value z → -9_223_372_036_854_775_808 ≤ z → z ≤ 9_223_372_036_854_775_807 →
      statedCost? value = some (UInt64.ofNat z.toNat) := by
    intro z hz hlow hhigh
    obtain ⟨w, hw, hwz⟩ := Numeral.signed64?_of_fits hlow hhigh
    rw [statedCost?_eq, states_iff.1 hz, Option.bind_some, hw, Option.map_some, hwz]
  constructor
  · intro h
    cases h with
    | stated z h hlow hhigh hn => rw [hstated z h hlow hhigh, Option.getD_some, ← hn, UInt64.ofNat_toNat]
    | other h hn => rw [hother h, Option.getD_none, hn]
  · rintro rfl
    -- an integer of more than 64 bits counts as no integer
    by_cases hfits : ∃ z, States value z ∧ -9_223_372_036_854_775_808 ≤ z ∧ z ≤ 9_223_372_036_854_775_807
    · obtain ⟨z, hz, hlow, hhigh⟩ := hfits
      refine .stated z hz hlow hhigh ?_
      rw [hstated z hz hlow hhigh, Option.getD_some]
      refine UInt64.toNat_ofNat_of_lt' ?_
      rw [UInt64.size]
      omega
    · have h : ∀ z, States value z → z < -9_223_372_036_854_775_808 ∨ 9_223_372_036_854_775_807 < z := by
        intro z hz
        by_contra hnot
        exact hfits ⟨z, hz, by omega, by omega⟩
      exact .other h (by rw [hother h, Option.getD_none])

/-! ## The first header of the name -/

def NamesCost (name : String) : Prop :=
  name.toList.map Char.toLower = "x-request-cost".toList

instance (name : String) : Decidable (NamesCost name) :=
  inferInstanceAs (Decidable (name.toList.map Char.toLower = "x-request-cost".toList))

/-- The value of the first header that names a cost. -/
inductive FirstCost : Headers → ByteArray → Prop where
  | here {name : String} {value : ByteArray} {rest : Headers} (h : NamesCost name) :
    FirstCost ((name, value) :: rest) value
  | there {name : String} {value first : ByteArray} {rest : Headers} (h : ¬ NamesCost name)
    (hrest : FirstCost rest first) : FirstCost ((name, value) :: rest) first

theorem sameName_costHeader_iff {name : String} : sameName name costHeader = true ↔ NamesCost name := by
  have hlower : costHeader.toList.map Char.toLower = "x-request-cost".toList := by decide
  rw [sameName, beq_iff_eq, hlower, NamesCost]

theorem first?_of_firstCost {headers : Headers} {value : ByteArray} (h : FirstCost headers value) :
    headers.first? costHeader = some value := by
  induction h with
  | here h => simp [Headers.first?, sameName_costHeader_iff.2 h]
  | there h hrest ih =>
    rw [← ih]
    simp [Headers.first?, mt sameName_costHeader_iff.1 h]

theorem first?_eq_none {headers : Headers} (h : ∀ header ∈ headers, ¬ NamesCost header.1) :
    headers.first? costHeader = none := by
  rw [Headers.first?, Option.map_eq_none_iff, List.find?_eq_none]
  exact fun header hheader => mt sameName_costHeader_iff.1 (h header hheader)

theorem Headers.cost_of_firstCost {headers : Headers} {value : ByteArray} (h : FirstCost headers value) :
    headers.cost = (statedCost? value).getD 1 := by
  rw [Headers.cost, first?_of_firstCost h, Option.bind_some]

/-! ## Other spellings of a value -/

/-- Bytes for tabs and blanks. -/
def BlankBytes (bytes : List UInt8) : Prop := ∀ b ∈ bytes, b = 9 ∨ b = 32

/-- A value with blanks around it, or with zeros before the first digit of its number. -/
inductive Respelled (value value' : ByteArray) : Prop where
  | blanks (before after : List UInt8) (hbefore : BlankBytes before) (hafter : BlankBytes after)
    (h : value'.toList = before ++ value.toList ++ after)
  | zeros (before sign : List UInt8) (k : Nat) (d : UInt8) (rest : List UInt8) (hbefore : BlankBytes before)
    (hsign : sign = [] ∨ sign = [43] ∨ sign = [45]) (hd : 48 ≤ d ∧ d ≤ 57)
    (h : value.toList = before ++ sign ++ d :: rest)
    (h' : value'.toList = before ++ sign ++ List.replicate k 48 ++ d :: rest)

theorem Costs.congr {value value' : ByteArray} (h : ∀ z, States value' z ↔ States value z) {n : UInt64} :
    Costs value' n ↔ Costs value n := by
  constructor
  · intro hn
    cases hn with
    | stated z hz hlow hhigh hn => exact .stated z ((h z).1 hz) hlow hhigh hn
    | other hnot hn => exact .other (fun z hz => hnot z ((h z).2 hz)) hn
  · intro hn
    cases hn with
    | stated z hz hlow hhigh hn => exact .stated z ((h z).2 hz) hlow hhigh hn
    | other hnot hn => exact .other (fun z hz => hnot z ((h z).1 hz)) hn

theorem states_iff_trimmed {value : ByteArray} {z : Int} :
    States value z ↔ (∀ b ∈ value.toList, PlainByte b) ∧ Signed (trimmed (characters value)) z := by
  rw [signed_trimmed_iff]
  exact ⟨fun h => ⟨h.plain, h.text⟩, fun h => ⟨h.1, h.2⟩⟩

theorem blanks_of_blankBytes {bytes : List UInt8} (h : BlankBytes bytes) :
    Blanks (bytes.map character) := by
  intro c hc
  obtain ⟨b, hb, rfl⟩ := List.mem_map.1 hc
  rcases h b hb with rfl | rfl
  · exact .inr rfl
  · exact .inl rfl

theorem plain_of_blankBytes {bytes : List UInt8} (h : BlankBytes bytes) : ∀ b ∈ bytes, PlainByte b := by
  intro b hb
  rcases h b hb with rfl | rfl
  · decide
  · decide

theorem rdropWhile_append_cons {c : Char} (hc : isBlank c = false) (front cs : List Char) :
    (front ++ c :: cs).rdropWhile isBlank = front ++ c :: cs.rdropWhile isBlank := by
  unfold List.rdropWhile
  rw [List.reverse_append, List.reverse_cons, List.append_assoc, List.dropWhile_append]
  split
  · next hnothing =>
    rw [List.isEmpty_iff] at hnothing
    simp [hnothing, hc]
  · simp

/-- Only what follows a character that is no blank is trimmed at the end. -/
theorem trimmed_append_cons {front : List Char} {c : Char} (hfront : ∀ d ∈ front, isBlank d = false)
    (hc : isBlank c = false) (cs : List Char) :
    trimmed (front ++ c :: cs) = front ++ c :: cs.rdropWhile isBlank := by
  have hhead : (front ++ c :: cs).dropWhile isBlank = front ++ c :: cs := by
    cases front with
    | nil => simp [hc]
    | cons d front => simp [hfront d List.mem_cons_self]
  rw [trimmed_eq, hhead, rdropWhile_append_cons hc]

theorem isDigit_character {b : UInt8} (hb : 48 ≤ b ∧ b ≤ 57) : (character b).isDigit = true := by
  have hall : ∀ n < 58, 48 ≤ n → (Char.ofNat n).isDigit = true := by decide
  exact hall b.toNat (Nat.lt_succ_of_le hb.2) hb.1

/-- Zeros before the first digit of a number, behind its sign and the blanks before that. -/
theorem signed_trimmed_zeros_iff {before sign : List Char} (hbefore : Blanks before)
    (hsign : sign = [] ∨ sign = ['+'] ∨ sign = ['-']) {d : Char} (hd : d.isDigit = true) (k : Nat)
    (cs : List Char) (z : Int) :
    Signed (trimmed (before ++ sign ++ List.replicate k '0' ++ d :: cs)) z ↔
      Signed (trimmed (before ++ sign ++ d :: cs)) z := by
  have hplain : ∀ m, ∀ c ∈ sign ++ List.replicate m '0', isBlank c = false := by
    intro m c hc
    rcases List.mem_append.1 hc with hc | hc
    · rcases hsign with rfl | rfl | rfl
      · cases hc
      · rw [List.mem_singleton.1 hc]
        decide
      · rw [List.mem_singleton.1 hc]
        decide
    · rw [(List.mem_replicate.1 hc).2]
      decide
  have htrimmed : ∀ m, trimmed (before ++ sign ++ List.replicate m '0' ++ d :: cs) =
      sign ++ (List.replicate m '0' ++ d :: cs.rdropWhile isBlank) := by
    intro m
    have hnothing : Blanks [] := by simp [Blanks]
    have hfront := trimmed_append hbefore hnothing (sign ++ List.replicate m '0' ++ d :: cs)
    rw [List.append_nil, trimmed_append_cons (hplain m) (isBlank_of_isDigit hd)] at hfront
    simpa using hfront
  have hnone := htrimmed 0
  rw [List.replicate_zero, List.append_nil, List.nil_append] at hnone
  rw [htrimmed, hnone, ← Numeral.integer?_eq_some_iff, ← Numeral.integer?_eq_some_iff,
    Numeral.integer?_zeros hsign k hd]

theorem Respelled.plain_iff {value value' : ByteArray} (h : Respelled value value') :
    (∀ b ∈ value'.toList, PlainByte b) ↔ ∀ b ∈ value.toList, PlainByte b := by
  cases h with
  | blanks before after hbefore hafter h =>
    simp only [h, List.forall_mem_append]
    exact ⟨fun h => h.1.2, fun h => ⟨⟨plain_of_blankBytes hbefore, h⟩, plain_of_blankBytes hafter⟩⟩
  | zeros before sign k d rest hbefore hsign hd h h' =>
    have hzeros : ∀ b ∈ List.replicate k (48 : UInt8), PlainByte b := by
      intro b hb
      rw [(List.mem_replicate.1 hb).2]
      decide
    simp only [h, h', List.forall_mem_append]
    exact ⟨fun h => ⟨h.1.1, h.2⟩, fun h => ⟨⟨h.1, hzeros⟩, h.2⟩⟩

theorem Respelled.signed_iff {value value' : ByteArray} (h : Respelled value value') (z : Int) :
    Signed (trimmed (characters value')) z ↔ Signed (trimmed (characters value)) z := by
  cases h with
  | blanks before after hbefore hafter h =>
    rw [characters, h, List.map_append, List.map_append,
      trimmed_append (blanks_of_blankBytes hbefore) (blanks_of_blankBytes hafter)]
    rfl
  | zeros before sign k d rest hbefore hsign hd h h' =>
    have hchar : sign.map character = [] ∨ sign.map character = ['+'] ∨ sign.map character = ['-'] := by
      rcases hsign with rfl | rfl | rfl
      · exact .inl rfl
      · exact .inr (.inl rfl)
      · exact .inr (.inr rfl)
    have hzero : character 48 = '0' := rfl
    simp only [characters, h, h', List.map_append, List.map_cons, List.map_replicate, hzero]
    exact signed_trimmed_zeros_iff (blanks_of_blankBytes hbefore) hchar (isDigit_character hd) k _ z

theorem Respelled.states_iff {value value' : ByteArray} (h : Respelled value value') (z : Int) :
    States value' z ↔ States value z := by
  rw [states_iff_trimmed, states_iff_trimmed, h.plain_iff, h.signed_iff]

/-! ## Numbers that are written out -/

theorem toList_loop (bytes : ByteArray) (i : Nat) (read : List UInt8) :
    ByteArray.toList.loop bytes i read = read.reverse ++ bytes.data.toList.drop i := by
  fun_induction ByteArray.toList.loop bytes i read with
  | case1 i read hi ih =>
    have hlen : i < bytes.data.toList.length := hi
    have hget : bytes.get! i = bytes.data.toList[i] := by
      show bytes.data[i]! = _
      rw [getElem!_pos bytes.data i hi, Array.getElem_toList]
    rw [ih, List.reverse_cons, List.append_assoc, List.singleton_append, hget, ← List.drop_eq_getElem_cons hlen]
  | case2 i read hi =>
    have hlen : bytes.data.toList.length ≤ i := Nat.le_of_not_lt hi
    rw [List.drop_eq_nil_of_le hlen, List.append_nil]

theorem toList_eq (bytes : ByteArray) : bytes.toList = bytes.data.toList :=
  toList_loop bytes 0 []

theorem flatMap_utf8EncodeChar_of_ascii {cs : List Char} (h : ∀ c ∈ cs, c.toNat < 128) :
    cs.flatMap String.utf8EncodeChar = cs.map fun c => c.val.toUInt8 := by
  induction cs with
  | nil => rfl
  | cons c cs ih =>
    have hc : c.val ≤ 127 := Nat.le_of_lt_succ (h c List.mem_cons_self)
    rw [List.flatMap_cons, String.utf8EncodeChar_eq_singleton (Char.utf8Size_eq_one_iff.2 hc),
      ih fun d hd => h d (List.mem_cons_of_mem c hd), List.map_cons, List.singleton_append]

theorem toList_toUTF8_toString (n : Nat) :
    (toString n).toUTF8.toList = (Nat.toDigits 10 n).map fun c => c.val.toUInt8 := by
  have hlist : (toString n).toList = Nat.toDigits 10 n := by
    rw [Nat.toString_eq_ofList_toDigits, String.toList_ofList]
  rw [toList_eq]
  show utf8Bytes (toString n) = _
  rw [utf8Bytes_eq, hlist, flatMap_utf8EncodeChar_of_ascii]
  intro c hc
  have hdigit := Char.isDigit_iff_toNat.1 ((Numeral.digits_toDigits n).isDigit c hc)
  exact Nat.lt_of_le_of_lt hdigit.2 (by decide)

theorem byte_of_isDigit {c : Char} (hc : c.isDigit = true) :
    character c.val.toUInt8 = c ∧ 48 ≤ c.val.toUInt8 ∧ c.val.toUInt8 ≤ 57 := by
  have hrange := Char.isDigit_iff_toNat.1 hc
  simp only [Char.reduceToNat] at hrange
  have hbyte : c.val.toUInt8.toNat = c.toNat := by
    rw [UInt32.toNat_toUInt8]
    exact Nat.mod_eq_of_lt (Nat.lt_of_le_of_lt hrange.2 (by decide))
  rw [UInt8.le_iff_toNat_le, UInt8.le_iff_toNat_le, character, hbyte, Char.ofNat_toNat]
  exact ⟨rfl, hrange⟩

theorem states_written (n : Nat) : States (toString n).toUTF8 n := by
  have hdigits := Numeral.digits_toDigits n
  refine ⟨fun b hb => ?_, [], Nat.toDigits 10 n, [], ?_, by simp [Blanks], by simp [Blanks], .bare hdigits⟩
  · rw [toList_toUTF8_toString] at hb
    obtain ⟨c, hc, rfl⟩ := List.mem_map.1 hb
    obtain ⟨-, hlow, hhigh⟩ := byte_of_isDigit (hdigits.isDigit c hc)
    exact .inr ⟨UInt8.le_trans (by decide) hlow, UInt8.le_trans hhigh (by decide)⟩
  · rw [characters, toList_toUTF8_toString, List.map_map, List.nil_append, List.append_nil]
    refine (List.map_congr_left fun c hc => ?_).trans (List.map_id _)
    exact (byte_of_isDigit (hdigits.isDigit c hc)).1

/-! ## The rule -/

/-- Of all headers the first that names a cost decides, whatever its value is. Zeros and blanks around a
number are of no account, and a number that is written out is read back. -/
theorem cost_by_first_header (headers : Headers) :
    (∀ value, FirstCost headers value → ∀ n, headers.cost = n ↔ Costs value n) ∧
      ((∀ header ∈ headers, ¬ NamesCost header.1) → headers.cost = 1) ∧
      (∀ value headers' value', FirstCost headers value → FirstCost headers' value' → Respelled value value' →
        headers'.cost = headers.cost) ∧
      ∀ count : Nat, count ≤ 9_223_372_036_854_775_807 → FirstCost headers (toString count).toUTF8 →
        headers.cost.toNat = count := by
  -- all parts are about the value of the first header, whatever stands before and after it
  have hcosts : ∀ {headers value}, FirstCost headers value → ∀ n, Headers.cost headers = n ↔ Costs value n := by
    intro headers value h n
    rw [Headers.cost_of_firstCost h, costs_iff]
  refine ⟨fun value h => hcosts h, fun h => ?_, ?_, ?_⟩
  · exact Headers.cost_of_absent (first?_eq_none h)
  · intro value headers' value' h h' hrespelled
    rw [hcosts h', Costs.congr hrespelled.states_iff]
    exact (hcosts h _).1 rfl
  · intro count hcount h
    have hn : (UInt64.ofNat count).toNat = count := by
      refine UInt64.toNat_ofNat_of_lt' ?_
      rw [UInt64.size]
      omega
    rw [(hcosts h (UInt64.ofNat count)).2 (.stated count (states_written count) (by omega) (by omega) ?_), hn]
    rw [hn, Int.toNat_natCast]

/-- A padded number before another one, the largest number there is, and one above it. -/
theorem cost_by_first_header_of_padded :
    let plain : ByteArray := ⟨#[43, 52, 50]⟩
    let padded : ByteArray := ⟨#[43, 48, 48, 52, 50]⟩
    let headers (value : ByteArray) : Headers :=
      [("Accept", ⟨#[42]⟩), ("X-Request-Cost", value), ("x-request-cost", ⟨#[57]⟩)]
    Headers.cost (headers plain) = 42 ∧ Headers.cost (headers padded) = 42 ∧ Headers.cost [("Accept", plain)] = 1 ∧
      (Headers.cost (headers (toString 9_223_372_036_854_775_807).toUTF8)).toNat = 9_223_372_036_854_775_807 ∧
      Headers.cost (headers (toString 9_223_372_036_854_775_808).toUTF8) = 1 := by
  intro plain padded headers
  have hfirst : ∀ value, FirstCost (headers value) value :=
    fun value => .there (by decide) (.here (by decide))
  have hstates : States plain 42 := by
    refine ⟨?_, [], ['+', '4', '2'], [], ?_, by simp [Blanks], by simp [Blanks], ?_⟩
    · rw [toList_eq]
      simp [plain, PlainByte]
    · rw [characters, toList_eq]
      decide
    · exact .plus ⟨by decide, by simp, by decide⟩
  have hpadded : Respelled plain padded :=
    .zeros [] [43] 2 52 [50] (by simp [BlankBytes]) (.inr (.inl rfl)) (by decide) (by rw [toList_eq]; rfl)
      (by rw [toList_eq]; rfl)
  have hplain : Headers.cost (headers plain) = 42 := by
    refine ((cost_by_first_header (headers plain)).1 plain (hfirst plain) 42).2 ?_
    exact .stated 42 hstates (by decide) (by decide) rfl
  refine ⟨hplain, ?_, ?_, ?_, ?_⟩
  · rw [(cost_by_first_header (headers plain)).2.2.1 plain _ padded (hfirst plain) (hfirst padded) hpadded]
    exact hplain
  · exact (cost_by_first_header [("Accept", plain)]).2.1 (by decide)
  · exact (cost_by_first_header _).2.2.2 _ (by decide) (hfirst _)
  · refine ((cost_by_first_header _).1 _ (hfirst _) 1).2 (.other (fun z hz => .inr ?_) rfl)
    rw [hz.unique (states_written 9_223_372_036_854_775_808)]
    decide

end Throttle.Http
