import Throttle.RouteTable

/-!
# The order of strings is the order of their bytes

Names are compared character by character, and the encoding keeps that order: two different
characters already differ at a byte that both encodings have, whatever follows them. Main statement:
`utf8Bytes_lt_iff`.
-/

set_option autoImplicit false

namespace Throttle

def utf8Bytes (s : String) : List UInt8 := s.toByteArray.data.toList

/-! ## Encodings of characters -/

/-- The lists differ, and at the first place where they do both have a byte, the first a lower one. -/
def Before : List UInt8 → List UInt8 → Prop
  | a :: s, b :: t => a.toNat < b.toNat ∨ a.toNat = b.toNat ∧ Before s t
  | [], _ => False
  | _ :: _, [] => False

theorem append_lt_of_before {l m : List UInt8} (h : Before l m) (s t : List UInt8) : l ++ s < m ++ t := by
  induction l generalizing m with
  | nil => cases h
  | cons a l ih =>
    cases m with
    | nil => cases h
    | cons b m =>
      rw [List.cons_append, List.cons_append, List.cons_lt_cons_iff, UInt8.lt_iff_toNat_lt, ← UInt8.toNat_inj]
      rcases h with hlt | ⟨heq, hrest⟩
      · exact .inl hlt
      · exact .inr ⟨heq, ih hrest⟩

theorem toNat_byte {n : Nat} (h : n < 256) : (UInt8.ofNat n).toNat = n :=
  UInt8.toNat_ofNat_of_lt' h

theorem toNat_char_lt (c : Char) : c.val.toNat < 1114112 := by
  rcases c.valid with h | ⟨_, h⟩
  · have hlow : c.val.toNat < 55296 := h
    omega
  · exact h

theorem before_utf8EncodeChar {c d : Char} (h : c < d) :
    Before (String.utf8EncodeChar c) (String.utf8EncodeChar d) := by
  have hlt : c.val.toNat < d.val.toNat := h
  have hmax := toNat_char_lt d
  unfold String.utf8EncodeChar
  dsimp only
  clear h
  generalize c.val.toNat = v at *
  generalize d.val.toNat = w at *
  -- every byte holds one digit to the base 64, so that the digits decide one after the other
  have hv : v / 4096 = v / 64 / 64 ∧ v / 262144 = v / 64 / 64 / 64 := by omega
  have hw : w / 4096 = w / 64 / 64 ∧ w / 262144 = w / 64 / 64 / 64 := by omega
  rw [hv.1, hv.2, hw.1, hw.2]
  clear hv hw
  repeat' split
  all_goals
    simp (disch := omega) only [Before, toNat_byte]
    omega

/-! ## Strings -/

theorem utf8Bytes_eq (s : String) : utf8Bytes s = s.toList.flatMap String.utf8EncodeChar := by
  have h : s.toByteArray = s.toList.utf8Encode := by
    rw [← String.toByteArray_ofList, String.ofList_toList]
  unfold utf8Bytes
  rw [h]
  simp [List.utf8Encode]

theorem flatMap_utf8EncodeChar_lt {s t : List Char} (h : s < t) :
    s.flatMap String.utf8EncodeChar < t.flatMap String.utf8EncodeChar := by
  induction t generalizing s with
  | nil => exact absurd h (List.not_lt_nil s)
  | cons d t ih =>
    rw [List.flatMap_cons]
    cases s with
    | nil =>
      have hpos : 0 < (String.utf8EncodeChar d).length := by
        rw [String.length_utf8EncodeChar]
        exact d.utf8Size_pos
      obtain ⟨a, l, hd⟩ := List.exists_cons_of_length_pos hpos
      rw [hd]
      exact List.nil_lt_cons a _
    | cons c s =>
      rw [List.flatMap_cons]
      rcases List.cons_lt_cons_iff.1 h with hlt | ⟨rfl, hrest⟩
      · exact append_lt_of_before (before_utf8EncodeChar hlt) _ _
      · exact List.append_left_lt (ih hrest)

theorem utf8Bytes_lt_iff {s t : String} : utf8Bytes s < utf8Bytes t ↔ s < t := by
  have hmono : ∀ {s t : String}, s < t → utf8Bytes s < utf8Bytes t := by
    intro s t h
    rw [utf8Bytes_eq, utf8Bytes_eq]
    exact flatMap_utf8EncodeChar_lt (String.lt_iff.1 h)
  constructor
  · intro h
    apply Classical.byContradiction
    intro hnot
    by_cases heq : s = t
    · subst heq
      exact absurd h (List.lt_irrefl _)
    · exact absurd h (List.lt_asymm (hmono (lt_of_not_lt_of_ne hnot heq)))
  · exact hmono

end Throttle
