import Throttle.Text.Quoted

/-!
# Text on a terminal

A log may be read on a terminal, and a text from elsewhere in it could hold commands to that
terminal. Characters that may be part of such a command are spelled out. Main statement:
`isHarmless_of_mem_harmless`, none of them is left.
-/

set_option autoImplicit false

namespace Throttle.Text

/-- Bell, backspace, form feed, escape and delete. -/
def isAsciiCommand (c : Char) : Bool :=
  c = '\x07' || c = '\x08' || c = '\x0c' || c = '\x1b' || c = '\x7f'

def isWideCommand (c : Char) : Bool := 0x80 ≤ c.toNat && c.toNat ≤ 0x9F

/-- A character with no meaning to a terminal beyond where it is shown. -/
def isHarmless (c : Char) : Bool := !isAsciiCommand c && !isWideCommand c

def hexByte (n : Nat) : String :=
  String.ofList [Nat.digitChar (n / 16 % 16), Nat.digitChar (n % 16)]

/-- A character, spelled out if a terminal could take it as part of a command. -/
def spelled (c : Char) : String :=
  if isAsciiCommand c then "\\x" ++ hexByte c.toNat
  else if isWideCommand c then codePoint c
  else String.singleton c

def harmless (text : String) : String := String.join (text.toList.map spelled)

/-! ## What is left -/

theorem isHarmless_digitChar (n : Nat) : isHarmless (Nat.digitChar (n % 16)) := by
  have h : ∀ k < 16, isHarmless (Nat.digitChar k) := by decide
  exact h _ (Nat.mod_lt _ (by decide))

theorem isHarmless_of_mem_toDigits {n : Nat} (h : n ≤ 0x9F) {d : Char}
    (hd : d ∈ Nat.toDigits 16 n) : isHarmless d := by
  have all : ∀ k < 0xA0, (Nat.toDigits 16 k).all isHarmless := by decide +kernel
  exact List.all_eq_true.1 (all n (by omega)) d hd

theorem isHarmless_of_mem_hexByte {n : Nat} {d : Char} (h : d ∈ (hexByte n).toList) :
    isHarmless d := by
  simp only [hexByte, String.toList_ofList, List.mem_cons, List.not_mem_nil, or_false] at h
  rcases h with rfl | rfl <;> exact isHarmless_digitChar _

theorem isHarmless_of_mem_codePoint {c d : Char} (hc : isWideCommand c)
    (h : d ∈ (codePoint c).toList) : isHarmless d := by
  have plain : "\\u".toList.all isHarmless := by decide +kernel
  have h8 : c.toNat ≤ 0x9F := by
    rw [isWideCommand, Bool.and_eq_true, decide_eq_true_iff, decide_eq_true_iff] at hc
    exact hc.2
  simp only [codePoint, String.toList_append, String.toList_ofList, List.cons_append,
    List.mem_append, List.mem_cons, List.not_mem_nil, or_false] at h
  rcases h with h | rfl | h | rfl
  · exact List.all_eq_true.1 plain d h
  · decide
  · exact isHarmless_of_mem_toDigits h8 h
  · decide

theorem isHarmless_of_mem_spelled {c d : Char} (h : d ∈ (spelled c).toList) : isHarmless d := by
  have plain : "\\x".toList.all isHarmless := by decide +kernel
  unfold spelled at h
  split at h
  · rw [String.toList_append, List.mem_append] at h
    rcases h with h | h
    · exact List.all_eq_true.1 plain d h
    · exact isHarmless_of_mem_hexByte h
  · next narrow =>
    split at h
    · next wide => exact isHarmless_of_mem_codePoint wide h
    · next wide =>
      rw [String.toList_singleton, List.mem_singleton] at h
      subst h
      simp [isHarmless, narrow, wide]

theorem isHarmless_of_mem_harmless {text : String} {d : Char} (h : d ∈ (harmless text).toList) :
    isHarmless d := by
  rw [harmless, String.toList_join, List.mem_flatMap] at h
  obtain ⟨part, hpart, hd⟩ := h
  obtain ⟨c, _, rfl⟩ := List.mem_map.1 hpart
  exact isHarmless_of_mem_spelled hd

end Throttle.Text
