/-!
# Integers in text

Reading of whole numbers: one or more digits of a base, behind an optional sign where the format
admits one, and whole numbers that have to fit into a word. Leading zeros are admitted, blanks and
separators are not.
-/

set_option autoImplicit false

namespace Throttle.Numeral

/-! ## Digits -/

/-- The value of a digit, letters counting from ten on. -/
def digit? (base : Nat) (c : Char) : Option Nat :=
  let value :=
    if c.isDigit then some (c.toNat - '0'.toNat)
    else if 'a' ≤ c ∧ c ≤ 'z' then some (c.toNat - 'a'.toNat + 10)
    else if 'A' ≤ c ∧ c ≤ 'Z' then some (c.toNat - 'A'.toNat + 10)
    else none
  value.filter (· < base)

def continueDigits? (base : Nat) (read : Nat) (cs : List Char) : Option Nat :=
  cs.foldlM (fun n c => (digit? base c).map (base * n + ·)) read

def ofDigits? (base : Nat) (cs : List Char) : Option Nat :=
  if cs.isEmpty then none else continueDigits? base 0 cs

/-! ## Signs -/

/-- A natural number in decimal digits behind an optional plus sign. -/
def natural? : List Char → Option Nat
  | '+' :: digits => ofDigits? 10 digits
  | digits => ofDigits? 10 digits

def integer? : List Char → Option Int
  | '-' :: digits => (ofDigits? 10 digits).map fun n => -(n : Int)
  | '+' :: digits => (ofDigits? 10 digits).map Int.ofNat
  | digits => (ofDigits? 10 digits).map Int.ofNat

/-! ## Words -/

/-- A number that fits into 64 bits. -/
def word64? (n : Nat) : Option UInt64 :=
  if n < UInt64.size then some (UInt64.ofNat n) else none

/-- A number that fits into 16 bits. -/
def word16? (n : Nat) : Option UInt16 :=
  if n < UInt16.size then some (UInt16.ofNat n) else none

/-- An integer that fits into 64 bits with its sign. -/
def signed64? (n : Int) : Option Int64 :=
  if Int64.minValue.toInt ≤ n ∧ n ≤ Int64.maxValue.toInt then some (Int64.ofInt n) else none

def unsigned64? (cs : List Char) : Option UInt64 := (natural? cs).bind word64?

def unsigned16? (cs : List Char) : Option UInt16 := (natural? cs).bind word16?

end Throttle.Numeral
