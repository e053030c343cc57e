import Throttle.Binary64.Basic
import Throttle.Numeral.Integer

/-!
# Double-precision numbers in text

Reading rounds the exact value of the digits once. Writing comes in two forms: the fewest digits
that read back, and a fixed number of places. Both write a number positionally, without an exponent.
-/

set_option autoImplicit false

namespace Throttle.Numeral

/-! ## Reading -/

structure Decimal where
  digits : Nat
  exponent : Int
  deriving DecidableEq, Repr

namespace Decimal

def toRat (d : Decimal) : Rat :=
  (d.digits : Rat) * (10 : Rat) ^ d.exponent

/-- How many digits a natural number has, and one for 0. -/
def width (n : Nat) : Nat := (Nat.toDigits 10 n).length

/-- The double-precision number nearest to a decimal of a sign. A number of more than 310 places
before the point is beyond the largest, one whose first digit is behind more than 330 places is
nearest to zero; neither is worked out. -/
def toBinary64 (negative : Bool) (d : Decimal) : Binary64 :=
  let top := (width d.digits : Int) + d.exponent
  if d.digits = 0 then .zero negative
  else if 310 < top then .infinity negative
  else if top < -330 then .zero negative
  else .ofRat (if negative then -d.toRat else d.toRat)

end Decimal

/-- An exponent behind its letter: an optional sign and one or more digits. -/
def exponent? (cs : List Char) : Option Int :=
  match cs with
  | '-' :: digits => (ofDigits? 10 digits).map fun n => -(n : Int)
  | '+' :: digits => (ofDigits? 10 digits).map Int.ofNat
  | digits => (ofDigits? 10 digits).map Int.ofNat

/-- Digits with an optional point among, before or behind them, and an optional exponent. -/
def decimal? (cs : List Char) : Option Decimal :=
  let whole := cs.takeWhile Char.isDigit
  let (fraction, rest) := match cs.dropWhile Char.isDigit with
    | '.' :: rest => (rest.takeWhile Char.isDigit, rest.dropWhile Char.isDigit)
    | rest => ([], rest)
  let shift := -(fraction.length : Int)
  match ofDigits? 10 (whole ++ fraction), rest with
  | some digits, [] => some ⟨digits, shift⟩
  | some digits, mark :: rest =>
    if mark = 'e' ∨ mark = 'E' then (exponent? rest).map fun e => ⟨digits, e + shift⟩ else none
  | none, _ => none

/-- A number without its sign; infinity and the not-a-number go by name, in letters of any case. -/
def unsignedBinary64? (negative : Bool) (cs : List Char) : Option Binary64 :=
  let name := String.ofList (cs.map Char.toLower)
  if name = "inf" ∨ name = "infinity" then some (.infinity negative)
  else if name = "nan" then some .nan
  else (decimal? cs).map (Decimal.toBinary64 negative)

def binary64? : List Char → Option Binary64
  | '-' :: cs => unsignedBinary64? true cs
  | '+' :: cs => unsignedBinary64? false cs
  | cs => unsignedBinary64? false cs

/-! ## Writing -/

/-- The digits of a number with a point before the last `places` of them. -/
def pointed (digits places : Nat) : String :=
  let text := Nat.toDigits 10 digits
  let padded := List.replicate (places + 1 - text.length) '0' ++ text
  let cut := padded.length - places
  if places = 0 then String.ofList padded
  else String.ofList (padded.take cut ++ '.' :: padded.drop cut)

def Decimal.positional (d : Decimal) : String :=
  if 0 ≤ d.exponent then pointed (d.digits * Nat.pow 10 d.exponent.toNat) 0
  else pointed d.digits (-d.exponent).toNat

/-- The greatest power of ten at or below a positive number, found from above. -/
def tenExponent (q : Rat) : Nat → Int → Int
  | 0, e => e
  | fuel + 1, e => if (10 : Rat) ^ e ≤ q then e else tenExponent q fuel (e - 1)

/-- The decimal of `count` digits nearest to a positive number among the two around it that read
back, if one of them does; of two equally near ones the greater. -/
def closest? (q : Rat) (top : Int) (count : Nat) : Option Decimal :=
  let exponent := top + 1 - count
  let unit := (10 : Rat) ^ exponent
  let below := (q / unit).floor.toNat
  let readsBack (n : Nat) : Bool := n != 0 && nearest (n * unit) = q
  match readsBack below, readsBack (below + 1) with
  | true, true =>
    if 2 * (q / unit - below) < 1 then some ⟨below, exponent⟩ else some ⟨below + 1, exponent⟩
  | true, false => some ⟨below, exponent⟩
  | false, true => some ⟨below + 1, exponent⟩
  | false, false => none

/-- A decimal without the zero at the end of its digits that a carry leaves. -/
def Decimal.withoutCarry (d : Decimal) : Decimal :=
  if d.digits % 10 = 0 then ⟨d.digits / 10, d.exponent + 1⟩ else d

/-- The decimal of the fewest digits that reads back as a positive double-precision number. -/
def shortest (q : Rat) : Decimal :=
  let guess := (binaryExponent q + 1) * 30103 / 100000 + 1
  let top := tenExponent q 3 guess
  let found := (List.range 17).findSome? fun i => closest? q top (i + 1)
  (found.getD ⟨0, 0⟩).withoutCarry

/-- The magnitude of a number in the fewest digits that read back; the two names for the rest. -/
def magnitudeText (x : Binary64) (write : Rat → String) : String :=
  match x with
  | .nan => "NaN"
  | .infinity _ => "inf"
  | .negZero => write 0
  | .finite q _ => write q.abs

def shortestText (x : Binary64) : String :=
  let text := magnitudeText x fun q => if q = 0 then "0" else (shortest q).positional
  if x.isNegative then "-" ++ text else text

/-- A number with a fixed number of places, rounded to nearest and on a tie to even. -/
def fixedText (places : Nat) (x : Binary64) : String :=
  let text := magnitudeText x fun q => pointed (nearestInt (q * 10 ^ places)).toNat places
  if x.isNegative then "-" ++ text else text

end Throttle.Numeral
