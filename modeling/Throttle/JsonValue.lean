import Throttle.Numeral.Decimal

/-!
# JSON values

The values that answers are made of, and their text: no blanks, members in the order in which they
are given, a real number in the fewest digits that read back.
-/

set_option autoImplicit false

namespace Throttle

inductive JsonValue where
  | text (s : String)
  | count (n : Nat)
  /-- A real number; one that JSON cannot express is written as null. -/
  | real (x : Binary64)
  | list (items : List JsonValue)
  | record (members : List (String × JsonValue))

namespace JsonValue

/-! ## Text in quotes -/

def controlEscape (c : Char) : String :=
  let digits := Nat.toDigits 16 c.toNat
  "\\u" ++ String.ofList (List.replicate (4 - digits.length) '0' ++ digits)

def escaped (c : Char) : String :=
  match c with
  | '"' => "\\\""
  | '\\' => "\\\\"
  | '\x08' => "\\b"
  | '\t' => "\\t"
  | '\n' => "\\n"
  | '\x0c' => "\\f"
  | '\r' => "\\r"
  | _ => if c.toNat < 0x20 then controlEscape c else String.singleton c

def quoted (s : String) : String :=
  "\"" ++ String.join (s.toList.map escaped) ++ "\""

/-! ## Numbers -/

/-- A decimal with a point, written positionally up to sixteen places before the point and four
zeros behind it, and otherwise with an exponent. -/
def decimalText (d : Numeral.Decimal) : String :=
  let digits := Nat.toDigits 10 d.digits
  let point := digits.length + d.exponent
  if 0 ≤ d.exponent ∧ point ≤ 16 then d.positional ++ ".0"
  else if -5 < point ∧ point ≤ 16 then d.positional
  else
    let fraction := if digits.length = 1 then [] else '.' :: digits.drop 1
    String.ofList (digits.take 1 ++ fraction ++ 'e' :: (toString (point - 1)).toList)

/-- A real number, if JSON can express it. -/
def realText? : Binary64 → Option String
  | .nan => none
  | .infinity _ => none
  | .negZero => some "-0.0"
  | .finite q _ =>
    let magnitude := if q = 0 then "0.0" else decimalText (Numeral.shortest q.abs)
    some (if q < 0 then "-" ++ magnitude else magnitude)

/-! ## Values -/

mutual

def render : JsonValue → String
  | text s => quoted s
  | count n => String.ofList (Nat.toDigits 10 n)
  | real x => (realText? x).getD "null"
  | list items => "[" ++ String.intercalate "," (renderAll items) ++ "]"
  | record members =>
    "\x7b" ++ String.intercalate "," (renderMembers members) ++ "\x7d"

def renderAll : List JsonValue → List String
  | [] => []
  | item :: rest => item.render :: renderAll rest

def renderMembers : List (String × JsonValue) → List String
  | [] => []
  | (name, value) :: rest => (quoted name ++ ":" ++ value.render) :: renderMembers rest

end

end JsonValue

end Throttle
