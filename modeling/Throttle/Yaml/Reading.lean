import Throttle.Numeral.Decimal
import Throttle.Text.Quoted
import Throttle.Yaml.Node

/-!
# What a scalar reads as

A plain scalar may be nothing, a truth value, an integer or a double-precision number, and is a text
otherwise. A tag of the core schema asks for one of these by name. `Found` is what a message says of
a node that is not what was expected.
-/

set_option autoImplicit false

namespace Throttle.Yaml

open Numeral (ofDigits? binary64? shortestText)

/-! ## Plain texts -/

def isNull (text : String) : Bool :=
  text = "null" || text = "Null" || text = "NULL" || text = "~"

def boolean? (text : String) : Option Bool :=
  if text = "true" || text = "True" || text = "TRUE" then some true
  else if text = "false" || text = "False" || text = "FALSE" then some false
  else none

def withoutSign : List Char → List Char
  | '+' :: cs => cs
  | '-' :: cs => cs
  | cs => cs

/-- Digits that begin with a zero, which are no number. -/
def isZeroPadded (cs : List Char) : Bool :=
  match withoutSign cs with
  | '0' :: d :: rest => (d :: rest).all Char.isDigit
  | _ => false

/-- A number without its sign, in one of the four bases. -/
def magnitude? : List Char → Option Nat
  | '0' :: 'x' :: digits => ofDigits? 16 digits
  | '0' :: 'o' :: digits => ofDigits? 8 digits
  | '0' :: 'b' :: digits => ofDigits? 2 digits
  | digits => if isZeroPadded digits then none else ofDigits? 10 digits

def unsigned? : List Char → Option Nat
  | '+' :: cs => magnitude? cs
  | cs => magnitude? cs

def integer? : List Char → Option Int
  | '-' :: cs => (magnitude? cs).map fun n => -(n : Int)
  | cs => (unsigned? cs).map Int.ofNat

/-- A double-precision number; a number too large for one is none. -/
def real? (cs : List Char) : Option Binary64 :=
  let (plus, positive) := match cs with
    | '+' :: rest => (true, rest)
    | _ => (false, cs)
  let text := String.ofList cs
  let unsignedText := String.ofList positive
  if unsignedText = ".inf" || unsignedText = ".Inf" || unsignedText = ".INF" then
    some (.infinity false)
  else if text = "-.inf" || text = "-.Inf" || text = "-.INF" then some (.infinity true)
  else if text = ".nan" || text = ".NaN" || text = ".NAN" then some .nan
  else if plus && (positive.head? = some '+' || positive.head? = some '-') then none
  else (binary64? positive).filter fun x => !x.isNaN && !x.isInfinite

/-! ## Findings -/

/-- A kind of value, as messages name it. -/
inductive Found where
  | unit
  | boolean (b : Bool)
  | integer (n : Int)
  | real (x : Binary64)
  | text (s : String)
  | sequence
  | mapping
  deriving DecidableEq

/-- Whether an integer fits into 64 bits, with or without a sign. -/
def fitsIn64 (n : Int) : Bool :=
  Int64.minValue.toInt ≤ n && n < UInt64.size

/-- Whether an integer fits into 128 bits, with or without a sign. -/
def fitsIn128 (n : Int) : Bool :=
  -170_141_183_460_469_231_731_687_303_715_884_105_728 ≤ n &&
    n < 340_282_366_920_938_463_463_374_607_431_768_211_456

namespace Found

/-- The words for a value. An integer beyond 64 bits is shown with the width that holds it, and a
real number with a point. -/
def describe : Found → String
  | unit => "unit value"
  | boolean b => "boolean `" ++ (if b then "true" else "false") ++ "`"
  | integer n =>
    let width :=
      if fitsIn64 n then "" else if 0 ≤ n then " as u128" else " as i128"
    "integer `" ++ toString n ++ "`" ++ width
  | real x =>
    let digits := shortestText x
    let isWhole := !digits.contains '.' && !x.isNaN && !x.isInfinite
    "floating point `" ++ digits ++ (if isWhole then ".0" else "") ++ "`"
  | text s => "string " ++ Text.quoted s
  | sequence => "sequence"
  | mapping => "map"

end Found

/-- What a plain scalar without a tag reads as. Integers of more than 128 bits read as reals. -/
def plainFound (text : String) : Found :=
  if text.isEmpty || isNull text then .unit
  else match boolean? text with
    | some b => .boolean b
    | none =>
      match (integer? text.toList).filter fitsIn128 with
      | some n => .integer n
      | none =>
        match (real? text.toList).filter fun _ => !isZeroPadded text.toList with
        | some x => .real x
        | none => .text text

/-! ## Tags -/

def boolTag : String := "tag:yaml.org,2002:bool"
def intTag : String := "tag:yaml.org,2002:int"
def floatTag : String := "tag:yaml.org,2002:float"
def nullTag : String := "tag:yaml.org,2002:null"

inductive Mismatch where
  | wrongType (found : Found) (expected : String)
  | badValue (found : Found) (expected : String)
  deriving DecidableEq

def Mismatch.message : Mismatch → String
  | wrongType found expected => "invalid type: " ++ found.describe ++ ", expected " ++ expected
  | badValue found expected => "invalid value: " ++ found.describe ++ ", expected " ++ expected

namespace Scalar

def isPlain (s : Scalar) : Bool := s.style = .plain

/-- What is wrong with a scalar where `expected` was: its kind, or its text if it is none of the
kind that its tag names. -/
def mismatch (s : Scalar) (expected : String) : Mismatch :=
  let tagged (found : Option Found) (kind : String) : Mismatch :=
    match found with
    | some found => .wrongType found expected
    | none => .badValue (.text s.text) kind
  match s.tag with
  | none => .wrongType (if s.isPlain then plainFound s.text else .text s.text) expected
  | some tag =>
    if tag = boolTag then tagged ((boolean? s.text).map .boolean) "a boolean"
    else if tag = intTag then
      tagged (((integer? s.text.toList).filter fitsIn128).map .integer) "an integer"
    else if tag = floatTag then tagged ((real? s.text.toList).map .real) "a float"
    else if tag = nullTag then tagged (if isNull s.text then some .unit else none) "null"
    else if tag.startsWith "!" && s.isPlain then .wrongType (plainFound s.text) expected
    else .wrongType (.text s.text) expected

/-- Whether a scalar may be read as other than text: it is plain, or a literal block with the tag of
what it is read as. -/
def mayBe (s : Scalar) (tag : String) : Bool :=
  s.isPlain || (s.style = .literal && s.tag = some tag)

def unsigned? (s : Scalar) : Option Nat :=
  if s.mayBe intTag then Yaml.unsigned? s.text.toList else none

def integer? (s : Scalar) : Option Int :=
  if s.mayBe intTag then Yaml.integer? s.text.toList else none

def real? (s : Scalar) : Option Binary64 :=
  if s.mayBe floatTag then Yaml.real? s.text.toList else none

/-- Whether a scalar says that there is no value. A scalar tagged as null has to say so. -/
def isNothing (s : Scalar) : Except Mismatch Bool :=
  if !s.isPlain then return false
  else match s.tag with
    | some tag =>
      if tag != nullTag then return false
      else if isNull s.text then return true
      else throw (.badValue (.text s.text) "null")
    | none => return s.text.isEmpty || isNull s.text

end Scalar

end Throttle.Yaml
