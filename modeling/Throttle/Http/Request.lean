import Throttle.Numeral.Integer

/-!
# Requests

What of a request the gateway looks at: the method, the path of the target and the cost that a
header names. Main statement: `cost_of_absent`, a request that names no cost pays one token.
-/

set_option autoImplicit false

namespace Throttle.Http

/-! ## Headers -/

/-- Header lines in order, the values as bytes. A name may occur more than once. -/
abbrev Headers := List (String × ByteArray)

/-- Whether two header names are the same in letters of either case. -/
def sameName (a b : String) : Bool :=
  a.toList.map Char.toLower == b.toList.map Char.toLower

def Headers.first? (headers : Headers) (name : String) : Option ByteArray :=
  (headers.find? (sameName ·.1 name)).map (·.2)

/-! ## Costs -/

def costHeader : String := "x-request-cost"

/-- Whether a byte is a tab or a visible character of ASCII or its blank. -/
def isPlain (b : UInt8) : Bool :=
  b = 9 || (32 ≤ b && b < 127)

/-- The characters of a value, if all of its bytes are plain. -/
def plainText? (value : ByteArray) : Option (List Char) :=
  let bytes := value.toList
  if bytes.all isPlain then some (bytes.map fun b => Char.ofNat b.toNat) else none

def isBlank (c : Char) : Bool :=
  c = ' ' || c = '\t'

def trimmed (cs : List Char) : List Char :=
  ((cs.dropWhile isBlank).reverse.dropWhile isBlank).reverse

/-- The cost that a header value states: a signed 64-bit number, of which a negative one costs
nothing. -/
def statedCost? (value : ByteArray) : Option UInt64 := do
  let text ← plainText? value
  let n ← Numeral.integer? (trimmed text)
  let n ← Numeral.signed64? n
  return UInt64.ofNat n.toInt.toNat

/-- The tokens that a request consumes; one, unless it states another number. -/
def Headers.cost (headers : Headers) : UInt64 :=
  ((headers.first? costHeader).bind statedCost?).getD 1

theorem Headers.cost_of_absent {headers : Headers} (h : headers.first? costHeader = none) :
    headers.cost = 1 := by
  simp [Headers.cost, h]

/-! ## Targets -/

def untilQuery (cs : List Char) : List Char :=
  cs.takeWhile fun c => c != '?' && c != '#'

/-- What follows the scheme and its mark, if there is a scheme. -/
def afterScheme? : List Char → Option (List Char)
  | ':' :: '/' :: '/' :: rest => some rest
  | _ :: rest => afterScheme? rest
  | [] => none

/-- The path of a target, neither decoded nor simplified. An address without a path has the path of
a single slash; a target that is no address and does not start with a slash has none. -/
def path? (target : String) : Option String :=
  match target.toList with
  | '/' :: rest => some (String.ofList ('/' :: untilQuery rest))
  | cs => (afterScheme? cs).map fun rest =>
    let path := untilQuery (rest.dropWhile fun c => c != '/' && c != '?' && c != '#')
    if path.isEmpty then "/" else String.ofList path

/-! ## Requests -/

inductive Method where
  | get
  | head
  | other
  deriving DecidableEq

/-- The method of a name, which is in capitals. -/
def Method.ofName (name : String) : Method :=
  if name = "GET" then .get else if name = "HEAD" then .head else .other

structure Request where
  method : Method
  target : String
  headers : Headers

end Throttle.Http
