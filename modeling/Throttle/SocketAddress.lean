import Throttle.Numeral.Integer

/-!
# Socket addresses

The address of a host and a TCP port in text: four decimal numbers for an address of 32 bits, groups
of hexadecimal digits in brackets for one of 128 bits. Names of hosts are not addresses.
-/

set_option autoImplicit false

namespace Throttle

inductive HostAddress where
  /-- An address of 32 bits. -/
  | short (octets : Vector UInt8 4)
  /-- An address of 128 bits, and the scope it is valid in. -/
  | long (groups : Vector UInt16 8) (scope : UInt32)
  deriving DecidableEq

structure SocketAddress where
  host : HostAddress
  port : UInt16
  deriving DecidableEq

namespace SocketAddress

/-! ## Numbers -/

/-- What is read from the front of a text, and the rest of it. -/
abbrev Reader (α : Type) := List Char → Option (α × List Char)

structure NumberForm where
  base : Nat
  maxDigits : Option Nat
  leadingZeros : Bool
  bound : Nat

def octetForm : NumberForm := ⟨10, some 3, false, UInt8.size⟩

def groupForm : NumberForm := ⟨16, some 4, true, UInt16.size⟩

def portForm : NumberForm := ⟨10, none, true, UInt16.size⟩

def scopeForm : NumberForm := ⟨10, none, true, UInt32.size⟩

def NumberForm.admits (form : NumberForm) (digits : List Char) : Bool :=
  form.maxDigits.all (digits.length ≤ ·) &&
    (form.leadingZeros || digits.head? != some '0' || digits.length = 1)

def number (form : NumberForm) : Reader Nat := fun cs => do
  let isDigit := fun c => (Numeral.digit? form.base c).isSome
  let digits := cs.takeWhile isDigit
  guard (form.admits digits)
  let n ← Numeral.ofDigits? form.base digits
  guard (n < form.bound)
  return (n, cs.dropWhile isDigit)

def mark (c : Char) : Reader Unit
  | d :: rest => if d = c then some ((), rest) else none
  | [] => none

def exactly? {α : Type} (count : Nat) (items : List α) : Option (Vector α count) :=
  if h : items.toArray.size = count then some ⟨items.toArray, h⟩ else none

/-! ## Hosts -/

/-- So many octets, with a point before each. -/
def furtherOctets : Nat → Reader (List UInt8)
  | 0, cs => some ([], cs)
  | count + 1, cs => do
    let ((), cs) ← mark '.' cs
    let (n, cs) ← number octetForm cs
    let (octets, cs) ← furtherOctets count cs
    return (UInt8.ofNat n :: octets, cs)

def octets : Reader (List UInt8) := fun cs => do
  let (n, cs) ← number octetForm cs
  let (octets, cs) ← furtherOctets 3 cs
  return (UInt8.ofNat n :: octets, cs)

/-- Two groups of 16 bits for four octets. -/
def groupsOfOctets : List UInt8 → List UInt16
  | a :: b :: rest => UInt16.ofNat (256 * a.toNat + b.toNat) :: groupsOfOctets rest
  | _ => []

structure GroupRun where
  groups : List UInt16
  endsInOctets : Bool
  rest : List Char

/-- At most `room` groups with colons between them, of which the last two may be written as
octets. -/
def groupRun (isFirst : Bool) : (room : Nat) → List Char → GroupRun
  | 0, cs => ⟨[], false, cs⟩
  | room + 1, cs =>
    match if isFirst then some ((), cs) else mark ':' cs with
    | none => ⟨[], false, cs⟩
    | some ((), inner) =>
      match if room = 0 then none else octets inner with
      | some (bytes, rest) => ⟨groupsOfOctets bytes, true, rest⟩
      | none =>
        match number groupForm inner with
        | none => ⟨[], false, cs⟩
        | some (n, rest) =>
          let further := groupRun false room rest
          { further with groups := UInt16.ofNat n :: further.groups }

/-- Eight groups, of which one or more zeros at one place may be left out. -/
def groups : Reader (List UInt16) := fun cs => do
  let front := groupRun true 8 cs
  if front.groups.length = 8 then return (front.groups, front.rest)
  guard (!front.endsInOctets)
  let ((), cs) ← mark ':' front.rest
  let ((), cs) ← mark ':' cs
  let back := groupRun true (7 - front.groups.length) cs
  let zeros := List.replicate (8 - front.groups.length - back.groups.length) 0
  return (front.groups ++ zeros ++ back.groups, back.rest)

/-- A scope behind its mark; 0 and nothing read if there is none. -/
def scope (cs : List Char) : UInt32 × List Char :=
  match mark '%' cs with
  | none => (0, cs)
  | some ((), inner) =>
    match number scopeForm inner with
    | none => (0, cs)
    | some (n, rest) => (UInt32.ofNat n, rest)

def longHost : Reader HostAddress := fun cs => do
  let ((), cs) ← mark '[' cs
  let (groups, cs) ← groups cs
  let groups ← exactly? 8 groups
  let (scope, cs) := scope cs
  let ((), cs) ← mark ']' cs
  return (.long groups scope, cs)

def shortHost : Reader HostAddress := fun cs => do
  let (octets, cs) ← octets cs
  let octets ← exactly? 4 octets
  return (.short octets, cs)

/-! ## Addresses -/

def complete? (host : Reader HostAddress) (cs : List Char) : Option SocketAddress := do
  let (host, cs) ← host cs
  let ((), cs) ← mark ':' cs
  let (n, cs) ← number portForm cs
  guard cs.isEmpty
  return ⟨host, UInt16.ofNat n⟩

def ofText? (text : String) : Option SocketAddress :=
  (complete? shortHost text.toList).or (complete? longHost text.toList)

/-! ## Text -/

def decimal (n : Nat) : String := String.ofList (Nat.toDigits 10 n)

def hexadecimal (n : Nat) : String := String.ofList (Nat.toDigits 16 n)

def octetsText (octets : List UInt8) : String :=
  String.intercalate "." (octets.map fun n => decimal n.toNat)

def groupsText (groups : List UInt16) : String :=
  String.intercalate ":" (groups.map fun n => hexadecimal n.toNat)

def zerosAt (groups : List UInt16) (place : Nat) : Nat :=
  ((groups.drop place).takeWhile (· = 0)).length

def longestZeros (groups : List UInt16) : Nat :=
  (List.range groups.length).foldl
    (fun best place => if zerosAt groups best < zerosAt groups place then place else best) 0

/-- Groups with the longest run of zeros left out, if it has more than one of them. -/
def longText (groups : List UInt16) : String :=
  match groups with
  | [0, 0, 0, 0, 0, 0xffff, a, b] =>
    let octets (n : UInt16) : List UInt8 := [UInt8.ofNat (n.toNat / 256), UInt8.ofNat n.toNat]
    "::ffff:" ++ octetsText (octets a ++ octets b)
  | _ =>
    let place := longestZeros groups
    let count := zerosAt groups place
    if 1 < count then groupsText (groups.take place) ++ "::" ++ groupsText (groups.drop (place + count))
    else groupsText groups

def hostText : HostAddress → String
  | .short octets => octetsText octets.toList
  | .long groups scope =>
    let scopeText := if scope = 0 then "" else "%" ++ decimal scope.toNat
    "[" ++ longText groups.toList ++ scopeText ++ "]"

def text (address : SocketAddress) : String :=
  hostText address.host ++ ":" ++ decimal address.port.toNat

end SocketAddress

end Throttle
