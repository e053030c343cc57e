import Throttle.Yaml.Scalar
import Throttle.Yaml.Token

/-!
# Anchors, tags and directives

The tokens whose text is a name, a tag or a directive, read with the cursor on their indicator.
-/

set_option autoImplicit false

namespace Throttle.Yaml

/-! ## Anchors and aliases -/

def endsAnchor : Option Char → Bool
  | none => true
  | some c =>
    isBlank c || isBreak c || c = '?' || c = ':' || c = ',' || c = ']' || c = '}' || c = '%' ||
      c = '@' || c = '`'

def anchorName (c : Cursor) : Except Malformed (String × Cursor) :=
  let (name, c) := (c.skip 1).takeWhile isNameChar
  if name.isEmpty || !endsAnchor c.peek then throw .badAnchor
  else return (String.ofList name, c)

/-! ## Tags -/

/-- The characters of a tag; `verbatim` admits those that end a tag in a flow collection. -/
def isTagChar (verbatim : Bool) (c : Char) : Bool :=
  isNameChar c || ";/?:@&=+$.%!~*'()".contains c || (verbatim && (c = ',' || c = '[' || c = ']'))

/-- How many bytes a character has in UTF-8, by the first of them. -/
def utf8Width? (lead : Nat) : Option Nat :=
  if lead < 0x80 then some 1
  else if 0xC0 ≤ lead && lead < 0xE0 then some 2
  else if 0xE0 ≤ lead && lead < 0xF0 then some 3
  else if 0xF0 ≤ lead && lead < 0xF8 then some 4
  else none

def escapedByte? : List Char → Option Nat
  | '%' :: a :: b :: _ => hexValue? [a, b]
  | _ => none

/-- Reads one character escaped byte by byte: the character and the number of characters read. A
character beyond ASCII is not told apart from the others beyond it. -/
def readTagEscape (cs : List Char) : Except Malformed (Char × Nat) :=
  match escapedByte? cs with
  | none => throw .badTag
  | some lead => match utf8Width? lead with
    | none => throw .badTag
    | some width =>
      let trails := (List.range (width - 1)).map fun i => escapedByte? (cs.drop (3 * (i + 1)))
      if trails.all fun byte => byte.any fun b => 0x80 ≤ b && b < 0xC0 then
        return (if width = 1 then Char.ofNat lead else '\uFFFD', 3 * width)
      else throw .badTag

def tagText (verbatim : Bool) : Nat → String → Cursor → Except Malformed (String × Cursor)
  | 0, text, c => return (text, c)
  | fuel + 1, text, c =>
    match c.rest with
    | [] => return (text, c)
    | ch :: _ =>
      if ch = '%' then
        match readTagEscape c.rest with
        | .ok (escaped, width) => tagText verbatim fuel (text.push escaped) (c.skip width)
        | .error fault => throw fault
      else if isTagChar verbatim ch then tagText verbatim fuel (text.push ch) (c.skip 1)
      else return (text, c)

/-- A text before its first NUL character. A tag or an expansion ends there, whatever follows it. -/
def beforeNul (text : String) : String :=
  String.ofList (text.toList.takeWhile (· != '\x00'))

/-- Reads the characters of a tag, of which there must be one. -/
def tagSuffix (verbatim : Bool) (c : Cursor) : Except Malformed (String × Cursor) := do
  let (text, c) ← tagText verbatim (c.size + 1) "" c
  if text.isEmpty then throw .badTag
  return (beforeNul text, c)

/-- Reads an exclamation mark, the name behind it and the exclamation mark behind the name, if there
is one. -/
def tagHandle (c : Cursor) : Except Malformed (String × Cursor) := do
  if c.peek != some '!' then throw .badTag
  let (name, c) := (c.skip 1).takeWhile isNameChar
  let handle := String.ofList ('!' :: name)
  if c.peek = some '!' then return (handle.push '!', c.skip 1)
  return (handle, c)

/-- Reads a tag: verbatim in angle brackets, or behind a handle. A lone exclamation mark has no
handle. -/
def readTag (inFlow : Bool) (c : Cursor) : Except Malformed (Token × Cursor) := do
  let (token, c) ← if c.peekAt 1 = some '<' then do
      let (suffix, c) ← tagSuffix true (c.skip 2)
      if c.peek != some '>' then throw .badTag
      pure (Token.tag "" suffix, c.skip 1)
    else do
      let (handle, after) ← tagHandle c
      if handle.length > 1 && handle.endsWith "!" then do
        let (suffix, c) ← tagSuffix false after
        pure (Token.tag handle suffix, c)
      else do
        let start := String.ofList (handle.toList.drop 1)
        let (text, c) ← tagText false (after.size + 1) start after
        let suffix := beforeNul text
        pure (if suffix.isEmpty then Token.tag "" "!" else Token.tag "!" suffix, c)
  if endsWord c.peek || (inFlow && c.peek = some ',') then return (token, c)
  throw .badTag

/-! ## Directives -/

/-- Reads a part of a version, a number of at most nine digits. -/
def versionPart (c : Cursor) : Except Malformed (Nat × Cursor) :=
  let (digits, c) := c.takeWhile Char.isDigit
  if digits.isEmpty || 9 < digits.length then throw .badDirective
  else return (digits.foldl (fun n d => 10 * n + (d.toNat - '0'.toNat)) 0, c)

def versionDirective (c : Cursor) : Except Malformed (Token × Cursor) := do
  let (major, c) ← versionPart (c.skipWhile isBlank)
  if c.peek != some '.' then throw .badDirective
  let (minor, c) ← versionPart (c.skip 1)
  return (.versionDirective major minor, c)

def tagDirective (c : Cursor) : Except Malformed (Token × Cursor) := do
  let (handle, c) ← tagHandle (c.skipWhile isBlank)
  if !handle.endsWith "!" then throw .badDirective
  if !c.peek.any isBlank then throw .badDirective
  let (expansion, c) ← tagSuffix true (c.skipWhile isBlank)
  if !endsWord c.peek then throw .badDirective
  return (.tagDirective handle expansion, c)

def readDirective (c : Cursor) : Except Malformed (Token × Cursor) := do
  let (name, c) := (c.skip 1).takeWhile isNameChar
  if !endsWord c.peek then throw .badDirective
  let (token, c) ← match String.ofList name with
    | "YAML" => versionDirective c
    | "TAG" => tagDirective c
    | _ => throw .badDirective
  return (token, ← c.finishLine .badDirective)

end Throttle.Yaml
