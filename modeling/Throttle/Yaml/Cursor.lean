import Throttle.Yaml.Malformed

/-!
# A position in a text

The characters that are left, with the line and column that indentation is measured by and the
offset that the length of keys is measured by. The classes of characters that the format tells apart
stand first.
-/

set_option autoImplicit false

namespace Throttle.Yaml

/-! ## Classes of characters -/

def isBlank (c : Char) : Bool := c = ' ' || c = '\t'

/-- Line feed, carriage return, next line, line separator and paragraph separator. -/
def isBreak (c : Char) : Bool :=
  c = '\n' || c = '\r' || c = '\u0085' || c = '\u2028' || c = '\u2029'

/-- The end of a word: a blank, a break or the end of the text. -/
def endsWord : Option Char → Bool
  | none => true
  | some c => isBlank c || isBreak c

/-- Letters, digits, hyphen and underscore, the characters of anchors and handles. -/
def isNameChar (c : Char) : Bool :=
  c.isAlphanum || c = '_' || c = '-'

def isAllowed (c : Char) : Bool :=
  let n := c.toNat
  n = 0x9 || n = 0xA || n = 0xD || (0x20 ≤ n && n ≤ 0x7E) || n = 0x85 ||
    (0xA0 ≤ n && n ≤ 0xFFFD) || 0x10000 ≤ n

def byteOrderMark : Char := '\uFEFF'

/-! ## Cursors -/

/-- How many bytes characters take in UTF-8. -/
def byteCount (cs : List Char) : Nat := cs.foldl (fun n c => n + c.utf8Size) 0

structure Cursor where
  rest : List Char
  line : Nat
  column : Nat
  /-- Bytes before the cursor, in UTF-8. -/
  offset : Nat
  /-- How many characters the whole text has, which no part of it exceeds. -/
  size : Nat

namespace Cursor

def start (text : String) : Cursor := ⟨text.toList, 0, 0, 0, text.length⟩

def peek (c : Cursor) : Option Char := c.rest.head?

def peekAt (c : Cursor) (ahead : Nat) : Option Char := c.rest[ahead]?

/-- Moves past `n` characters of the same line. -/
def skip (c : Cursor) (n : Nat) : Cursor :=
  { c with
    rest := c.rest.drop n
    column := c.column + n
    offset := c.offset + byteCount (c.rest.take n) }

def takeWhile (c : Cursor) (p : Char → Bool) : List Char × Cursor :=
  let taken := c.rest.takeWhile p
  (taken, c.skip taken.length)

def skipWhile (c : Cursor) (p : Char → Bool) : Cursor :=
  (c.takeWhile p).2

/-- Moves past a line break, if one comes next. -/
def skipBreak (c : Cursor) : Cursor :=
  match c.rest with
  | '\r' :: '\n' :: rest =>
    { c with rest, line := c.line + 1, column := 0, offset := c.offset + 2 }
  | ch :: rest =>
    if isBreak ch then
      { c with rest, line := c.line + 1, column := 0, offset := c.offset + ch.utf8Size }
    else c
  | [] => c

/-- What a line break adds to a text: a line feed, but for the two separators themselves. -/
def breakText (c : Cursor) : String :=
  match c.peek with
  | some ch =>
    if ch = '\u2028' || ch = '\u2029' then String.singleton ch
    else if isBreak ch then "\n"
    else ""
  | none => ""

/-- Whether three equal characters stand alone at the start of a line. -/
def atMark (c : Cursor) (ch : Char) : Bool :=
  c.column = 0 && c.rest.take 3 = [ch, ch, ch] && endsWord (c.peekAt 3)

def atDocumentMark (c : Cursor) : Bool := c.atMark '-' || c.atMark '.'

/-- Moves past blanks and a comment to the end of the line, and past its break. -/
def finishLine (c : Cursor) (fault : Malformed) : Except Malformed Cursor :=
  let c := c.skipWhile isBlank
  let c := if c.peek = some '#' then c.skipWhile (!isBreak ·) else c
  match c.peek with
  | none => return c
  | some ch => if isBreak ch then return c.skipBreak else throw fault

end Cursor

end Throttle.Yaml
