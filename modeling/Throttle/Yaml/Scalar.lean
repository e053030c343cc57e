import Throttle.Yaml.Cursor

/-!
# The text of a scalar

How the characters of a quoted, block or plain scalar become its text: escapes are replaced, and the
line breaks inside are folded or kept. Every function reads from a cursor and answers the text with
the cursor behind it.
-/

set_option autoImplicit false

namespace Throttle.Yaml

/-! ## Blanks and breaks between two words -/

structure Gap where
  blanks : String := ""
  first : String := ""
  more : String := ""
  broken : Bool := false

namespace Gap

/-- What the gap becomes in the text: one break is a space, and of several the first is lost. -/
def folded (g : Gap) : String :=
  if !g.broken then g.blanks
  else if g.first != "\n" then g.first ++ g.more
  else if g.more.isEmpty then " "
  else g.more

def addBlank (g : Gap) (ch : Char) : Gap :=
  if g.broken then g else { g with blanks := g.blanks.push ch }

def addBreak (g : Gap) (text : String) : Gap :=
  if g.broken then { g with more := g.more ++ text }
  else { g with blanks := "", first := text, broken := true }

/-- Reads blanks and breaks. At the start of a line, a tab left of column `indent` is refused. -/
def read (indent : Int) : Nat → Gap → Cursor → Except Malformed (Gap × Cursor)
  | 0, g, c => return (g, c)
  | fuel + 1, g, c =>
    match c.peek with
    | none => return (g, c)
    | some ch =>
      if isBlank ch then
        if g.broken && c.column < indent && ch = '\t' then throw .tabIndent
        else read indent fuel (g.addBlank ch) (c.skip 1)
      else if isBreak ch then read indent fuel (g.addBreak c.breakText) c.skipBreak
      else return (g, c)

end Gap

/-! ## Quoted scalars -/

def hexDigit? (c : Char) : Option Nat :=
  if c.isDigit then some (c.toNat - '0'.toNat)
  else if 'a' ≤ c && c ≤ 'f' then some (c.toNat - 'a'.toNat + 10)
  else if 'A' ≤ c && c ≤ 'F' then some (c.toNat - 'A'.toNat + 10)
  else none

def hexValue? (cs : List Char) : Option Nat :=
  cs.foldlM (fun n c => (hexDigit? c).map (16 * n + ·)) 0

/-- The character with a code point, unless it is a surrogate or beyond the last one. -/
def charOfCode? (n : Nat) : Option Char :=
  if h : n.isValidChar then some (Char.ofNatAux n h) else none

def simpleEscape? : Char → Option Char
  | '0' => some '\x00'
  | 'a' => some '\x07'
  | 'b' => some '\x08'
  | 't' => some '\t'
  | '\t' => some '\t'
  | 'n' => some '\n'
  | 'v' => some '\x0b'
  | 'f' => some '\x0c'
  | 'r' => some '\r'
  | 'e' => some '\x1b'
  | ' ' => some ' '
  | '"' => some '"'
  | '/' => some '/'
  | '\\' => some '\\'
  | 'N' => some '\u0085'
  | '_' => some '\u00a0'
  | 'L' => some '\u2028'
  | 'P' => some '\u2029'
  | _ => none

/-- How many hexadecimal digits follow a letter behind a backslash. -/
def escapeWidth? : Char → Option Nat
  | 'x' => some 2
  | 'u' => some 4
  | 'U' => some 8
  | _ => none

/-- Reads what follows a backslash: the character it stands for and the number of characters read. -/
def readEscape (cs : List Char) : Except Malformed (Char × Nat) :=
  match cs with
  | [] => throw .badEscape
  | letter :: digits =>
    match simpleEscape? letter, escapeWidth? letter with
    | some ch, _ => return (ch, 1)
    | none, none => throw .badEscape
    | none, some width =>
      let code := digits.take width
      match (hexValue? code).bind charOfCode? with
      | some ch => if code.length = width then return (ch, width + 1) else throw .badEscape
      | none => throw .badEscape

/-- Reads a run without blanks and breaks, up to the closing quote or past an escaped line break;
the flag tells the latter. -/
def quotedRun (quote : Char) : Nat → String → Cursor → Except Malformed (String × Bool × Cursor)
  | 0, text, c => return (text, false, c)
  | fuel + 1, text, c =>
    match c.rest with
    | [] => return (text, false, c)
    | ch :: rest =>
      if isBlank ch || isBreak ch then return (text, false, c)
      else if ch = quote then
        if quote = '\'' && rest.head? = some '\'' then
          quotedRun quote fuel (text.push '\'') (c.skip 2)
        else return (text, false, c)
      else if quote = '"' && ch = '\\' then
        if rest.head?.any isBreak then return (text, true, (c.skip 1).skipBreak)
        else match readEscape rest with
          | .ok (escaped, width) => quotedRun quote fuel (text.push escaped) (c.skip (width + 1))
          | .error fault => throw fault
      else quotedRun quote fuel (text.push ch) (c.skip 1)

def quotedWords (quote : Char) : Nat → String → Cursor → Except Malformed (String × Cursor)
  | 0, _, _ => throw .unterminatedScalar
  | fuel + 1, text, c => do
    if c.atDocumentMark then throw .documentMarkInScalar
    if c.rest.isEmpty then throw .unterminatedScalar
    let (text, broken, c) ← quotedRun quote c.size text c
    if c.peek = some quote then return (text, c.skip 1)
    let (gap, c) ← Gap.read 0 c.size { broken } c
    quotedWords quote fuel (text ++ gap.folded) c

/-- Reads a scalar in single or double quotes, the cursor on the opening one. -/
def quotedScalar (quote : Char) (c : Cursor) : Except Malformed (String × Cursor) :=
  quotedWords quote (c.size + 1) "" (c.skip 1)

/-! ## Plain scalars -/

/-- The indicators that end a plain scalar inside a flow collection. -/
def isFlowIndicator (c : Char) : Bool :=
  c = ',' || c = '[' || c = ']' || c = '{' || c = '}'

/-- The length of the word that comes next in a plain scalar: up to a blank, a break, a colon
before either, or a flow indicator inside a flow collection. -/
def plainWord (inFlow : Bool) : List Char → Except Malformed Nat
  | [] => return 0
  | ch :: rest =>
    if isBlank ch || isBreak ch then return 0
    else if ch = ':' && inFlow && rest.head?.any (fun next => isFlowIndicator next || next = '?') then
      throw .crowdedColon
    else if ch = ':' && endsWord rest.head? then return 0
    else if inFlow && isFlowIndicator ch then return 0
    else (· + 1) <$> plainWord inFlow rest

/-- Reads the words of a plain scalar; the gap is the one before the cursor. -/
def plainWords (inFlow : Bool) (indent : Int) :
    Nat → String → Gap → Cursor → Except Malformed (String × Bool × Cursor)
  | 0, text, gap, c => return (text, gap.broken, c)
  | fuel + 1, text, gap, c => do
    if c.atDocumentMark || c.peek = some '#' then return (text, gap.broken, c)
    let length ← plainWord inFlow c.rest
    if length = 0 then return (text, gap.broken, c)
    let text := text ++ gap.folded ++ String.ofList (c.rest.take length)
    let c := c.skip length
    if !endsWord c.peek || c.rest.isEmpty then return (text, false, c)
    let (gap, c) ← Gap.read indent c.size {} c
    if !inFlow && c.column < indent then return (text, gap.broken, c)
    plainWords inFlow indent fuel text gap c

/-- Reads a plain scalar. The lines after the first start at column `indent` or beyond, unless a
flow collection is open. The flag tells whether the cursor is behind a line break. -/
def plainScalar (inFlow : Bool) (indent : Int) (c : Cursor) :
    Except Malformed (String × Bool × Cursor) :=
  plainWords inFlow indent (c.size + 1) "" {} c

/-! ## Block scalars -/

inductive Chomping where
  | strip
  | clip
  | keep
  deriving DecidableEq

def chomping? : Option Char → Option Chomping
  | some '+' => some .keep
  | some '-' => some .strip
  | _ => none

/-- The indentation that a block asks for: a digit from 1 to 9. -/
def indentIndicator? (ch : Option Char) : Except Malformed (Option Nat) :=
  match ch with
  | some d =>
    if d = '0' then throw .badBlockHeader
    else if d.isDigit then return some (d.toNat - '0'.toNat)
    else return none
  | none => return none

/-- Reads the two indicators of a block, which come in either order, and the rest of its line. -/
def blockHeader (c : Cursor) : Except Malformed (Chomping × Option Nat × Cursor) := do
  let (chomping, indent, c) ← match chomping? c.peek with
    | some chomping =>
      let c := c.skip 1
      match ← indentIndicator? c.peek with
      | some n => pure (chomping, some n, c.skip 1)
      | none => pure (chomping, none, c)
    | none =>
      match ← indentIndicator? c.peek with
      | none => pure (.clip, none, c)
      | some n =>
        let c := c.skip 1
        match chomping? c.peek with
        | some chomping => pure (chomping, some n, c.skip 1)
        | none => pure (.clip, some n, c)
  let c ← c.finishLine .badBlockHeader
  return (chomping, indent, c)

/-- Reads empty lines and the indentation of the first line that is not. An indentation not yet
known is the deepest seen; the answer holds the line breaks and the greatest column. -/
def blockBreaks (indent : Option Nat) :
    Nat → String → Nat → Cursor → Except Malformed (String × Nat × Cursor)
  | 0, breaks, deepest, c => return (breaks, deepest, c)
  | fuel + 1, breaks, deepest, c => do
    let spaces := (c.takeWhile (· = ' ')).1.length
    let c := c.skip (match indent with
      | none => spaces
      | some n => min spaces (n - c.column))
    let deepest := max deepest c.column
    if indent.all (c.column < ·) && c.peek = some '\t' then throw .tabIndent
    if c.peek.any isBreak then
      blockBreaks indent fuel (breaks ++ c.breakText) deepest c.skipBreak
    else return (breaks, deepest, c)

structure BlockText where
  text : String := ""
  pending : String := ""
  breaks : String
  indented : Bool := false

/-- The text before the next line: between two lines that do not begin with a blank, a folded block
has a space instead of a single line break. -/
def BlockText.joined (b : BlockText) (fold indented : Bool) : String :=
  let join :=
    if fold && b.pending = "\n" && !b.indented && !indented then
      if b.breaks.isEmpty then " " else ""
    else b.pending
  b.text ++ join ++ b.breaks

def blockLines (fold : Bool) (indent : Nat) :
    Nat → BlockText → Cursor → Except Malformed (BlockText × Cursor)
  | 0, b, c => return (b, c)
  | fuel + 1, b, c => do
    if c.column != indent || c.rest.isEmpty then return (b, c)
    let indented := c.peek.any isBlank
    let (line, c) := c.takeWhile (!isBreak ·)
    let text := b.joined fold indented ++ String.ofList line
    let pending := c.breakText
    let (breaks, _, c) ← blockBreaks (some indent) (c.size + 1) "" 0 c.skipBreak
    blockLines fold indent fuel { text, pending, breaks, indented } c

/-- Reads a block scalar, the cursor on its indicator. `parent` is the indentation around it, or -1
at the outermost level. -/
def blockScalar (fold : Bool) (parent : Int) (c : Cursor) : Except Malformed (String × Cursor) := do
  let (chomping, increment, c) ← blockHeader (c.skip 1)
  let known := increment.map fun n => (max parent 0).toNat + n
  let (breaks, deepest, c) ← blockBreaks known (c.size + 1) "" 0 c
  let indent := known.getD (max deepest (max (parent + 1) 1).toNat)
  let (b, c) ← blockLines fold indent (c.size + 1) { breaks } c
  match chomping with
  | .strip => return (b.text, c)
  | .clip => return (b.text ++ b.pending, c)
  | .keep => return (b.text ++ b.pending ++ b.breaks, c)

end Throttle.Yaml
