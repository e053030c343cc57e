import Throttle.Yaml.Property

/-!
# From a text to its tokens

Most tokens are read where they stand. Two things are only known later: that a node already read was
the key of a mapping, which the colon behind it tells, and that a block collection has ended, which
the indentation of a later line tells. The state therefore remembers the places at which a key may
have begun, one for each level of nesting in flow collections, and the columns of the block
collections that are open.
-/

set_option autoImplicit false

namespace Throttle.Yaml

/-! ## State -/

structure PendingKey where
  token : Nat
  line : Nat
  column : Nat
  offset : Nat
  /-- Whether a colon has to follow, since the line stands at the indentation of a mapping. -/
  required : Bool

structure TokenStream where
  cursor : Cursor
  /-- The tokens read so far, the last one first. -/
  tokens : List Token
  count : Nat
  /-- The column of the innermost block collection, or -1. -/
  indent : Int
  outerIndents : List Int
  flowDepth : Nat
  pending : Option PendingKey
  outerPending : List (Option PendingKey)
  keyAllowed : Bool

namespace TokenStream

def start (text : String) : TokenStream where
  cursor := .start text
  tokens := []
  count := 0
  indent := -1
  outerIndents := []
  flowDepth := 0
  pending := none
  outerPending := []
  keyAllowed := true

def inFlow (s : TokenStream) : Bool := s.flowDepth != 0

def emit (s : TokenStream) (token : Token) : TokenStream :=
  { s with tokens := token :: s.tokens, count := s.count + 1 }

/-- Puts a token behind the first `place` ones. -/
def insert (s : TokenStream) (place : Nat) (token : Token) : TokenStream :=
  let later := s.count - place
  { s with tokens := s.tokens.take later ++ token :: s.tokens.drop later, count := s.count + 1 }

/-! ## Pending keys -/

/-- Gives up the pending key, which must not have been a required one. -/
def dropPending (s : TokenStream) : Except Malformed TokenStream :=
  if s.pending.any (·.required) then throw .missingColon
  else return { s with pending := none }

def markKey (s : TokenStream) : Except Malformed TokenStream := do
  if !s.keyAllowed then return s
  let s ← s.dropPending
  return { s with
    pending := some {
      token := s.count
      line := s.cursor.line
      column := s.cursor.column
      offset := s.cursor.offset
      required := !s.inFlow && s.indent = s.cursor.column } }

/-- A key takes at most one line and 1024 bytes. -/
def isStale (c : Cursor) (key : PendingKey) : Bool :=
  key.line < c.line || key.offset + 1024 < c.offset

/-- Gives up the pending key if the cursor has left it too far behind. Those around a flow collection
are looked at again when it has closed. -/
def dropStale (s : TokenStream) : Except Malformed TokenStream :=
  if s.pending.any (isStale s.cursor) then s.dropPending else return s

/-! ## Block collections -/

/-- Opens a block collection at a column beyond the innermost one; its token goes behind the first
`place` ones. -/
def openBlock (s : TokenStream) (column place : Nat) (token : Token) : TokenStream :=
  if s.inFlow || (column : Int) ≤ s.indent then s
  else { s.insert place token with
    indent := column
    outerIndents := s.indent :: s.outerIndents }

/-- The innermost column and those around it without those right of `column`, and the number of
these. -/
def closeWhile (column : Int) : List Int → Int → Nat → Int × List Int × Nat
  | [], indent, closed => (indent, [], closed)
  | outer :: rest, indent, closed =>
    if column < indent then closeWhile column rest outer (closed + 1)
    else (indent, outer :: rest, closed)

def closeBlocks (s : TokenStream) (column : Int) : TokenStream :=
  if s.inFlow then s
  else
    let (indent, outerIndents, closed) := closeWhile column s.outerIndents s.indent 0
    { s with
      indent
      outerIndents
      tokens := List.replicate closed .blockEnd ++ s.tokens
      count := s.count + closed }

/-! ## Between tokens -/

/-- Moves past blanks, comments and line breaks. A tab counts as a blank only where no block key may
begin, and a line break outside flow collections allows one. -/
def skipBlanks (inFlow : Bool) (size : Nat) :
    List Char → (line column offset : Nat) → (keyAllowed inComment : Bool) → Cursor × Bool
  | [], line, column, offset, keyAllowed, _ => (⟨[], line, column, offset, size⟩, keyAllowed)
  | '\r' :: '\n' :: rest, line, _, offset, keyAllowed, _ =>
    skipBlanks inFlow size rest (line + 1) 0 (offset + 2) (keyAllowed || !inFlow) false
  | ch :: rest, line, column, offset, keyAllowed, inComment =>
    let next := offset + ch.utf8Size
    if isBreak ch then
      skipBlanks inFlow size rest (line + 1) 0 next (keyAllowed || !inFlow) false
    else if inComment || ch = '#' then
      skipBlanks inFlow size rest line (column + 1) next keyAllowed true
    else if ch = ' ' || (ch = byteOrderMark && column = 0) ||
        (ch = '\t' && (inFlow || !keyAllowed)) then
      skipBlanks inFlow size rest line (column + 1) next keyAllowed false
    else (⟨ch :: rest, line, column, offset, size⟩, keyAllowed)

/-- Moves to the next token, and settles what its line and column tell. -/
def toNextToken (s : TokenStream) : Except Malformed TokenStream := do
  let c := s.cursor
  let (cursor, keyAllowed) :=
    skipBlanks s.inFlow c.size c.rest c.line c.column c.offset s.keyAllowed false
  let s ← dropStale { s with cursor, keyAllowed }
  return s.closeBlocks cursor.column

/-! ## Tokens -/

/-- Reads an indicator of `width` characters. -/
def indicator (s : TokenStream) (token : Token) (width : Nat) : TokenStream :=
  let cursor := s.cursor.skip width
  { s.emit token with cursor }

def directive (s : TokenStream) : Except Malformed TokenStream := do
  let s ← (s.closeBlocks (-1)).dropPending
  let (token, cursor) ← readDirective s.cursor
  return { s.emit token with cursor, keyAllowed := false }

def documentMark (s : TokenStream) (token : Token) : Except Malformed TokenStream := do
  let s ← (s.closeBlocks (-1)).dropPending
  return { s.indicator token 3 with keyAllowed := false }

def openFlow (s : TokenStream) (token : Token) : Except Malformed TokenStream := do
  let s ← s.markKey
  let flowDepth := s.flowDepth + 1
  let outerPending := s.pending :: s.outerPending
  return { s.indicator token 1 with flowDepth, pending := none, outerPending, keyAllowed := true }

def closeFlow (s : TokenStream) (token : Token) : Except Malformed TokenStream := do
  let s ← s.dropPending
  let s := { s.indicator token 1 with keyAllowed := false }
  match s.flowDepth, s.outerPending with
  | depth + 1, pending :: outerPending => return { s with flowDepth := depth, pending, outerPending }
  | _, _ => return s

def flowEntry (s : TokenStream) : Except Malformed TokenStream := do
  let s ← s.dropPending
  return { s.indicator .flowEntry 1 with keyAllowed := true }

def blockEntry (s : TokenStream) : Except Malformed TokenStream := do
  if !s.inFlow && !s.keyAllowed then throw .misplacedIndicator
  let s ← (s.openBlock s.cursor.column s.count .blockSequenceStart).dropPending
  return { s.indicator .blockEntry 1 with keyAllowed := true }

/-- Reads a question mark, which announces a key. -/
def explicitKey (s : TokenStream) : Except Malformed TokenStream := do
  if !s.inFlow && !s.keyAllowed then throw .misplacedIndicator
  let s ← (s.openBlock s.cursor.column s.count .blockMappingStart).dropPending
  return { s.indicator .key 1 with keyAllowed := !s.inFlow }

/-- Reads a colon. The pending key, if there is one, turns out to have been a key. -/
def value (s : TokenStream) : Except Malformed TokenStream := do
  match s.pending with
  | some key =>
    let s := { s.insert key.token .key with pending := none }
    let s := s.openBlock key.column key.token .blockMappingStart
    return { s.indicator .value 1 with keyAllowed := false }
  | none =>
    if !s.inFlow && !s.keyAllowed then throw .misplacedIndicator
    let s := s.openBlock s.cursor.column s.count .blockMappingStart
    return { s.indicator .value 1 with keyAllowed := !s.inFlow }

/-- Reads the name of an anchor or alias, which may begin a key. -/
def named (s : TokenStream) (token : String → Token) : Except Malformed TokenStream := do
  let s ← s.markKey
  let (name, cursor) ← anchorName s.cursor
  return { s.emit (token name) with cursor, keyAllowed := false }

def tag (s : TokenStream) : Except Malformed TokenStream := do
  let s ← s.markKey
  let (token, cursor) ← readTag s.inFlow s.cursor
  return { s.emit token with cursor, keyAllowed := false }

def block (s : TokenStream) (fold : Bool) : Except Malformed TokenStream := do
  let s ← s.dropPending
  let (text, cursor) ← blockScalar fold s.indent s.cursor
  return { s.emit (.scalar text (if fold then .quoted else .literal)) with
    cursor, keyAllowed := true }

def quoted (s : TokenStream) (quote : Char) : Except Malformed TokenStream := do
  let s ← s.markKey
  let (text, cursor) ← quotedScalar quote s.cursor
  return { s.emit (.scalar text .quoted) with cursor, keyAllowed := false }

def plain (s : TokenStream) : Except Malformed TokenStream := do
  let s ← s.markKey
  let (text, keyAllowed, cursor) ← plainScalar s.inFlow (s.indent + 1) s.cursor
  return { s.emit (.scalar text .plain) with cursor, keyAllowed }

/-- Whether a plain scalar may begin with `ch`, given the character behind it. -/
def beginsPlain (inFlow : Bool) (ch : Char) (next : Option Char) : Bool :=
  if ch = '-' then !next.any isBlank
  else if ch = '?' || ch = ':' then !inFlow && !endsWord next
  else !(endsWord (some ch) || ",[]{}#&*!|>'\"%@`".contains ch)

/-- Reads the token that begins with `ch`. -/
def readToken (s : TokenStream) (ch : Char) : Except Malformed TokenStream :=
  let c := s.cursor
  let next := c.peekAt 1
  if ch = '%' && c.column = 0 then s.directive
  else if c.atMark '-' then s.documentMark .documentStart
  else if c.atMark '.' then s.documentMark .documentEnd
  else match ch with
    | '[' => s.openFlow .flowSequenceStart
    | '{' => s.openFlow .flowMappingStart
    | ']' => s.closeFlow .flowSequenceEnd
    | '}' => s.closeFlow .flowMappingEnd
    | ',' => s.flowEntry
    | '*' => s.named .alias
    | '&' => s.named .anchor
    | '!' => s.tag
    | '\'' => s.quoted ch
    | '"' => s.quoted ch
    | _ =>
      if ch = '-' && endsWord next then s.blockEntry
      else if ch = '?' && (s.inFlow || endsWord next) then s.explicitKey
      else if ch = ':' && (s.inFlow || endsWord next) then s.value
      else if ch = '|' && !s.inFlow then s.block false
      else if ch = '>' && !s.inFlow then s.block true
      else if beginsPlain s.inFlow ch next then s.plain
      else throw (.unexpectedCharacter ch)

def finish (s : TokenStream) : Except Malformed (List Token) := do
  let s ← (s.closeBlocks (-1)).dropPending
  return s.tokens.reverse

/-- Reads token after token. Each has a character, so as many steps as there are characters do. -/
def readAll : Nat → TokenStream → Except Malformed (List Token)
  | 0, s => s.finish
  | fuel + 1, s => do
    let s ← s.toNextToken
    match s.cursor.peek with
    | none => s.finish
    | some ch => readAll fuel (← s.readToken ch)

end TokenStream

def Token.ofText (text : String) : Except Malformed (List Token) :=
  match text.toList.find? (!isAllowed ·) with
  | some ch => throw (.forbiddenCharacter ch)
  | none => TokenStream.readAll (text.length + 1) (.start text)

end Throttle.Yaml
