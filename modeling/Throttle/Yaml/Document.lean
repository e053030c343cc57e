import Throttle.Yaml.Node
import Throttle.Yaml.TokenStream

/-!
# From tokens to a document

The grammar of the format over tokens. A node may be left out almost anywhere, and stands for an
empty plain scalar then. `Document.ofText` is the whole way from a text to its tree: the text has to
hold exactly one document, or none, which reads as an empty one.
-/

set_option autoImplicit false

namespace Throttle.Yaml

/-! ## State -/

/-- What is left to read, and what the document has declared so far. -/
structure Grammar where
  tokens : List Token
  handles : List (String × String)
  /-- The anchors in force, by name. -/
  names : List (String × Nat)
  begun : Nat
  /-- Anchored nodes: the anchor's number, when the node began, and the node. -/
  anchored : List (Nat × Nat × Node)

abbrev Parse (α : Type) := StateT Grammar (Except Malformed) α

namespace Parse

def peek : Parse (Option Token) := do
  return (← get).tokens.head?

def advance : Parse Unit :=
  modify fun g => { g with tokens := g.tokens.tail }

def nextIs (token : Token) : Parse Bool := do
  return (← peek) = some token

def accept (token : Token) : Parse Bool := do
  if ← nextIs token then
    advance
    return true
  else return false

def nextIsAny (tokens : List Token) : Parse Bool := do
  return (← peek).any tokens.contains

/-! ## Properties of nodes -/

structure Properties where
  tag : Option Token := none
  anchor : Option String := none

def properties : Parse Properties := do
  match ← peek with
  | some (.anchor name) =>
    advance
    match ← peek with
    | some (.tag handle suffix) =>
      advance
      return { anchor := name, tag := some (.tag handle suffix) }
    | _ => return { anchor := name }
  | some (.tag handle suffix) =>
    advance
    match ← peek with
    | some (.anchor name) =>
      advance
      return { anchor := name, tag := some (.tag handle suffix) }
    | _ => return { tag := some (.tag handle suffix) }
  | _ => return {}

def expandTag : Option Token → Parse (Option String)
  | some (.tag "" suffix) => return some suffix
  | some (.tag handle suffix) => do
    match (← get).handles.lookup handle with
    | some expansion => return some (expansion ++ suffix)
    | none => throw (.unknownTagHandle handle)
  | _ => return none

/-- Takes the number of a new anchor: how many names there are before it. A name used again does not
add to them. -/
def beginAnchor (name : String) : Parse (Nat × Nat) := do
  let g ← get
  let number := g.names.length
  set { g with
    names := (name, number) :: g.names.filter (·.1 != name)
    begun := g.begun + 1 }
  return (number, g.begun)

def finishAnchor (place : Option (Nat × Nat)) (node : Node) : Parse Node := do
  if let some (number, began) := place then
    modify fun g => { g with anchored := (number, began, node) :: g.anchored }
  return node

/-! ## Nodes

`fuel` bounds the depth of the calls. Every call but a bounded number reads a token, so a multiple of
the number of tokens is enough. -/

mutual

/-- Reads a node. Block collections are allowed by `block`, and by `indentless` a sequence whose
entries stand at the indentation of the mapping around it. -/
def node (block indentless : Bool) : Nat → Parse Node
  | 0 => throw .unexpectedToken
  | fuel + 1 => do
    if let some (.alias name) ← peek then
      advance
      match (← get).names.lookup name with
      | some number => return .alias number
      | none => throw (.unknownAnchor name)
    let properties ← properties
    let tag ← expandTag properties.tag
    let place ← properties.anchor.mapM beginAnchor
    let node ← content block indentless properties tag fuel
    finishAnchor place node

def content (block indentless : Bool) (properties : Properties) (tag : Option String) :
    Nat → Parse Node
  | 0 => throw .unexpectedToken
  | fuel + 1 => do
    let next ← peek
    if indentless && next = some .blockEntry then return .sequence (← looseItems fuel)
    match next with
    | some (.scalar text style) =>
      advance
      return .scalar ⟨text, style, tag⟩
    | some .flowSequenceStart =>
      advance
      return .sequence (← flowItems true fuel)
    | some .flowMappingStart =>
      advance
      return .mapping (← flowEntries true fuel)
    | some .blockSequenceStart =>
      if !block then throw .unexpectedToken
      advance
      return .sequence (← blockItems fuel)
    | some .blockMappingStart =>
      if !block then throw .unexpectedToken
      advance
      return .mapping (← blockEntries fuel)
    | _ =>
      if properties.anchor.isSome || properties.tag.isSome then
        return .scalar ⟨"", .plain, tag⟩
      throw .unexpectedToken

/-- Reads a node unless one of the given tokens, or nothing, comes next; then it was left out. -/
def nodeUnless (stops : List Token) (block indentless : Bool) : Nat → Parse Node
  | 0 => throw .unexpectedToken
  | fuel + 1 => do
    if ← nextIsAny stops then return .empty
    node block indentless fuel

def blockItems : Nat → Parse (List Node)
  | 0 => throw .unexpectedToken
  | fuel + 1 => do
    if ← accept .blockEnd then return []
    if !(← accept .blockEntry) then throw .unexpectedToken
    let item ← nodeUnless [.blockEntry, .blockEnd] true false fuel
    return item :: (← blockItems fuel)

/-- Reads the entries of a sequence at the indentation of the mapping around it. -/
def looseItems : Nat → Parse (List Node)
  | 0 => throw .unexpectedToken
  | fuel + 1 => do
    if !(← accept .blockEntry) then return []
    let item ← nodeUnless [.blockEntry, .key, .value, .blockEnd] true false fuel
    return item :: (← looseItems fuel)

def blockEntries : Nat → Parse (List (Node × Node))
  | 0 => throw .unexpectedToken
  | fuel + 1 => do
    if ← accept .blockEnd then return []
    if !(← accept .key) then throw .unexpectedToken
    let key ← nodeUnless [.key, .value, .blockEnd] true true fuel
    let value ← if ← accept .value then nodeUnless [.key, .value, .blockEnd] true true fuel
      else pure .empty
    return (key, value) :: (← blockEntries fuel)

/-- Reads the entries of a flow sequence up to its closing bracket. -/
def flowItems (first : Bool) : Nat → Parse (List Node)
  | 0 => throw .unexpectedToken
  | fuel + 1 => do
    if ← accept .flowSequenceEnd then return []
    if !first && !(← accept .flowEntry) then throw .unexpectedToken
    if ← accept .flowSequenceEnd then return []
    let item ← if ← accept .key then flowPair fuel else node false false fuel
    return item :: (← flowItems false fuel)

/-- Reads an entry of a flow sequence that is a mapping of one key. -/
def flowPair : Nat → Parse Node
  | 0 => throw .unexpectedToken
  | fuel + 1 => do
    if ← nextIsAny [.value, .flowEntry, .flowSequenceEnd] then
      advance
      return .mapping [(.empty, ← flowPairValue fuel)]
    let key ← node false false fuel
    return .mapping [(key, ← flowPairValue fuel)]

def flowPairValue : Nat → Parse Node
  | 0 => throw .unexpectedToken
  | fuel + 1 => do
    if ← accept .value then nodeUnless [.flowEntry, .flowSequenceEnd] false false fuel
    else return .empty

def flowEntries (first : Bool) : Nat → Parse (List (Node × Node))
  | 0 => throw .unexpectedToken
  | fuel + 1 => do
    if ← accept .flowMappingEnd then return []
    if !first && !(← accept .flowEntry) then throw .unexpectedToken
    if ← accept .flowMappingEnd then return []
    let entry ← flowMember fuel
    return entry :: (← flowEntries false fuel)

/-- Reads one entry of a flow mapping; a node that no indicator announces has no value. -/
def flowMember : Nat → Parse (Node × Node)
  | 0 => throw .unexpectedToken
  | fuel + 1 => do
    if !(← accept .key) then return (← node false false fuel, .empty)
    let key ← nodeUnless [.value, .flowEntry, .flowMappingEnd] false false fuel
    if ← accept .value then
      return (key, ← nodeUnless [.flowEntry, .flowMappingEnd] false false fuel)
    return (key, .empty)

end

/-! ## Documents -/

/-- Reads the directives in front of a document; the flag tells of a version among them. -/
def directives : Bool → Nat → Parse Unit
  | _, 0 => return ()
  | versioned, fuel + 1 => do
    match ← peek with
    | some (.versionDirective major minor) =>
      advance
      if versioned then throw .repeatedDirective
      if major != 1 || (minor != 1 && minor != 2) then throw (.incompatibleVersion major minor)
      directives true fuel
    | some (.tagDirective handle expansion) =>
      advance
      if ((← get).handles.lookup handle).isSome then throw .repeatedDirective
      modify fun g => { g with handles := g.handles ++ [(handle, expansion)] }
      directives versioned fuel
    | _ => return ()

def defaultHandles : List (String × String) :=
  [("!", "!"), ("!!", "tag:yaml.org,2002:")]

def beginsMarked : Option Token → Bool
  | some (.versionDirective ..) => true
  | some (.tagDirective ..) => true
  | some .documentStart => true
  | _ => false

def endsMarked (token : Option Token) : Bool :=
  token.isNone || token = some .documentEnd || beginsMarked token

/-- Reads a document: behind a mark, which its directives require, or without one. -/
def document (fuel : Nat) : Parse Node := do
  let marked := beginsMarked (← peek)
  directives false fuel
  modify fun g => { g with handles := g.handles ++ defaultHandles }
  if marked then
    if !(← accept .documentStart) then throw .unexpectedToken
    if endsMarked (← peek) then return .empty
  node true false fuel

def skipEnds : Nat → Parse Unit
  | 0 => return ()
  | fuel + 1 => do
    if ← accept .documentEnd then skipEnds fuel

def onlyDocument (fuel : Nat) : Parse Node := do
  if (← peek).isNone then return .empty
  let root ← document fuel
  skipEnds fuel
  if (← peek).isSome then throw .severalDocuments
  return root

end Parse

/-! ## The whole way -/

/-- The nodes behind the numbers of the anchors. Where two share a number, the one that began last
has it. -/
def anchorTable (anchored : List (Nat × Nat × Node)) : List (Nat × Node) :=
  let latestFirst := anchored.mergeSort fun a b => b.2.1 ≤ a.2.1
  latestFirst.map fun (number, _, node) => (number, node)

namespace Document

def ofTokens (tokens : List Token) : Except Malformed Document := do
  let (root, grammar) ← (Parse.onlyDocument (6 * tokens.length + 16)).run {
    tokens
    handles := []
    names := []
    begun := 0
    anchored := [] }
  return { root, anchors := anchorTable grammar.anchored }

def ofText (text : String) : Except Malformed Document := do
  ofTokens (← Token.ofText text)

end Document

end Throttle.Yaml
