import Throttle.Config
import Throttle.Yaml.Reading

/-!
# Configurations in document trees

How a tree becomes a configuration. The keys of a mapping with fixed fields are known or passed
over, whatever their values; a known key may come once. Fields that have a default may be left out.
The routes are a mapping with any scalar keys, of which the last one counts if some are equal.

An error tells the path to the node at fault. A key that is an alias has no name in a path. A small
document may stand for a large tree, so there is a limit on how often its aliases are followed.
-/

set_option autoImplicit false

namespace Throttle.Config

open Yaml (Document Node Mismatch Found)

/-! ## Errors -/

inductive DecodeFault where
  | mismatch (m : Mismatch)
  | missingField (name : String)
  | repeatedField (name : String)
  /-- The aliases of the document were followed too often, which is the fault of no single node. -/
  | tooManyAliases
  deriving DecidableEq

structure DecodeError where
  path : List String
  fault : DecodeFault
  deriving DecidableEq

def DecodeFault.message : DecodeFault → String
  | mismatch m => m.message
  | missingField name => "missing field `" ++ name ++ "`"
  | repeatedField name => "duplicate field `" ++ name ++ "`"
  | tooManyAliases => "repetition limit exceeded"

def DecodeError.message (e : DecodeError) : String :=
  if e.path.isEmpty then e.fault.message
  else ".".intercalate e.path ++ ": " ++ e.fault.message

abbrev Decoded (α : Type) := StateT Nat (Except DecodeError) α

def mismatchAt {α : Type} (path : List String) (m : Mismatch) : Decoded α :=
  throw ⟨path, .mismatch m⟩

def foundAt {α : Type} (path : List String) (found : Found) (expected : String) : Decoded α :=
  mismatchAt path (.wrongType found expected)

/-- The node that stands where a node is written. To follow an alias uses up one of those that may
be followed. -/
def follow (doc : Document) (node : Node) : Decoded Node := do
  if let .alias _ := node then
    match ← get with
    | 0 => throw ⟨[], .tooManyAliases⟩
    | left + 1 => set left
  return doc.resolve node

/-! ## Scalars -/

/-- Reads a scalar; a collection is a mismatch. -/
def decodeScalar {α : Type} (doc : Document) (path : List String) (expected : String)
    (read : Yaml.Scalar → Decoded α) (node : Node) : Decoded α := do
  match ← follow doc node with
  | .scalar s => read s
  | .sequence _ => foundAt path .sequence expected
  | .mapping _ => foundAt path .mapping expected
  | .alias _ => foundAt path .unit expected

def decodeText (doc : Document) (path : List String) (expected : String) (node : Node) :
    Decoded String :=
  decodeScalar doc path expected (fun s => return s.text) node

/-- An unsigned integer of 64 bits. -/
def decodeUInt64 (doc : Document) (path : List String) (expected : String) (node : Node) :
    Decoded UInt64 :=
  decodeScalar doc path expected (fun s =>
    match s.unsigned?.bind Numeral.word64? with
    | some n => return n
    | none => mismatchAt path (s.mismatch expected)) node

/-- An unsigned integer of 16 bits. One of 64 bits has the right type and a wrong value. -/
def decodeUInt16 (doc : Document) (path : List String) (expected : String) (node : Node) :
    Decoded UInt16 := do
  let n ← decodeUInt64 doc path expected node
  match Numeral.word16? n.toNat with
  | some port => return port
  | none => mismatchAt path (.badValue (.integer n.toNat) expected)

def decodeInt64 (doc : Document) (path : List String) (node : Node) : Decoded Int64 :=
  decodeScalar doc path "i64" (fun s =>
    match s.integer?.bind Numeral.signed64? with
    | some n => return n
    | none => mismatchAt path (s.mismatch "i64")) node

def decodeReal (doc : Document) (path : List String) (node : Node) : Decoded Binary64 :=
  decodeScalar doc path "f64" (fun s =>
    match s.real? with
    | some x => return x
    | none => mismatchAt path (s.mismatch "f64")) node

/-- A value that may be left out. What is wrong with the word for nothing is said of the mapping
around it, at `path`. -/
def decodeOptional {α : Type} (doc : Document) (path : List String) (decode : Node → Decoded α)
    (node : Node) : Decoded (Option α) := do
  match ← follow doc node with
  | .scalar s =>
    match s.isNothing with
    | .ok true => return none
    | .ok false => some <$> decode (.scalar s)
    | .error m => mismatchAt path m
  | node => some <$> decode node

/-! ## Mappings -/

/-- The entries of a mapping; an empty value has none. -/
def decodeEntries (doc : Document) (path : List String) (expected : String) (node : Node) :
    Decoded (List (Node × Node)) := do
  match ← follow doc node with
  | .mapping entries => return entries
  | .scalar s =>
    if s.isPlain && s.text.isEmpty then return [] else mismatchAt path (s.mismatch expected)
  | .sequence _ => foundAt path .sequence expected
  | .alias _ => foundAt path .unit expected

/-- The name of a key, and what stands for it in a path. -/
def decodeKey (doc : Document) (path : List String) (expected : String) (key : Node) :
    Decoded (String × String) := do
  let name ← decodeText doc path expected key
  match key with
  | .alias _ => return (name, "?")
  | _ => return (name, name)

/-- Decodes the value of a field, unless the field came before. -/
def decodeField {α : Type} (path : List String) (name : String) (earlier : Option α)
    (decode : Decoded α) : Decoded (Option α) :=
  if earlier.isSome then throw ⟨path, .repeatedField name⟩ else some <$> decode

def requireField {α : Type} (path : List String) (name : String) (value : Option α) : Decoded α :=
  match value with
  | some a => return a
  | none => throw ⟨path, .missingField name⟩

/-- Passes over the entries of a mapping with fixed fields; `put` takes the fields read so far, the
name of a key, the path to its value and the value. -/
def decodeFields {δ : Type} (doc : Document) (path : List String) (expected : String)
    (put : δ → String → List String → Node → Decoded δ) (start : δ) (node : Node) : Decoded δ := do
  let entries ← decodeEntries doc path expected node
  entries.foldlM (fun fields (key, value) => do
    let (name, segment) ← decodeKey doc path "field identifier" key
    put fields name (path ++ [segment]) value) start

/-! ## Policies -/

structure PolicyFields where
  ratePerSec : Option (Option Binary64) := none
  intervalMs : Option (Option Int64) := none
  burst : Option UInt64 := none
  maxWaitMs : Option UInt64 := none

def PolicyFields.toPolicy (f : PolicyFields) : Policy where
  ratePerSec := f.ratePerSec.getD none
  intervalMs := f.intervalMs.getD none
  burst := f.burst.getD 1
  maxWaitMs := f.maxWaitMs.getD 0

def putPolicyField (doc : Document) (path : List String) (f : PolicyFields) (name : String)
    (place : List String) (value : Node) : Decoded PolicyFields :=
  match name with
  | "rate_per_sec" => do
    let rate ← decodeField path name f.ratePerSec
      (decodeOptional doc path (decodeReal doc place) value)
    return { f with ratePerSec := rate }
  | "interval_ms" => do
    let interval ← decodeField path name f.intervalMs
      (decodeOptional doc path (decodeInt64 doc place) value)
    return { f with intervalMs := interval }
  | "burst" => do
    let burst ← decodeField path name f.burst (decodeUInt64 doc place "usize" value)
    return { f with burst }
  | "max_wait_ms" => do
    let maxWait ← decodeField path name f.maxWaitMs (decodeUInt64 doc place "u64" value)
    return { f with maxWaitMs := maxWait }
  | _ => return f

def decodePolicy (doc : Document) (path : List String) (node : Node) : Decoded Policy := do
  let fields ← decodeFields doc path "struct LimitConfig" (putPolicyField doc path) {} node
  return fields.toPolicy

/-! ## Routes -/

def decodeRoutes (doc : Document) (path : List String) (node : Node) :
    Decoded (RouteTable Policy) := do
  let entries ← decodeEntries doc path "a map" node
  entries.foldlM (fun routes (key, value) => do
    let (route, segment) ← decodeKey doc path "a string" key
    return routes.insert route (← decodePolicy doc (path ++ [segment]) value)) .empty

/-! ## The listener -/

structure ListenerFields where
  bindAddr : Option String := none
  port : Option UInt16 := none

def putListenerField (doc : Document) (path : List String) (f : ListenerFields) (name : String)
    (place : List String) (value : Node) : Decoded ListenerFields :=
  match name with
  | "bind_addr" => do
    let bindAddr ← decodeField path name f.bindAddr (decodeText doc place "a string" value)
    return { f with bindAddr }
  | "port" => do
    let port ← decodeField path name f.port (decodeUInt16 doc place "u16" value)
    return { f with port }
  | _ => return f

def decodeListener (doc : Document) (path : List String) (node : Node) : Decoded Listener := do
  let fields ← decodeFields doc path "struct ServerConfig" (putListenerField doc path) {} node
  return {
    bindAddr := ← requireField path "bind_addr" fields.bindAddr
    port := ← requireField path "port" fields.port }

/-! ## The whole -/

structure ConfigFields where
  listener : Option Listener := none
  defaultPolicy : Option Policy := none
  routes : Option (RouteTable Policy) := none

def putConfigField (doc : Document) (path : List String) (f : ConfigFields) (name : String)
    (place : List String) (value : Node) : Decoded ConfigFields :=
  match name with
  | "server" => do
    let listener ← decodeField path name f.listener (decodeListener doc place value)
    return { f with listener }
  | "default_limit" => do
    let defaultPolicy ← decodeField path name f.defaultPolicy (decodePolicy doc place value)
    return { f with defaultPolicy }
  | "routes" => do
    let routes ← decodeField path name f.routes (decodeRoutes doc place value)
    return { f with routes }
  | _ => return f

def decodeConfig (doc : Document) : Decoded Config := do
  let fields ← decodeFields doc [] "struct Config" (putConfigField doc []) {} doc.root
  return {
    listener := ← requireField [] "server" fields.listener
    defaultPolicy := fields.defaultPolicy.getD {}
    routes := fields.routes.getD .empty }

def decode (doc : Document) : Except DecodeError Config :=
  (decodeConfig doc).run' doc.aliasLimit

end Throttle.Config
