import Throttle.Yaml.Malformed

/-!
# Tokens
-/

set_option autoImplicit false

namespace Throttle.Yaml

/-- How a scalar was written, as far as its reading depends on it. -/
inductive Style where
  | plain
  | literal
  /-- Quoted, or a block whose lines are folded. -/
  | quoted
  deriving DecidableEq, Repr

inductive Token where
  | versionDirective (major minor : Nat)
  | tagDirective (handle expansion : String)
  | documentStart
  | documentEnd
  | blockSequenceStart
  | blockMappingStart
  /-- The end of a block collection, where the indentation goes back. -/
  | blockEnd
  | flowSequenceStart
  | flowSequenceEnd
  | flowMappingStart
  | flowMappingEnd
  | blockEntry
  | flowEntry
  | key
  | value
  | alias (name : String)
  | anchor (name : String)
  /-- A tag in two parts; the handle of a tag that needs no expansion is empty. -/
  | tag (handle suffix : String)
  | scalar (text : String) (style : Style)
  deriving DecidableEq, Repr

end Throttle.Yaml
