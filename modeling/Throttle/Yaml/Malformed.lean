/-!
# Why a text is no YAML document
-/

set_option autoImplicit false

namespace Throttle.Yaml

inductive Malformed where
  | forbiddenCharacter (c : Char)
  | unexpectedCharacter (c : Char)
  | badDirective
  | incompatibleVersion (major minor : Nat)
  | repeatedDirective
  | badAnchor
  | badTag
  | unknownTagHandle (handle : String)
  | badEscape
  | badBlockHeader
  | tabIndent
  | unterminatedScalar
  | documentMarkInScalar
  | crowdedColon
  /-- A block entry, key or value where none may begin. -/
  | misplacedIndicator
  | missingColon
  | unexpectedToken
  | unknownAnchor (name : String)
  | severalDocuments
  deriving DecidableEq, Repr

end Throttle.Yaml
