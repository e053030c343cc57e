import Throttle.Config.Decoding
import Throttle.Environment
import Throttle.Yaml.Document

/-!
# Loading a configuration

A configuration is read from the bytes of a file and then amended by the environment. Main
statements: `load_eq_ok_iff` splits a successful load into the two, and `load_eq_error_iff` shows
that a failure does not depend on the environment.
-/

set_option autoImplicit false

namespace Throttle

/-! ## Errors -/

inductive LoadError where
  | fileMissing
  | fileNotText
  | malformed (why : Yaml.Malformed)
  | misfit (e : Config.DecodeError)
  deriving DecidableEq

namespace LoadError

def message : LoadError → String
  | fileMissing => "No such file or directory (os error 2)"
  | fileNotText => "stream did not contain valid UTF-8"
  | malformed _ => "not a well-formed document"
  | misfit e => e.message

end LoadError

namespace Config

/-! ## Files -/

def ofText (text : String) : Except LoadError Config :=
  match Yaml.Document.ofText text with
  | .error why => throw (.malformed why)
  | .ok doc =>
    match decode doc with
    | .error e => throw (.misfit e)
    | .ok config => return config

/-- The configuration in the bytes of a file, or in no file. -/
def ofFile (file : Option ByteArray) : Except LoadError Config :=
  match file with
  | none => throw .fileMissing
  | some bytes =>
    match String.fromUTF8? bytes with
    | none => throw .fileNotText
    | some text => ofText text

/-! ## Overrides -/

def variableNames : List String :=
  ["TG_HTTP_ADDR", "TG_HTTP_PORT", "TG_DEFAULT_RATE", "TG_DEFAULT_BURST", "TG_MAX_WAIT_MS"]

/-- The configuration with what the environment sets in place of what the file sets. A variable that
cannot be read changes nothing. -/
def override (config : Config) (env : Environment) : Config :=
  let listener := config.listener
  let policy := config.defaultPolicy
  { config with
    listener := {
      bindAddr := (env.text? "TG_HTTP_ADDR").getD listener.bindAddr
      port := (env.read? "TG_HTTP_PORT" Numeral.unsigned16?).getD listener.port }
    defaultPolicy := { policy with
      ratePerSec := (env.read? "TG_DEFAULT_RATE" Numeral.binary64?).or policy.ratePerSec
      burst := (env.read? "TG_DEFAULT_BURST" Numeral.unsigned64?).getD policy.burst
      maxWaitMs := (env.read? "TG_MAX_WAIT_MS" Numeral.unsigned64?).getD policy.maxWaitMs } }

/-- The configuration in a file, amended by the environment. -/
def load (file : Option ByteArray) (env : Environment) : Except LoadError Config :=
  match ofFile file with
  | .error e => throw e
  | .ok config => return config.override env

theorem load_eq_ok_iff {file : Option ByteArray} {env : Environment} {config : Config} :
    load file env = .ok config ↔ ∃ read, ofFile file = .ok read ∧ read.override env = config := by
  unfold load
  cases ofFile file with
  | error e => simp [throw, throwThe, MonadExceptOf.throw]
  | ok read => simp [pure, Except.pure]

theorem load_eq_error_iff {file : Option ByteArray} {env : Environment} {e : LoadError} :
    load file env = .error e ↔ ofFile file = .error e := by
  unfold load
  cases ofFile file with
  | error e => simp [throw, throwThe, MonadExceptOf.throw]
  | ok read => simp [pure, Except.pure]

end Config

end Throttle
