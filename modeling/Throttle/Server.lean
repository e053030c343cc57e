import Throttle.Config.Loading
import Throttle.Gateway
import Throttle.SocketAddress

/-!
# The server

A gateway behind a socket, with the file of its configuration. The file is watched together with
its directory: whatever happens there, other than that a file is opened, makes the server load the
configuration again. What cannot be loaded changes nothing.

Main statements: `start_eq_ok_iff` says when a server starts, and `gateway_fileEvent` what a change
of the file does to the gateway.
-/

set_option autoImplicit false

namespace Throttle

/-! ## Starting -/

inductive StartError where
  | config (e : LoadError)
  | address
  deriving DecidableEq

def StartError.message : StartError → String
  | config e => e.message
  | address => "invalid socket address syntax"

structure Server where
  address : SocketAddress
  gateway : Gateway
  /-- The environment, which amends every configuration that is loaded. -/
  env : Environment
  /-- The bytes of the configuration file, if there is one. -/
  file : Option ByteArray
  /-- Whether the system tells of changes of files. -/
  watching : Bool
  /-- How often the configuration was loaded again, in vain or not. -/
  reloads : Nat

namespace Server

def address? (listener : Listener) : Option SocketAddress :=
  SocketAddress.ofText? (listener.bindAddr ++ ":" ++ SocketAddress.decimal listener.port.toNat)

def start (file : Option ByteArray) (env : Environment) (watching : Bool) :
    Except StartError Server :=
  match Config.load file env with
  | .error e => throw (.config e)
  | .ok config =>
    match address? config.listener with
    | none => throw .address
    | some address =>
      return { address, gateway := .ofConfig config, env, file, watching, reloads := 0 }

/-! ## Requests -/

def request (s : Server) (now : Instant) (r : Http.Request) : Http.Response × Server :=
  let answered := s.gateway.request now r
  (answered.1, { s with gateway := answered.2 })

/-! ## Changes of files -/

inductive FileEvent where
  | replaced (contents : ByteArray)
  | removed
  /-- Its permissions changed, or something else appeared in the directory. -/
  | touched
  | opened

namespace FileEvent

def fileAfter (file : Option ByteArray) : FileEvent → Option ByteArray
  | replaced contents => some contents
  | removed => none
  | touched => file
  | opened => file

def isChange : FileEvent → Bool
  | opened => false
  | _ => true

end FileEvent

inductive ReloadOutcome where
  | applied
  | failed
  deriving DecidableEq

def reload (s : Server) (now : Instant) : ReloadOutcome × Server :=
  match Config.load s.file s.env with
  | .ok config =>
    (.applied, { s with gateway := s.gateway.reload now config, reloads := s.reloads + 1 })
  | .error _ => (.failed, { s with reloads := s.reloads + 1 })

/-- Takes note of an event; there is an outcome if the configuration was loaded again. -/
def fileEvent (s : Server) (now : Instant) (event : FileEvent) : Option ReloadOutcome × Server :=
  let s := { s with file := event.fileAfter s.file }
  if s.watching && event.isChange then
    let done := s.reload now
    (some done.1, done.2)
  else (none, s)

/-! ## Laws -/

theorem start_eq_ok_iff {file : Option ByteArray} {env : Environment} {watching : Bool}
    {s : Server} :
    start file env watching = .ok s ↔
      ∃ config address, Config.load file env = .ok config ∧
        address? config.listener = some address ∧
        s = ⟨address, .ofConfig config, env, file, watching, 0⟩ := by
  unfold start
  cases Config.load file env with
  | error e => simp [throw, throwThe, MonadExceptOf.throw]
  | ok config =>
    cases h : address? config.listener with
    | none => simp [throw, throwThe, MonadExceptOf.throw, h]
    | some address => simp [pure, Except.pure, h, eq_comm]

theorem gateway_reload (s : Server) (now : Instant) :
    (s.reload now).2.gateway =
      match Config.load s.file s.env with
      | .ok config => s.gateway.reload now config
      | .error _ => s.gateway := by
  unfold reload
  cases Config.load s.file s.env <;> rfl

theorem gateway_fileEvent (s : Server) (now : Instant) (event : FileEvent) :
    (s.fileEvent now event).2.gateway =
      if s.watching && event.isChange then
        match Config.load (event.fileAfter s.file) s.env with
        | .ok config => s.gateway.reload now config
        | .error _ => s.gateway
      else s.gateway := by
  unfold fileEvent
  dsimp only
  split
  · exact gateway_reload _ now
  · rfl

end Server

end Throttle
