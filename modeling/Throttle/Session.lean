import Throttle.Server

/-!
# Sessions

What is seen of a server from its start to its end: the address it listens on, the answer to each
step in order, and how often it loaded its configuration again. Steps are requests and events in the
directory of the configuration file.
-/

set_option autoImplicit false

namespace Throttle.Session

/-! ## Steps -/

inductive Step where
  | request (r : Http.Request)
  | file (event : Server.FileEvent)

structure Delivery where
  statusCode : Nat
  retryAfterMs : Option Nat
  body : Option JsonValue

/-- A response to a request of a method; only the head of it is sent if only the head was asked
for. -/
def Delivery.ofResponse (method : Http.Method) (r : Http.Response) : Delivery where
  statusCode := r.statusCode
  retryAfterMs := r.retryAfterMs?
  body := if method = .head then none else r.body?

inductive Answer where
  | delivery (d : Delivery)
  | file (outcome : Option Server.ReloadOutcome)

/-! ## Runs -/

def step (s : Server) (now : Instant) : Step → Answer × Server
  | .request r =>
    let answered := s.request now r
    (.delivery (.ofResponse r.method answered.1), answered.2)
  | .file event =>
    let noted := s.fileEvent now event
    (.file noted.1, noted.2)

/-- The answers to steps in order, and the server after them. -/
def steps (s : Server) : List (Instant × Step) → List Answer × Server
  | [] => ([], s)
  | (now, first) :: rest =>
    let answered := step s now first
    let others := steps answered.2 rest
    (answered.1 :: others.1, others.2)

structure Report where
  listening : SocketAddress
  routes : Nat
  answers : List Answer
  reloads : Nat
  watcherFailed : Bool

def run (file : Option ByteArray) (env : Environment) (watching : Bool)
    (script : List (Instant × Step)) : Except StartError Report :=
  match Server.start file env watching with
  | .error e => throw e
  | .ok s =>
    let (answers, last) := steps s script
    return {
      listening := s.address
      routes := s.gateway.config.routes.size
      answers
      reloads := last.reloads
      watcherFailed := !watching }

end Throttle.Session
