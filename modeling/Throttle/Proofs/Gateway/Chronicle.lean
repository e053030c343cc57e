import Throttle.Proofs.Gateway.Mirror

/-!
# The chronicle of a gateway

What happened, one record for each event: the answer to a request that came to admission, with the
route it was resolved to, and the configured routes before and after a reload. The counts and the last
refusal of a route are read off the records, without a look at the gateway.
-/

set_option autoImplicit false

namespace Throttle.Gateway
open Http

/-! ## Records -/

inductive Record where
  /-- Answered by admission, on the route of a key. -/
  | answered (key : Option String) (route : String) (answer : Response)
  | unmetered
  /-- The names of the configured routes before and after a reload. -/
  | reloaded (before after : List String)

namespace Record

/-- The route of the key comes into the registry; the route of all other paths never does. -/
def isEntry (key : Option String) : Record → Bool
  | reloaded before after => key.any fun name => name ∉ before ∧ name ∈ after
  | _ => false

def isAnswer (key : Option String) (code : Nat) : Record → Bool
  | answered owner _ answer => owner = key ∧ answer.statusCode = code
  | _ => false

/-- Every route that was there before a reload is there after it. -/
def dropsNone : Record → Bool
  | reloaded before after => before.all (· ∈ after)
  | _ => true

/-- Why a route of this name refused the request. -/
def refusal? (route : String) : Record → Option Denial
  | answered _ name (.refused reason _) => if name = route then some reason else none
  | _ => none

end Record

/-! ## Histories

The latest record comes first. -/

/-- What happened since the route of the key last came into the registry. -/
def sinceEntry (key : Option String) (history : List Record) : List Record :=
  history.takeWhile fun r => !r.isEntry key

/-- How many requests of the key were answered with the code since then. -/
def answersSince (key : Option String) (code : Nat) (history : List Record) : Nat :=
  (sinceEntry key history).countP (·.isAnswer key code)

/-- The reason of the last refusal, in the whole history, by a route of this name. -/
def lastRefusal? (route : String) (history : List Record) : Option Denial :=
  history.findSome? (·.refusal? route)

/-- No reload dropped a route. -/
def DropsNone (history : List Record) : Prop := ∀ r ∈ history, r.dropsNone = true

instance (history : List Record) : Decidable (DropsNone history) :=
  inferInstanceAs (Decidable (∀ r ∈ history, r.dropsNone = true))

variable {key : Option String} {code : Nat} {history : List Record}

theorem answersSince_cons (r : Record) :
    answersSince key code (r :: history) =
      if r.isEntry key then 0 else answersSince key code history + if r.isAnswer key code then 1 else 0 := by
  unfold answersSince sinceEntry
  by_cases h : r.isEntry key = true
  · simp [h]
  · simp [h, List.countP_cons]

@[simp] theorem answersSince_answered (owner : Option String) (route : String) (answer : Response) :
    answersSince key code (.answered owner route answer :: history) =
      answersSince key code history + if owner = key ∧ answer.statusCode = code then 1 else 0 := by
  simp [answersSince_cons, Record.isEntry, Record.isAnswer]

@[simp] theorem answersSince_unmetered : answersSince key code (.unmetered :: history) = answersSince key code history := by
  simp [answersSince_cons, Record.isEntry, Record.isAnswer]

@[simp] theorem answersSince_reloaded (before after : List String) :
    answersSince key code (.reloaded before after :: history) =
      if key.any (fun name => name ∉ before ∧ name ∈ after) then 0 else answersSince key code history := by
  rw [answersSince_cons]
  simp [Record.isEntry, Record.isAnswer]

theorem lastRefusal?_cons (route : String) (r : Record) :
    lastRefusal? route (r :: history) = (r.refusal? route).or (lastRefusal? route history) := by
  unfold lastRefusal?
  cases h : r.refusal? route <;> simp [h]

/-! ## The chronicle of a run -/

def record (g : Gateway) (now : Instant) : Event → Record
  | .request r =>
    match admissionPath? r with
    | some path => .answered (g.registry.keyOf path) (g.registry.resolve path).name (g.request now r).1
    | none => .unmetered
  | .reload config => .reloaded g.registry.names config.routes.routes

/-- The records of a run, the latest first, on top of those that were there before. -/
def chronicle (g : Gateway) : List (Instant × Event) → List Record → List Record
  | [], history => history
  | (now, event) :: rest, history => (g.step now event).2.chronicle rest (g.record now event :: history)

end Throttle.Gateway
