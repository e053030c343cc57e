import Throttle.Time

/-!
# Sending the requests of a benchmark

Requests are sent until a deadline, without waiting for their answers, and are counted when they end.
Main statement: `count_sendUntil`, every request that is sent before the deadline is counted once, by
what became of it, however late it ends, and no other is.
-/

set_option autoImplicit false

namespace Throttle.Benchmark

/-! ## Outcomes -/

inductive Outcome where
  | admitted
  | limited
  | failed
  deriving DecidableEq

/-- The outcome of a request that was answered with a status, or not at all. -/
def Outcome.ofStatus : Option Nat → Outcome
  | some code =>
    if 200 ≤ code ∧ code < 300 then admitted
    else if code = 429 then limited
    else failed
  | none => failed

example : [some 200, some 429, some 502, none].map Outcome.ofStatus =
    [.admitted, .limited, .failed, .failed] := rfl

/-! ## Counts -/

theorem ofNat_countP_cons {α : Type} (p : α → Bool) (a : α) (l : List α) :
    UInt64.ofNat ((a :: l).countP p) = (if p a then 1 else 0) + UInt64.ofNat (l.countP p) := by
  rw [List.countP_cons, UInt64.ofNat_add, UInt64.add_comm]
  split <;> rfl

structure Tally where
  admitted : UInt64 := 0
  limited : UInt64 := 0
  failed : UInt64 := 0
  deriving DecidableEq

namespace Tally

def record (t : Tally) : Outcome → Tally
  | .admitted => { t with admitted := t.admitted + 1 }
  | .limited => { t with limited := t.limited + 1 }
  | .failed => { t with failed := t.failed + 1 }

def recordAll (t : Tally) (statuses : List (Option Nat)) : Tally :=
  statuses.foldl (fun t status => t.record (.ofStatus status)) t

def count (t : Tally) : Outcome → UInt64
  | .admitted => t.admitted
  | .limited => t.limited
  | .failed => t.failed

theorem count_record (t : Tally) (o other : Outcome) :
    (t.record o).count other = t.count other + if o = other then 1 else 0 := by
  cases o <;> cases other <;> simp [record, count]

theorem count_recordAll (t : Tally) (statuses : List (Option Nat)) (o : Outcome) :
    (t.recordAll statuses).count o =
      t.count o + UInt64.ofNat (statuses.countP (Outcome.ofStatus · = o)) := by
  induction statuses generalizing t with
  | nil => simp [recordAll]
  | cons status rest ih =>
    have hrest : (t.recordAll (status :: rest)).count o = ((t.record (.ofStatus status)).recordAll rest).count o := rfl
    rw [hrest, ih, count_record, ofNat_countP_cons, UInt64.add_assoc]
    simp only [decide_eq_true_eq]

end Tally

/-! ## Requests in flight -/

/-- The requests that have ended are counted, and the others are in flight. -/
structure Progress (ρ : Type) where
  tally : Tally := {}
  inFlight : List ρ := []

namespace Progress

variable {ρ : Type}

def send (p : Progress ρ) (request : ρ) : Progress ρ :=
  { p with inFlight := p.inFlight ++ [request] }

/-- Counts the requests that have ended, each with its status if it was answered. -/
def reap (p : Progress ρ) (ended? : ρ → Option (Option Nat)) : Progress ρ where
  tally := p.tally.recordAll (p.inFlight.filterMap ended?)
  inFlight := p.inFlight.filter fun request => (ended? request).isNone

/-- Counts all requests that are still in flight. -/
def drain (p : Progress ρ) (status : ρ → Option Nat) : Tally :=
  p.tally.recordAll (p.inFlight.map status)

/-- How many requests have an outcome, those included that will have it when they end. -/
def count (p : Progress ρ) (status : ρ → Option Nat) (o : Outcome) : UInt64 :=
  p.tally.count o + UInt64.ofNat (p.inFlight.countP fun request => Outcome.ofStatus (status request) = o)

variable (p : Progress ρ) (status : ρ → Option Nat) (o : Outcome)

@[simp] theorem count_empty : ({} : Progress ρ).count status o = 0 := by
  cases o <;> rfl

theorem count_send (request : ρ) :
    (p.send request).count status o = p.count status o + if Outcome.ofStatus (status request) = o then 1 else 0 := by
  unfold count send
  rw [List.countP_append, List.countP_singleton, UInt64.ofNat_add, UInt64.add_assoc]
  by_cases h : Outcome.ofStatus (status request) = o <;> simp [h]

theorem countP_reap (requests : List ρ) {ended? : ρ → Option (Option Nat)}
    (h : ∀ request code, ended? request = some code → status request = code) :
    (requests.filterMap ended?).countP (Outcome.ofStatus · = o) +
        (requests.filter fun request => (ended? request).isNone).countP
          (fun request => Outcome.ofStatus (status request) = o) =
      requests.countP fun request => Outcome.ofStatus (status request) = o := by
  induction requests with
  | nil => rfl
  | cons request rest ih =>
    rw [List.countP_cons, ← ih]
    cases hended : ended? request with
    | none =>
      rw [List.filterMap_cons_none hended, List.filter_cons_of_pos (by simp [hended]), List.countP_cons, Nat.add_assoc]
    | some code =>
      rw [List.filterMap_cons_some hended, List.filter_cons_of_neg (by simp [hended]), List.countP_cons, h _ _ hended]
      exact Nat.add_right_comm _ _ _

/-- Whenever it is seen that a request has ended, it counts the same. -/
theorem count_reap {ended? : ρ → Option (Option Nat)}
    (h : ∀ request code, ended? request = some code → status request = code) :
    (p.reap ended?).count status o = p.count status o := by
  unfold count reap
  rw [Tally.count_recordAll, ← countP_reap status o p.inFlight h, UInt64.ofNat_add, UInt64.add_assoc]

theorem count_drain : (p.drain status).count o = p.count status o := by
  unfold drain count
  rw [Tally.count_recordAll, List.countP_map]
  rfl

end Progress

/-! ## Turns -/

/-- What becomes of a request: when it ends, and with which status if it is answered. -/
structure Fate where
  endsAt : Instant
  status : Option Nat

def Fate.ended? (now : Instant) (fate : Fate) : Option (Option Nat) :=
  if fate.endsAt ≤ now then some fate.status else none

/-- A turn begins with a look at the clock, sends a request, and ends with a look at those in flight. -/
structure Turn where
  now : Instant
  request : Fate
  polled : Instant

/-- Takes turns as long as they begin before the deadline. -/
def sendUntil (deadline : Instant) (p : Progress Fate) : List Turn → Progress Fate
  | [] => p
  | turn :: rest =>
    if turn.now < deadline then
      sendUntil deadline ((p.send turn.request).reap (Fate.ended? turn.polled)) rest
    else p

theorem Fate.status_of_ended {now : Instant} {fate : Fate} {code : Option Nat} (h : fate.ended? now = some code) :
    fate.status = code := by
  unfold ended? at h
  split at h
  · exact Option.some.inj h
  · cases h

theorem count_sendUntil (deadline : Instant) (p : Progress Fate) (turns : List Turn) (o : Outcome) :
    (sendUntil deadline p turns).count Fate.status o =
      p.count Fate.status o + UInt64.ofNat ((turns.takeWhile (·.now < deadline)).countP
        fun turn => Outcome.ofStatus turn.request.status = o) := by
  induction turns generalizing p with
  | nil => simp [sendUntil]
  | cons turn rest ih =>
    unfold sendUntil
    by_cases h : turn.now < deadline
    · rw [if_pos h, ih, Progress.count_reap _ _ _ fun _ _ => Fate.status_of_ended, Progress.count_send,
        List.takeWhile_cons_of_pos (by simpa using h), ofNat_countP_cons, UInt64.add_assoc]
      simp only [decide_eq_true_eq]
    · rw [if_neg h, List.takeWhile_cons_of_neg (by simpa using h)]
      simp

end Throttle.Benchmark
