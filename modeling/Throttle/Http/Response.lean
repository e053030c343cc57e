import Throttle.Denial
import Throttle.JsonValue
import Throttle.Limit

/-!
# Responses

The answers of the gateway, each with its status, its body and the time for which it is held back.
Main statement: `retryAfterMs?_eq_some_iff`, a client is told when to try again just if trying again
can help.
-/

set_option autoImplicit false

namespace Throttle.Http

/-! ## Reports -/

structure RouteReport where
  route : String
  limit : Limit
  burst : UInt64
  tokens : Binary64
  maxWaitMs : UInt64
  admitted : UInt64
  rejected : UInt64
  lastDenial : String

structure StatusReport where
  totalRequests : UInt64
  routes : List RouteReport

namespace RouteReport

def limitJson : Limit → JsonValue
  | .unlimited => .text "unlimited"
  | limit => .real limit.toBinary64

def json (r : RouteReport) : JsonValue :=
  .record [
    ("admitted", .count r.admitted.toNat),
    ("burst", .count r.burst.toNat),
    ("last_denial", .text r.lastDenial),
    ("limit", limitJson r.limit),
    ("max_wait_ms", .count r.maxWaitMs.toNat),
    ("rejected", .count r.rejected.toNat),
    ("route", .text r.route),
    ("tokens", .real r.tokens)]

end RouteReport

def StatusReport.json (s : StatusReport) : JsonValue :=
  .record [
    ("routes", .list (s.routes.map RouteReport.json)),
    ("total_requests", .count s.totalRequests.toNat)]

/-! ## Responses -/

inductive Response where
  | healthy
  | status (report : StatusReport)
  | headOnly
  | noSuchPath
  | wrongMethod
  /-- Admitted, with the wait until the request may act. -/
  | admitted (path : String) (cost : UInt64) (wait : Duration)
  /-- Refused; `wait` is how long the tokens would have taken. -/
  | refused (reason : Denial) (wait : Duration)

namespace Response

def statusCode : Response → Nat
  | healthy => 200
  | status _ => 200
  | headOnly => 200
  | noSuchPath => 404
  | wrongMethod => 405
  | admitted .. => 200
  | refused .. => 429

/-- How long the request is held before the answer: until it may act. -/
def held : Response → Duration
  | admitted _ _ wait => wait
  | _ => .zero

/-- The wait that a refused client is told, in whole milliseconds as far as 64 bits count them. -/
def retryAfterMs? : Response → Option Nat
  | refused reason wait =>
    if reason.isTransient ∧ wait < .forever then some (min wait.wholeMillis (UInt64.size - 1)) else none
  | _ => none

def refusalJson (reason : Denial) : JsonValue :=
  .record [("error", .record [
    ("code", .count 429),
    ("message", .text reason.message),
    ("reason", .text reason.name)])]

def body? : Response → Option JsonValue
  | healthy => some (.record [("status", .text "ok")])
  | status report => some report.json
  | headOnly => none
  | noSuchPath => none
  | wrongMethod => none
  | admitted path cost _ => some (.record [("cost", .count cost.toNat), ("path", .text path)])
  | refused reason _ => some (refusalJson reason)

theorem retryAfterMs?_eq_some_iff {reason : Denial} {wait : Duration} {ms : Nat} :
    (refused reason wait).retryAfterMs? = some ms ↔
      reason = .exhausted ∧ wait < .forever ∧ ms = min wait.wholeMillis (UInt64.size - 1) := by
  unfold retryAfterMs?
  cases reason <;> simp [Denial.isTransient, eq_comm]

end Response

end Throttle.Http
