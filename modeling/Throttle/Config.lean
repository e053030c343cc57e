import Throttle.Limit
import Throttle.RouteTable

/-!
# Configurations

What an operator sets: the address to listen on, the policy of each route and the policy of every
other path. A policy that sets neither a rate nor an interval has no limit.
-/

set_option autoImplicit false

namespace Throttle

structure Policy where
  /-- Tokens per second; it wins over the interval. -/
  ratePerSec : Option Binary64 := none
  intervalMs : Option Int64 := none
  burst : UInt64 := 1
  /-- How long a request may be held; with 0 it is refused instead. -/
  maxWaitMs : UInt64 := 0
  deriving DecidableEq

namespace Policy

def limit (p : Policy) : Limit :=
  match p.ratePerSec, p.intervalMs with
  | some rate, _ => .ofRate rate
  | none, some ms => .everyMillis ms
  | none, none => .unlimited

theorem limit_of_rate {p : Policy} {rate : Binary64} (h : p.ratePerSec = some rate) : p.limit = .ofRate rate := by
  unfold limit
  rw [h]

theorem limit_of_interval {p : Policy} {ms : Int64} (hrate : p.ratePerSec = none) (h : p.intervalMs = some ms) :
    p.limit = .everyMillis ms := by
  unfold limit
  rw [hrate, h]

theorem limit_of_none {p : Policy} (hrate : p.ratePerSec = none) (h : p.intervalMs = none) :
    p.limit = .unlimited := by
  unfold limit
  rw [hrate, h]

end Policy

structure Listener where
  bindAddr : String
  port : UInt16
  deriving DecidableEq

structure Config where
  listener : Listener
  defaultPolicy : Policy := {}
  routes : RouteTable Policy := .empty
  deriving DecidableEq

end Throttle
