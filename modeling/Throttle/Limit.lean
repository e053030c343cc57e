import Throttle.Time

/-!
# Rates and what they earn

A limit is either absent or a finite rate of tokens per second. Two conversions follow from it: the
tokens earned in a span of time, and the time in which an amount of tokens is earned.
-/

set_option autoImplicit false

namespace Throttle

/-! ## Rates -/

/-- A finite rate in tokens per second. -/
structure Rate where
  value : Rat
  representable : Representable value
  nonneg : 0 ≤ value

namespace Rate

instance : DecidableEq Rate := fun r s =>
  if h : r.value = s.value then
    isTrue (by cases r; cases s; cases h; rfl)
  else isFalse fun e => h (e ▸ rfl)

/-- The rate at which nothing is ever earned. -/
def zero : Rate := ⟨0, representable_zero, Rat.le_refl⟩

def toBinary64 (r : Rate) : Binary64 := .finite r.value r.representable

end Rate

/-! ## Limits -/

/-- How fast a bucket refills. -/
inductive Limit where
  /-- Every request is granted. -/
  | unlimited
  /-- Tokens are earned at a finite rate. -/
  | perSecond (rate : Rate)
  deriving DecidableEq

namespace Limit

/-- The limit of a number of tokens per second: infinity lifts the limit, and whatever is not above
zero stops the refill. -/
def ofRate : Binary64 → Limit
  | .infinity false => unlimited
  | .finite q h => if hq : 0 ≤ q then perSecond ⟨q, h, hq⟩ else perSecond .zero
  | _ => perSecond .zero

/-- One token every `interval`; no interval lifts the limit. -/
def every (interval : Duration) : Limit :=
  if interval = .zero then unlimited
  else ofRate (Binary64.ofNat 1 / interval.toSeconds)

/-- One token every so many milliseconds; none or a negative number lifts the limit. -/
def everyMillis (ms : Int64) : Limit :=
  if ms ≤ 0 then unlimited
  else every (.ofMillis ms.toUInt64)

def isUnlimited : Limit → Bool
  | unlimited => true
  | perSecond _ => false

/-- Tokens per second, infinitely many without a limit. -/
def toBinary64 : Limit → Binary64
  | unlimited => .infinity false
  | perSecond rate => rate.toBinary64

/-- The time in which `tokens` are earned; `Duration.forever` if no span of time is enough. -/
def timeToEarn (limit : Limit) (tokens : Binary64) : Duration :=
  if tokens ≤ 0 then .zero
  else match limit with
    | unlimited => .zero
    | perSecond rate =>
      if 0 < rate.value then
        (Duration.ofSeconds? (tokens / rate.toBinary64)).getD .forever
      else .forever

/-- The tokens earned in a span of time, fractions included. -/
def earnedIn (limit : Limit) (span : Duration) : Binary64 :=
  match limit with
  | unlimited => .infinity false
  | perSecond rate => rate.toBinary64 * span.toSeconds

end Limit

end Throttle
