import Throttle.Bucket

/-!
# Limiters and reservations

A limiter is a bucket with the limit and the burst now in force. Requests are decided by the bucket
and committed only when they are granted; the limit and the burst can be replaced at any instant,
after the bucket has been brought up to date under the old ones.
-/

set_option autoImplicit false

namespace Throttle

/-! ## Reservations -/

/-- The answer to a request for tokens. -/
inductive Reservation where
  /-- Granted: the caller waits for `delay`, until `actAt` where the clock reaches so far. -/
  | granted (delay : Duration) (actAt : Option Instant)
  | denied (reason : Denial) (delay : Duration)
  deriving DecidableEq

namespace Reservation

def ofProposal (now : Instant) : Proposal → Reservation
  | .granted delay _ => granted delay (now.add? delay)
  | .denied reason delay => denied reason delay

def isGranted : Reservation → Bool
  | granted .. => true
  | denied .. => false

/-- The wait from the instant of the request; of a refused request, the wait it would have needed. -/
def delay : Reservation → Duration
  | granted delay _ => delay
  | denied _ delay => delay

def reason? : Reservation → Option Denial
  | granted .. => none
  | denied reason _ => some reason

/-- When the reserved tokens may be used. -/
def timeToAct? : Reservation → Option Instant
  | granted _ actAt => actAt
  | denied .. => none

/-- The wait that is left at `now`; forever if there is nothing to wait for. -/
def delayFrom (r : Reservation) (now : Instant) : Duration :=
  match r.timeToAct? with
  | some actAt => actAt.since now
  | none => .forever

end Reservation

/-! ## Limiters -/

structure Limiter where
  limit : Limit
  burst : UInt64
  bucket : Bucket
  deriving DecidableEq

namespace Limiter

/-- A limiter that was never used, and is therefore full. -/
def new (limit : Limit) (burst : UInt64) : Limiter :=
  ⟨limit, burst, .fresh⟩

/-- The tokens that could be had at `now` without a wait. -/
def tokensAt (l : Limiter) (now : Instant) : Binary64 :=
  if l.limit.isUnlimited then capacity l.burst
  else l.bucket.balanceAt l.limit l.burst now

/-- Asks for `n` tokens with a wait of at most `maxWait`. -/
def reserveWithin (l : Limiter) (now : Instant) (n : UInt64) (maxWait : Duration) :
    Reservation × Limiter :=
  let proposal := l.bucket.propose l.limit l.burst now n maxWait
  (.ofProposal now proposal, { l with bucket := proposal.bucketAfter l.bucket })

/-- Asks for `n` tokens, however long the wait. -/
def reserve (l : Limiter) (now : Instant) (n : UInt64) : Reservation × Limiter :=
  l.reserveWithin now n .forever

/-- Asks for `n` tokens at once. -/
def allow (l : Limiter) (now : Instant) (n : UInt64) : Bool × Limiter :=
  let (reservation, next) := l.reserveWithin now n .zero
  (reservation.isGranted, next)

/-- Replaces the limit. What was earned so far is credited at the old one; a bucket that had no
limit starts full, like a new one. -/
def setLimit (l : Limiter) (now : Instant) (limit : Limit) : Limiter :=
  let settled := l.bucket.settle l.limit l.burst now
  let bucket :=
    if l.limit.isUnlimited && !limit.isUnlimited then { settled with tokens := capacity l.burst }
    else settled
  { l with limit, bucket }

/-- Replaces the burst, and trims a balance that no longer fits. -/
def setBurst (l : Limiter) (now : Instant) (burst : UInt64) : Limiter :=
  let settled := l.bucket.settle l.limit l.burst now
  { l with burst, bucket := { settled with tokens := Binary64.min settled.tokens (capacity burst) } }

end Limiter

end Throttle
