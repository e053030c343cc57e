import Throttle.Denial
import Throttle.Limit

/-!
# The token bucket

A bucket holds a balance and the instant at which it was right. Bringing it up to a later instant
adds what the limit earned since, up to the capacity; a clock that went back earns nothing. A
request is decided by `propose`, which changes nothing: it answers with the bucket to go on with, so
a refused request leaves no trace.

A grant that has to wait leaves the balance at zero and dates it at the instant at which the tokens
will have been earned. Later requests start from there, which makes them queue.
-/

set_option autoImplicit false

namespace Throttle

/-! ## Balances -/

/-- A balance and the instant at which it was right; a bucket never used has no instant. -/
structure Bucket where
  tokens : Binary64
  last : Option Instant
  deriving DecidableEq

/-- The most tokens that a bucket of a burst holds. -/
def capacity (burst : UInt64) : Binary64 :=
  Binary64.ofNat burst.toNat

namespace Bucket

/-- A bucket that was never used. -/
def fresh : Bucket := ⟨0, none⟩

/-- The instant from which a bucket counts at `now`: never before it was last brought up to date. -/
def base (b : Bucket) (now : Instant) : Instant :=
  match b.last with
  | none => now
  | some last => Instant.max last now

/-- The time that earns tokens: since the last update, and forever for a bucket never used. -/
def idle (b : Bucket) (now : Instant) : Duration :=
  match b.last with
  | none => .forever
  | some last => now.since last

/-- The stored balance moved into the range from nothing to the capacity. -/
def held (b : Bucket) (burst : UInt64) : Binary64 :=
  Binary64.clamp 0 (capacity burst) b.tokens

/-- The balance at `now`: full once the idle time earns what is missing. -/
def balanceAt (b : Bucket) (limit : Limit) (burst : UInt64) (now : Instant) : Binary64 :=
  if limit.timeToEarn (capacity burst - b.held burst) ≤ b.idle now then capacity burst
  else Binary64.min (b.held burst + limit.earnedIn (b.idle now)) (capacity burst)

/-- The bucket brought up to `now`. -/
def settle (b : Bucket) (limit : Limit) (burst : UInt64) (now : Instant) : Bucket where
  tokens := if limit.isUnlimited then b.tokens else b.balanceAt limit burst now
  last := some (b.base now)

end Bucket

/-! ## Decisions -/

/-- What is decided about one request for tokens. -/
inductive Proposal where
  /-- Granted after a wait, with the bucket to go on with. -/
  | granted (delay : Duration) (next : Bucket)
  /-- Refused; the delay is the wait that would have been needed. -/
  | denied (reason : Denial) (delay : Duration)
  deriving DecidableEq

namespace Proposal

def isGranted : Proposal → Bool
  | granted .. => true
  | denied .. => false

def delay : Proposal → Duration
  | granted delay _ => delay
  | denied _ delay => delay

def reason? : Proposal → Option Denial
  | granted .. => none
  | denied reason _ => some reason

/-- The bucket after the request: unchanged if it was refused. -/
def bucketAfter (b : Bucket) : Proposal → Bucket
  | granted _ next => next
  | denied .. => b

end Proposal

namespace Bucket

/-- Decides whether `n` tokens can be had at `now` with a wait of at most `maxWait`. -/
def propose (b : Bucket) (limit : Limit) (burst : UInt64) (now : Instant) (n : UInt64)
    (maxWait : Duration) : Proposal :=
  if n = 0 then .granted .zero b
  else if limit.isUnlimited then .granted .zero { b with last := some (b.base now) }
  else if burst < n then .denied .exceedsBurst .forever
  else
    let remaining := b.balanceAt limit burst now - Binary64.ofNat n.toNat
    if 0 ≤ remaining then .granted .zero ⟨remaining, some (b.base now)⟩
    else match (b.base now).add? (limit.timeToEarn (-remaining)) with
      | none => .denied .exhausted .forever
      | some actAt =>
        let delay := actAt.since now
        if maxWait < delay then .denied .exhausted delay
        else .granted delay ⟨0, some actAt⟩

end Bucket

end Throttle
