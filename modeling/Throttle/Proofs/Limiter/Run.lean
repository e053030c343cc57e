import Throttle.Limiter
import Throttle.Proofs.Bucket.Grant

/-!
# Runs of a limiter

Everything that can be done with a limiter, one operation after the other, each at an instant of its
own. The instants are in no order: a clock may go back. Every request is decided by the bucket, and
`reservation_cases` says so once for the three kinds of request.
-/

set_option autoImplicit false

namespace Throttle

/-! ## Operations and answers -/

/-- A request for tokens, as a caller makes it. -/
inductive Ask where
  | allow (n : UInt64)
  | reserve (n : UInt64)
  | reserveWithin (n : UInt64) (maxWait : Duration)
  deriving DecidableEq

namespace Ask

def count : Ask → UInt64
  | allow n => n
  | reserve n => n
  | reserveWithin n _ => n

def maxWait : Ask → Duration
  | allow _ => .zero
  | reserve _ => .forever
  | reserveWithin _ maxWait => maxWait

end Ask

inductive Operation where
  | ask (request : Ask)
  | tokensAt
  | setLimit (limit : Limit)
  | setBurst (burst : UInt64)
  deriving DecidableEq

inductive Answer where
  | allowed (granted : Bool)
  | reserved (reservation : Reservation)
  | balance (tokens : Binary64)
  | done
  deriving DecidableEq

def Answer.isGranted : Answer → Bool
  | allowed granted => granted
  | reserved reservation => reservation.isGranted
  | balance _ => false
  | done => false

namespace Limiter

/-! ## One operation -/

def ask (l : Limiter) (now : Instant) : Ask → Answer × Limiter
  | .allow n => (.allowed (l.allow now n).1, (l.allow now n).2)
  | .reserve n => (.reserved (l.reserve now n).1, (l.reserve now n).2)
  | .reserveWithin n maxWait =>
    (.reserved (l.reserveWithin now n maxWait).1, (l.reserveWithin now n maxWait).2)

def step (l : Limiter) (now : Instant) : Operation → Answer × Limiter
  | .ask request => l.ask now request
  | .tokensAt => (.balance (l.tokensAt now), l)
  | .setLimit limit => (.done, l.setLimit now limit)
  | .setBurst burst => (.done, l.setBurst now burst)

def proposal (l : Limiter) (now : Instant) (request : Ask) : Proposal :=
  l.bucket.propose l.limit l.burst now request.count request.maxWait

/-! ## Reservations -/

def reservation (l : Limiter) (now : Instant) (request : Ask) : Reservation :=
  (l.reserveWithin now request.count request.maxWait).1

theorem reserveWithin_of_granted {l : Limiter} {now : Instant} {n : UInt64} {maxWait delay : Duration} {next : Bucket}
    (h : l.bucket.propose l.limit l.burst now n maxWait = .granted delay next) :
    l.reserveWithin now n maxWait = (.granted delay (now.add? delay), { l with bucket := next }) := by
  unfold reserveWithin
  rw [h]
  rfl

/-- What a caller is told is the reservation or, for a request at once, whether there is one. -/
theorem ask_eq_reservation (l : Limiter) (now : Instant) (request : Ask) :
    (l.ask now request).1 = .reserved (l.reservation now request) ∨
      (l.ask now request).1 = .allowed (l.reservation now request).isGranted := by
  cases request with
  | allow n => exact .inr rfl
  | reserve n => exact .inl rfl
  | reserveWithin n maxWait => exact .inl rfl

theorem isGranted_ask (l : Limiter) (now : Instant) (request : Ask) :
    (l.ask now request).1.isGranted = (l.reservation now request).isGranted := by
  rcases l.ask_eq_reservation now request with h | h
  · rw [h]
    rfl
  · rw [h]
    rfl

theorem limiter_ask (l : Limiter) (now : Instant) (request : Ask) :
    (l.ask now request).2 = { l with bucket := (l.proposal now request).bucketAfter l.bucket } := by
  cases request <;> rfl

/-- A refused request changes nothing, and a granted one goes on with the bucket of its grant. -/
theorem reservation_cases (l : Limiter) (now : Instant) (request : Ask) :
    ((l.reservation now request).isGranted = false ∧ (l.ask now request).2 = l) ∨
      ∃ delay next, l.reservation now request = .granted delay (now.add? delay) ∧
        (l.ask now request).2 = { l with bucket := next } ∧
        l.bucket.Grant l.limit l.burst now request.count request.maxWait delay next := by
  have hreservation : l.reservation now request = .ofProposal now (l.proposal now request) := rfl
  rw [hreservation, limiter_ask]
  cases h : l.proposal now request with
  | granted delay next => exact .inr ⟨delay, next, rfl, rfl, Bucket.grant_of_propose h⟩
  | denied reason delay => exact .inl ⟨rfl, rfl⟩

/-- A request that is refused, or asks for nothing, leaves the limiter as it is. -/
theorem ask_eq_self {l : Limiter} {now : Instant} {request : Ask}
    (h : request.count = 0 ∨ (l.reservation now request).isGranted = false) :
    (l.ask now request).2 = l := by
  rcases l.reservation_cases now request with ⟨_, hsame⟩ | ⟨delay, next, hreservation, hafter, hgrant⟩
  · exact hsame
  · rcases h with hzero | hrefused
    · rw [hafter, hgrant.eq_of_zero hzero]
    · rw [hreservation] at hrefused
      cases hrefused

theorem ask_cases (l : Limiter) (now : Instant) (request : Ask) :
    ((l.ask now request).1.isGranted = false ∧ (l.ask now request).2 = l) ∨
      ∃ delay next, (l.ask now request).1.isGranted = true ∧
        (l.ask now request).2 = { l with bucket := next } ∧
        l.bucket.Grant l.limit l.burst now request.count request.maxWait delay next := by
  rw [isGranted_ask]
  rcases l.reservation_cases now request with hrefused | ⟨delay, next, hreservation, hafter, hgrant⟩
  · exact .inl hrefused
  · refine .inr ⟨delay, next, ?_, hafter, hgrant⟩
    rw [hreservation]
    rfl

/-- The reservation of a request that is granted and takes tokens. -/
def paid? (l : Limiter) (now : Instant) (request : Ask) : Option Reservation :=
  if request.count ≠ 0 ∧ (l.reservation now request).isGranted = true then some (l.reservation now request)
  else none

/-- A request that takes no tokens changes nothing. -/
theorem paid?_cases (l : Limiter) (now : Instant) (request : Ask) :
    (l.paid? now request = none ∧ (l.ask now request).2 = l) ∨
      ∃ delay next, request.count ≠ 0 ∧ l.paid? now request = some (.granted delay (now.add? delay)) ∧
        (l.ask now request).2 = { l with bucket := next } ∧
        l.bucket.Grant l.limit l.burst now request.count request.maxWait delay next := by
  unfold paid?
  rcases l.reservation_cases now request with ⟨hrefused, hsame⟩ | ⟨delay, next, hreservation, hafter, hgrant⟩
  · refine .inl ⟨?_, hsame⟩
    simp [hrefused]
  · rw [hreservation]
    by_cases hzero : request.count = 0
    · exact .inl ⟨by simp [hzero], ask_eq_self (.inl hzero)⟩
    · refine .inr ⟨delay, next, hzero, ?_, hafter, hgrant⟩
      simp [hzero, Reservation.isGranted]

/-! ## Balances -/

@[simp] theorem tokensAt_new (limit : Limit) (burst : UInt64) (now : Instant) :
    (new limit burst).tokensAt now = capacity burst := by
  unfold new tokensAt
  dsimp only
  split
  · rfl
  · exact Bucket.balanceAt_of_unused limit rfl

theorem tokensAt_of_perSecond {l : Limiter} {rate : Rate} (h : l.limit = .perSecond rate) (now : Instant) :
    l.tokensAt now = l.bucket.balanceAt (.perSecond rate) l.burst now := by
  unfold tokensAt
  rw [h]
  rfl

/-! ## Limits -/

theorem setLimit_of_unlimited {l : Limiter} (h : l.limit = .unlimited) (now : Instant) (rate : Rate) :
    l.setLimit now (.perSecond rate) =
      ⟨.perSecond rate, l.burst, ⟨capacity l.burst, some (l.bucket.base now)⟩⟩ := by
  unfold setLimit
  rw [h]
  rfl

/-! ## Runs -/

def requests (calls : List (Instant × Ask)) : List (Instant × Operation) :=
  calls.map fun call => (call.1, .ask call.2)

def after (l : Limiter) (operations : List (Instant × Operation)) : Limiter :=
  operations.foldl (fun l operation => (l.step operation.1 operation.2).2) l

@[simp] theorem after_cons (l : Limiter) (now : Instant) (operation : Operation)
    (rest : List (Instant × Operation)) :
    l.after ((now, operation) :: rest) = (l.step now operation).2.after rest := rfl

theorem after_append (l : Limiter) (earlier later : List (Instant × Operation)) :
    l.after (earlier ++ later) = (l.after earlier).after later := List.foldl_append

def totalCount (counts : List UInt64) : ℕ := (counts.map (·.toNat)).sum

@[simp] theorem totalCount_nil : totalCount [] = 0 := rfl

@[simp] theorem totalCount_cons (n : UInt64) (rest : List UInt64) :
    totalCount (n :: rest) = n.toNat + totalCount rest := rfl

@[simp] theorem totalCount_append (counts rest : List UInt64) :
    totalCount (counts ++ rest) = totalCount counts + totalCount rest := by
  unfold totalCount
  rw [List.map_append, List.sum_append]

/-- The granted requests of a run, each with its instant and its count, in their order. -/
def grants (l : Limiter) : List (Instant × Ask) → List (Instant × UInt64)
  | [] => []
  | (now, request) :: rest =>
    if (l.ask now request).1.isGranted then (now, request.count) :: (l.ask now request).2.grants rest
    else (l.ask now request).2.grants rest

end Limiter

end Throttle
