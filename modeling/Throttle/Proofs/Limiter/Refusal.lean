import Throttle.Proofs.Bucket.Retry
import Throttle.Proofs.Limiter.Capacity

/-!
# What a refusal tells of later requests

A request above the burst is refused whatever the bucket holds, and no request changes the burst: who
was refused for it need not ask again. Any other refusal found a bucket that was used before and is not
full; when the rest has been earned, the same request finds a full one. Main statement:
`refusal_tells_future`.
-/

set_option autoImplicit false

namespace Throttle

/-- Whether an operation replaces the limit or the burst. -/
def Operation.retunes : Operation → Bool
  | ask _ => false
  | tokensAt => false
  | setLimit _ => true
  | setBurst _ => true

namespace Limiter
open Bucket

/-! ## Verdicts -/

/-- A request is granted with an instant to act at, or it is refused and leaves the limiter as it is. -/
theorem verdict_cases (l : Limiter) (now : Instant) (request : Ask) :
    (∃ delay actAt next, l.reservation now request = .granted delay (some actAt) ∧
        (l.ask now request).2 = { l with bucket := next } ∧
        l.bucket.Grant l.limit l.burst now request.count request.maxWait delay next) ∨
      ∃ reason delay, l.reservation now request = .denied reason delay ∧ (l.ask now request).2 = l ∧
        l.bucket.Refusal l.limit l.burst now request.count request.maxWait reason delay := by
  have hreservation : l.reservation now request = .ofProposal now (l.proposal now request) := rfl
  rw [hreservation, limiter_ask]
  cases h : l.proposal now request with
  | granted delay next =>
    have hgrant := grant_of_propose h
    obtain ⟨actAt, hact⟩ := hgrant.acts
    exact .inl ⟨delay, actAt, next, by rw [← hact]; rfl, rfl, hgrant⟩
  | denied reason delay => exact .inr ⟨reason, delay, rfl, rfl, refusal_of_propose h⟩

theorem refusal_of_denied {l : Limiter} {now : Instant} {request : Ask} {reason : Denial} {delay : Duration}
    (h : l.reservation now request = .denied reason delay) :
    l.bucket.Refusal l.limit l.burst now request.count request.maxWait reason delay := by
  rcases l.verdict_cases now request with ⟨_, _, _, hgranted, _⟩ | ⟨reason', delay', hdenied, _, hrefusal⟩
  · rw [hgranted] at h
    cases h
  · rw [hdenied] at h
    cases h
    exact hrefusal

theorem reservation_of_enough {l : Limiter} {rate : Rate} (hlimit : l.limit = .perSecond rate) {request : Ask}
    (hn : request.count ≠ 0) (hburst : request.count ≤ l.burst) {now : Instant}
    (henough : 0 ≤ l.bucket.remaining (.perSecond rate) l.burst now request.count) :
    l.reservation now request = .granted .zero (some now) := by
  rw [← hlimit] at henough
  have hgrant := propose_of_enough hn (by rw [hlimit]; rfl) hburst henough request.maxWait
  unfold reservation
  rw [reserveWithin_of_granted hgrant, Instant.add?_zero]

/-! ## Above the burst -/

theorem limits_step {l : Limiter} {operation : Operation} (h : operation.retunes = false) (now : Instant) :
    (l.step now operation).2.limit = l.limit ∧ (l.step now operation).2.burst = l.burst := by
  cases operation with
  | ask request =>
    show (l.ask now request).2.limit = l.limit ∧ (l.ask now request).2.burst = l.burst
    rw [limiter_ask]
    exact ⟨rfl, rfl⟩
  | tokensAt => exact ⟨rfl, rfl⟩
  | setLimit limit => cases h
  | setBurst burst => cases h

/-- Requests leave the limit and the burst as they are. -/
theorem limits_after (operations : List (Instant × Operation)) (l : Limiter)
    (h : ∀ operation ∈ operations, operation.2.retunes = false) :
    (l.after operations).limit = l.limit ∧ (l.after operations).burst = l.burst := by
  induction operations generalizing l with
  | nil => exact ⟨rfl, rfl⟩
  | cons first rest ih =>
    obtain ⟨now, operation⟩ := first
    obtain ⟨hlimit, hburst⟩ := limits_step (l := l) (h _ List.mem_cons_self) now
    obtain ⟨hlimit', hburst'⟩ := ih (l.step now operation).2 fun operation hmem => h operation (List.mem_cons_of_mem _ hmem)
    exact ⟨hlimit'.trans hlimit, hburst'.trans hburst⟩

theorem reservation_of_exceeds {l : Limiter} {request : Ask} (hlimit : l.limit.isUnlimited = false)
    (hburst : l.burst < request.count) (now : Instant) :
    l.reservation now request = .denied .exceedsBurst .forever := by
  have hn : request.count ≠ 0 := by
    intro hzero
    rw [hzero] at hburst
    exact absurd hburst (UInt64.not_lt.2 (UInt64.le_iff_toNat_le.2 (Nat.zero_le _)))
  have hdenied : l.proposal now request = .denied .exceedsBurst .forever :=
    propose_of_exceeds hn hlimit hburst l.bucket now request.maxWait
  show Reservation.ofProposal now (l.proposal now request) = _
  rw [hdenied]
  rfl

/-! ## Out of tokens -/

/-- What is refused for want of tokens fits the burst of a bucket that was used before. -/
theorem used_of_exhausted {b : Bucket} {limit : Limit} {burst n : UInt64} {now : Instant} {maxWait delay : Duration}
    (h : b.Refusal limit burst now n maxWait .exhausted delay) :
    n ≠ 0 ∧ n ≤ burst ∧ ∃ rate last, limit = .perSecond rate ∧ b.last = some last := by
  have hcases : n ≠ 0 ∧ limit.isUnlimited = false ∧ n ≤ burst ∧ ¬ 0 ≤ b.remaining limit burst now n := by
    cases h with
    | never hn hlimit hburst hshort _ => exact ⟨hn, hlimit, hburst, hshort⟩
    | late hn hlimit hburst hshort _ _ _ => exact ⟨hn, hlimit, hburst, hshort⟩
  obtain ⟨hn, hlimit, hburst, hshort⟩ := hcases
  cases limit with
  | unlimited => cases hlimit
  | perSecond rate =>
    obtain ⟨last, _, _, hlast, _⟩ := balance_of_short hburst hshort
    exact ⟨hn, hburst, rate, last, rfl, hlast⟩

/-- A request that fits is granted at once when the rest of the bucket has been earned. -/
theorem reservation_of_due {l : Limiter} {rate : Rate} (hsound : l.Sound) (hlimit : l.limit = .perSecond rate)
    {request : Ask} (hn : request.count ≠ 0) (hburst : request.count ≤ l.burst) {t : Instant}
    (hdue : l.limit.timeToEarn (capacity l.burst - l.bucket.tokens) ≤ l.bucket.idle t) :
    l.reservation t request = .granted .zero (some t) := by
  rw [← held_eq_tokens hsound, hlimit] at hdue
  exact reservation_of_enough hlimit hn hburst (enough_of_full (balanceAt_of_due hdue) hburst)

/-- In every state that a limiter reaches, of every request that is refused. If its count exceeds the
burst, then whatever requests are made and balances asked for after it, at whatever instants, as long as
limit and burst are not replaced every request for no fewer tokens is refused for the same reason. If it
is refused for want of tokens, it fits the burst, and from the same bucket any request for as many tokens
is granted at once at every instant from the last update on, when what was then missing has been earned. -/
theorem refusal_tells_future (limit : Limit) (burst : UInt64) (operations : List (Instant × Operation)) (now : Instant)
    (request : Ask) (delay : Duration) :
    let l := (new limit burst).after operations
    (l.reservation now request = .denied .exceedsBurst delay →
        ∀ continuation : List (Instant × Operation), (∀ operation ∈ continuation, operation.2.retunes = false) →
          ∀ (t : Instant) (other : Ask), request.count ≤ other.count →
            (l.after continuation).reservation t other = .denied .exceedsBurst .forever) ∧
      (l.reservation now request = .denied .exhausted delay →
        request.count ≤ l.burst ∧
          ∃ last, l.bucket.last = some last ∧
            ∀ (t : Instant) (other : Ask), other.count = request.count → last ≤ t →
              l.limit.timeToEarn (capacity l.burst - l.bucket.tokens) ≤ t.since last →
                l.reservation t other = .granted .zero (some t)) := by
  intro l
  constructor
  · intro h continuation hkept t other hcount
    obtain ⟨hlimit, hburst⟩ := limits_after continuation l hkept
    cases refusal_of_denied h with
    | exceedsBurst _ hlimited hexceeds =>
      apply reservation_of_exceeds
      · rw [hlimit]
        exact hlimited
      · rw [hburst]
        exact UInt64.lt_of_lt_of_le hexceeds hcount
  · intro h
    have hsound : l.Sound := sound_after operations _ (sound_new limit burst)
    obtain ⟨hn, hburst, rate, last, hlimit, hlast⟩ := used_of_exhausted (refusal_of_denied h)
    refine ⟨hburst, last, hlast, fun t other hcount _ hdue => ?_⟩
    have hidle : l.bucket.idle t = t.since last := by
      unfold idle
      rw [hlast]
    exact reservation_of_due hsound hlimit (hcount ▸ hn) (hcount ▸ hburst) (hidle ▸ hdue)

/-- Of a drained bucket for three tokens, four are refused for good, and three until it is full again, which
takes a second and a half. -/
theorem refusal_tells_future_of_drained :
    let limit := Limit.ofRate (Binary64.ofNat 2)
    let start : Instant := { nanos := 0 }
    let now : Instant := { nanos := 400_000_000 }
    let full : Instant := { nanos := 1_500_000_000 }
    let l := (new limit 3).after [(start, .ask (.reserve 3))]
    let continuation : List (Instant × Operation) := [(full, .ask (.allow 2)), (now, .tokensAt)]
    (l.reservation now (.allow 4) = .denied .exceedsBurst .forever ∧
        (∀ operation ∈ continuation, operation.2.retunes = false) ∧ (4 : UInt64) ≤ 5 ∧
        (l.after continuation).reservation full (.reserve 5) = .denied .exceedsBurst .forever) ∧
      l.reservation now (.allow 3) = .denied .exhausted { nanos := 1_100_000_000 } ∧ (3 : UInt64) ≤ 3 ∧
        l.bucket.last = some start ∧ start ≤ full ∧
        l.limit.timeToEarn (capacity l.burst - l.bucket.tokens) ≤ full.since start ∧
        l.reservation full (.reserveWithin 3 .zero) = .granted .zero (some full) := by
  intro limit start now full l continuation
  have hexceeds : l.reservation now (.allow 4) = .denied .exceedsBurst .forever := by decide +kernel
  have hexhausted : l.reservation now (.allow 3) = .denied .exhausted { nanos := 1_100_000_000 } := by decide +kernel
  have hkept : ∀ operation ∈ continuation, operation.2.retunes = false := by decide
  have hlast : l.bucket.last = some start := by decide +kernel
  have hdue : l.limit.timeToEarn (capacity l.burst - l.bucket.tokens) ≤ full.since start := by decide +kernel
  have hnever := (refusal_tells_future limit 3 _ now (.allow 4) .forever).1 hexceeds continuation hkept full (.reserve 5)
    (by decide)
  obtain ⟨hburst, last, hlast', hgranted⟩ := (refusal_tells_future limit 3 _ now (.allow 3) _).2 hexhausted
  obtain rfl : start = last := Option.some.inj (hlast.symm.trans hlast')
  exact ⟨⟨hexceeds, hkept, by decide, hnever⟩, hexhausted, hburst, hlast, by decide, hdue,
    hgranted full (.reserveWithin 3 .zero) rfl (by decide) hdue⟩

end Limiter

end Throttle
