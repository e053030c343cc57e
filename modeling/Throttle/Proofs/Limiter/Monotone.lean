import Throttle.Proofs.Bucket.Monotone
import Throttle.Proofs.Limiter.Run

/-!
# Asking later, for less or with more patience

None of the three makes things worse: the balance that is shown does not fall, and a request is told
no longer a wait and is granted if the harder one was. Main statement: `admission_monotone`, on any
limiter whatever its bucket.
-/

set_option autoImplicit false

namespace Throttle.Limiter
open Bucket

theorem delay_ofProposal (now : Instant) (p : Proposal) : (Reservation.ofProposal now p).delay = p.delay := by
  cases p <;> rfl

theorem isGranted_ofProposal (now : Instant) (p : Proposal) :
    (Reservation.ofProposal now p).isGranted = p.isGranted := by
  cases p <;> rfl

theorem tokensAt_mono (l : Limiter) {now later : Instant} (h : now ≤ later) : l.tokensAt now ≤ l.tokensAt later := by
  obtain ⟨limit, burst, bucket⟩ := l
  cases limit with
  | unlimited =>
    have hcap := denotes_capacity burst
    exact (hcap.le_iff hcap).2 (le_refl _)
  | perSecond rate => exact bucket.balanceAt_mono rate burst h

/-- A request that comes later, asks for no more and allows no shorter a wait is told a wait that is no
longer, and is granted if the other one was, as long as the clock reaches to the end of that one's wait. -/
theorem proposal_mono (b : Bucket) (limit : Limit) (burst : UInt64) {now later due : Instant} {m n : UInt64}
    {patience more : Duration} (hlater : now ≤ later) (hfewer : m ≤ n) (hpatience : patience ≤ more)
    (hdue : later.add? (b.propose limit burst now n patience).delay = some due) :
    (b.propose limit burst later m more).delay ≤ (b.propose limit burst now n patience).delay ∧
      ((b.propose limit burst now n patience).isGranted = true →
        (b.propose limit burst later m more).isGranted = true) := by
  by_cases hfits : Fits limit burst n
  · obtain ⟨hfirst, hgranted⟩ := propose_of_fits hfits b now patience
    obtain ⟨hsecond, hgranted'⟩ := propose_of_fits (hfits.mono hfewer) b later more
    rw [hfirst] at hdue
    rw [hfirst, hsecond, hgranted, hgranted']
    cases hact : b.dueAt? limit burst now n with
    | none =>
      refine ⟨Duration.le_forever _, ?_⟩
      rintro ⟨due, hnone, _⟩
      cases hnone
    | some actAt =>
      rw [hact] at hdue
      obtain ⟨actAt', hact', hle⟩ := dueAt?_mono hlater hfewer hfits hact hdue
      rw [hact']
      refine ⟨hle, ?_⟩
      rintro ⟨due, hdue, hwait⟩
      cases hdue
      exact ⟨actAt', rfl, Nat.le_trans hle (Nat.le_trans hwait hpatience)⟩
  · rw [propose_of_not_fits hfits]
    exact ⟨Duration.le_forever _, fun hgranted => by cases hgranted⟩

/-- In every state of a limiter, of two instants, two counts and two longest waits: the balance at the
later instant is no less, and if the clock reaches from the later instant over the delay that is reported
to the request at the earlier instant, for the greater count and with the shorter wait, then the request
at the later instant, for the smaller count and with the longer wait, is reported a delay that is no
longer, and is granted whenever the first is. -/
theorem admission_monotone (l : Limiter) (now later : Instant) (n m : UInt64) (patience more : Duration)
    (hlater : now ≤ later) (hfewer : m ≤ n) (hpatience : patience ≤ more) :
    let first := (l.reserveWithin now n patience).1
    let second := (l.reserveWithin later m more).1
    l.tokensAt now ≤ l.tokensAt later ∧
      ∀ due, later.add? first.delay = some due →
        second.delay ≤ first.delay ∧ (first.isGranted = true → second.isGranted = true) := by
  refine ⟨l.tokensAt_mono hlater, fun due hdue => ?_⟩
  simp only [reserveWithin, delay_ofProposal, isGranted_ofProposal] at hdue ⊢
  exact proposal_mono l.bucket l.limit l.burst hlater hfewer hpatience hdue

/-- A queue of two thirds of a second: a request for two tokens that may wait for one second is granted,
and so is one for a single token two seconds later that may wait a bit longer. -/
theorem admission_monotone_behind_queue :
    let l := ((new (Limit.ofRate (Binary64.ofNat 3)) 3).after [
      ({ nanos := 0 }, .ask (.reserve 3)),
      ({ nanos := 0 }, .ask (.reserve 1))])
    let now : Instant := { nanos := 100_000_000 }
    let later : Instant := { nanos := 300_000_000 }
    let patience : Duration := { nanos := 900_000_000 }
    let more : Duration := { nanos := 900_000_001 }
    let due : Instant := { nanos := 1_200_000_000 }
    now ≤ later ∧ (1 : UInt64) ≤ 2 ∧ patience ≤ more ∧
      later.add? (l.reserveWithin now 2 patience).1.delay = some due ∧
      (l.reserveWithin now 2 patience).1.isGranted = true ∧
      (l.reserveWithin later 1 more).1.delay ≤ (l.reserveWithin now 2 patience).1.delay ∧
      (l.reserveWithin later 1 more).1.isGranted = true ∧ l.tokensAt now ≤ l.tokensAt later := by
  intro l now later patience more due
  have hlater : now ≤ later := by decide
  have hpatience : patience ≤ more := by decide
  have hdue : later.add? (l.reserveWithin now 2 patience).1.delay = some due := by decide +kernel
  have hgranted : (l.reserveWithin now 2 patience).1.isGranted = true := by decide +kernel
  obtain ⟨htokens, hdelays⟩ := admission_monotone l now later 2 1 patience more hlater (by decide) hpatience
  obtain ⟨hdelay, hgrants⟩ := hdelays due hdue
  exact ⟨hlater, by decide, hpatience, hdue, hgranted, hdelay, hgrants hgranted, htokens⟩

end Throttle.Limiter
