import Throttle.Proofs.Bucket.Wait
import Throttle.Proofs.Limiter.Refusal

/-!
# Waits are told to the nanosecond

The wait that a refused request is told is when it would be granted, a nanosecond more or two less. The
balance is earned by a multiplication and the wait found by a division, each rounded; where a full bucket
takes at most 10^5 seconds these roundings stay below a nanosecond. Main statement: `reported_wait_tight`.
-/

set_option autoImplicit false

namespace Throttle.Limiter
open Bucket

/-- A request at once is granted by its grant or refused by its refusal. -/
theorem allow_cases (l : Limiter) (t : Instant) (n : UInt64) :
    ((l.allow t n).1 = true ∧ ∃ delay next, l.bucket.Grant l.limit l.burst t n .zero delay next) ∨
      ((l.allow t n).1 = false ∧ ∃ reason delay, l.bucket.Refusal l.limit l.burst t n .zero reason delay) := by
  have hallow : (l.allow t n).1 = (l.reservation t (.allow n)).isGranted := rfl
  rw [hallow]
  rcases l.verdict_cases t (.allow n) with
    ⟨delay, actAt, next, hgranted, _, hgrant⟩ | ⟨reason, delay, hdenied, _, hrefusal⟩
  · rw [hgranted]
    exact .inl ⟨rfl, delay, next, hgrant⟩
  · rw [hdenied]
    exact .inr ⟨rfl, reason, delay, hrefusal⟩

/-- In every state of a limiter at a rate that a run of operations reaches, if the burst is earned in
10^5 seconds: when a request for some tokens is refused as exhausted and told a wait that is not forever,
then from the same bucket as many tokens can be had at once at every instant from a nanosecond after the
end of that wait on, and at none until two nanoseconds before it. -/
theorem reported_wait_tight (limit : Limit) (burst : UInt64) (operations : List (Instant × Operation)) (rate : Rate)
    (now : Instant) (n : UInt64) (maxWait delay : Duration) :
    let l := (new limit burst).after operations
    l.limit = .perSecond rate → (l.burst.toNat : ℚ) ≤ 10 ^ 5 * rate.value →
      (l.reserveWithin now n maxWait).1 = .denied .exhausted delay → delay < .forever →
        ∀ t : Instant,
          (now.nanos + delay.nanos + 1 ≤ t.nanos → (l.allow t n).1 = true) ∧
            (t.nanos ≤ now.nanos + delay.nanos - 2 → (l.allow t n).1 = false) := by
  intro l hlimit hfast hdenied hdelay t
  have hsound : l.Sound := sound_after operations _ (sound_new limit burst)
  have hreservation : l.reservation now (.reserveWithin n maxWait) = .denied .exhausted delay := hdenied
  have hrefusal := refusal_of_denied hreservation
  have hburst := (used_of_exhausted hrefusal).2.1
  have hnone : l.limit.roundingNanos l.burst = 0 := by
    rw [hlimit]
    exact Limit.roundingNanos_eq_zero hfast
  have hround := l.limit.roundingNanos_mono hburst
  constructor
  · intro hlate
    rcases l.allow_cases t n with ⟨hgranted, _⟩ | ⟨_, reason, wait, hagain⟩
    · exact hgranted
    · exact absurd hagain (hrefusal.not_again hdelay (by omega) (Int.le_add_of_nonneg_right (Int.natCast_nonneg _)))
  · intro hearly
    rcases l.allow_cases t n with ⟨_, wait, next, hgrant⟩ | ⟨hrefused, _⟩
    · have hbefore := hgrant.not_before hsound hrefusal hdelay
      omega
    · exact hrefused

/-- At three tokens a second, behind a reservation that waits for a third of a second. -/
theorem reported_wait_tight_behind_queue :
    let rate : Rate := ⟨3, ⟨3, 0, by decide, by decide, by decide, by decide +kernel⟩, by decide⟩
    let start : Instant := { nanos := 0 }
    let now : Instant := { nanos := 100_000_000 }
    let wait : Duration := { nanos := 566_666_666 }
    let early : Instant := { nanos := 666_666_664 }
    let late : Instant := { nanos := 666_666_667 }
    let l := (new (.perSecond rate) 2).after [(start, .ask (.reserve 2)), (start, .ask (.reserve 1))]
    l.limit = .perSecond rate ∧ (l.burst.toNat : ℚ) ≤ 10 ^ 5 * rate.value ∧
      (l.reserveWithin now 1 .zero).1 = .denied .exhausted wait ∧ wait < .forever ∧
      now.nanos + wait.nanos + 1 ≤ late.nanos ∧ (l.allow late 1).1 = true ∧
      early.nanos ≤ now.nanos + wait.nanos - 2 ∧ (l.allow early 1).1 = false := by
  intro rate start now wait early late l
  have hlimit : l.limit = .perSecond rate := by decide +kernel
  have hfast : (l.burst.toNat : ℚ) ≤ 10 ^ 5 * rate.value := by decide +kernel
  have hdenied : (l.reserveWithin now 1 .zero).1 = .denied .exhausted wait := by decide +kernel
  have hwait : wait < .forever := by decide
  have htight := reported_wait_tight (.perSecond rate) 2 _ rate now 1 .zero wait hlimit hfast hdenied hwait
  exact ⟨hlimit, hfast, hdenied, hwait, by decide, (htight late).1 (by decide), by decide, (htight early).2 (by decide)⟩

end Throttle.Limiter
