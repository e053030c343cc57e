import Throttle.Proofs.Bucket.Turn
import Throttle.Proofs.Limiter.Run

/-!
# First come, first served

Under one limit and one burst, and on a clock that does not go back, the reservations of a run may be
acted on in the order in which they were granted. What carries a run is the instant that the last
grant bars to the next. Main statement: `reservations_in_turn`.
-/

set_option autoImplicit false

namespace Throttle.Limiter

/-! ## Reservations of a run -/

/-- The granted reservations of a run that took tokens, in the order in which they were granted. -/
def paidReservations (l : Limiter) : List (Instant × Ask) → List Reservation
  | [] => []
  | (now, request) :: rest =>
    (l.paid? now request).toList ++ (l.ask now request).2.paidReservations rest

/-- No instant of the clock is before an earlier one. -/
def InOrder (calls : List (Instant × Ask)) : Prop := calls.Pairwise (·.1 ≤ ·.1)

instance (calls : List (Instant × Ask)) : Decidable (InOrder calls) :=
  inferInstanceAs (Decidable (calls.Pairwise (·.1 ≤ ·.1)))

/-! ## Runs -/

theorem paidReservations_in_turn (calls : List (Instant × Ask)) (l : Limiter) (hclock : InOrder calls) :
    ∃ times : List Instant, (l.paidReservations calls).map (·.timeToAct?) = times.map some ∧ times.Pairwise (· ≤ ·) ∧
      ∀ start t, (∀ call ∈ calls, start ≤ call.1) → l.bucket.Bars l.limit l.burst start t →
        ∀ time ∈ times, t ≤ time := by
  induction calls generalizing l with
  | nil => exact ⟨[], rfl, List.Pairwise.nil, by simp⟩
  | cons call rest ih =>
    obtain ⟨now, request⟩ := call
    obtain ⟨hnow, hrest⟩ := List.pairwise_cons.1 hclock
    unfold paidReservations
    rcases l.paid?_cases now request with ⟨hnone, hsame⟩ | ⟨delay, next, hn, hpaid, hafter, hgrant⟩
    · rw [hnone, hsame]
      obtain ⟨times, htimes, hsorted, hbarred⟩ := ih l hrest
      refine ⟨times, htimes, hsorted, ?_⟩
      intro start t hstart hbars
      exact hbarred start t (fun call hmem => hstart call (List.mem_cons_of_mem _ hmem)) hbars
    · rw [hpaid, hafter]
      obtain ⟨times, htimes, hsorted, hbarred⟩ := ih { l with bucket := next } hrest
      obtain ⟨actAt, hact, hnext, hturn⟩ := hgrant.acts_in_turn hn
      -- the grant bars its own instant to the rest of the run
      have hlater : ∀ time ∈ times, actAt ≤ time := hbarred now actAt hnow hnext
      refine ⟨actAt :: times, ?_, List.pairwise_cons.2 ⟨hlater, hsorted⟩, ?_⟩
      · rw [List.map_append, htimes]
        show [now.add? delay] ++ times.map some = _
        rw [hact]
        rfl
      · intro start t hstart hbars time hmem
        have hfirst : t ≤ actAt := hturn t (hbars.later (hstart (now, request) List.mem_cons_self))
        rcases List.mem_cons.1 hmem with rfl | hmem
        · exact hfirst
        · exact Int.le_trans hfirst (hlater time hmem)

/-- In a run of requests whose instants never decrease, on any limiter whatever its bucket, every
granted reservation that took tokens has an instant to act at, and in the order of the grants these
instants never decrease. -/
theorem reservations_in_turn (l : Limiter) (calls : List (Instant × Ask)) (hclock : InOrder calls) :
    ∃ times : List Instant, (l.paidReservations calls).map (·.timeToAct?) = times.map some ∧ times.Pairwise (· ≤ ·) := by
  obtain ⟨times, htimes, hsorted, _⟩ := paidReservations_in_turn calls l hclock
  exact ⟨times, htimes, hsorted⟩

/-- A grant at once, two that queue behind each other, one refusal in between and a last grant that
waits anew. -/
theorem reservations_in_turn_of_queue :
    let limit := Limit.ofRate (Binary64.ofNat 2)
    let calls : List (Instant × Ask) := [
      ({ nanos := 0 }, .reserve 3),
      ({ nanos := 0 }, .reserve 2),
      ({ nanos := 400_000_000 }, .allow 1),
      ({ nanos := 400_000_000 }, .reserveWithin 1 .forever),
      ({ nanos := 1_750_000_000 }, .reserve 1)]
    let reservations := (new limit 3).paidReservations calls
    InOrder calls ∧
      reservations.map (·.timeToAct?) = [some { nanos := 0 }, some { nanos := 1_000_000_000 },
        some { nanos := 1_500_000_000 }, some { nanos := 2_000_000_000 }] ∧
      ∃ times : List Instant, reservations.map (·.timeToAct?) = times.map some ∧ times.Pairwise (· ≤ ·) := by
  intro limit calls reservations
  have hclock : InOrder calls := by decide
  exact ⟨hclock, by decide +kernel, reservations_in_turn (new limit 3) calls hclock⟩

end Throttle.Limiter
