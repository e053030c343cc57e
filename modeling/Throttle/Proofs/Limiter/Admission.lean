import Throttle.Proofs.Bucket.Payment
import Throttle.Proofs.Limiter.Run

/-!
# No more admitted than the burst and the rate allow

The grants of a run add up to the burst, what the rate earns from the first grant to the last update
of the bucket, and one `grantError` each. Along a run the balance that is left is paid for too: this
is what `granted_le_of_holds` carries through. Main statement: `granted_le`.
-/

set_option autoImplicit false

namespace Throttle.Limiter
open Bucket

/-! ## Sums of grants -/

def grantedTotal (grants : List (Instant × UInt64)) : ℕ :=
  (grants.map fun grant => grant.2.toNat).sum

/-- The grants that took tokens. -/
def paidGrants (grants : List (Instant × UInt64)) : List (Instant × UInt64) :=
  grants.filter fun grant => grant.2 ≠ 0

theorem grantedTotal_cons (now : Instant) (n : UInt64) (rest : List (Instant × UInt64)) :
    grantedTotal ((now, n) :: rest) = n.toNat + grantedTotal rest := rfl

@[simp] theorem grantedTotal_cons_zero (now : Instant) (rest : List (Instant × UInt64)) :
    grantedTotal ((now, 0) :: rest) = grantedTotal rest := by
  rw [grantedTotal_cons, UInt64.toNat_zero, Nat.zero_add]

@[simp] theorem paidGrants_cons_zero (now : Instant) (rest : List (Instant × UInt64)) :
    paidGrants ((now, 0) :: rest) = paidGrants rest := by
  simp [paidGrants]

theorem paidGrants_cons {n : UInt64} (h : n ≠ 0) (now : Instant) (rest : List (Instant × UInt64)) :
    paidGrants ((now, n) :: rest) = (now, n) :: paidGrants rest := by
  simp [paidGrants, h]

/-! ## One request -/

/-- A request either leaves the limiter as it is and takes nothing, or it is a grant of tokens. -/
theorem request_cases (l : Limiter) (now : Instant) (request : Ask) (rest : List (Instant × Ask)) :
    (l.after (requests ((now, request) :: rest)) = l.after (requests rest) ∧
      grantedTotal (l.grants ((now, request) :: rest)) = grantedTotal (l.grants rest) ∧
      paidGrants (l.grants ((now, request) :: rest)) = paidGrants (l.grants rest)) ∨
    ∃ delay next, request.count ≠ 0 ∧
      l.bucket.Grant l.limit l.burst now request.count request.maxWait delay next ∧
      l.after (requests ((now, request) :: rest)) = { l with bucket := next }.after (requests rest) ∧
      l.grants ((now, request) :: rest) = (now, request.count) :: { l with bucket := next }.grants rest := by
  have hafter : l.after (requests ((now, request) :: rest)) = (l.ask now request).2.after (requests rest) := rfl
  rw [hafter, grants]
  rcases l.ask_cases now request with ⟨hrefused, h⟩ | ⟨delay, next, hgranted, h, hgrant⟩
  · rw [if_neg (by rw [hrefused]; decide), h]
    exact .inl ⟨rfl, rfl, rfl⟩
  · rw [if_pos hgranted, h]
    by_cases hzero : request.count = 0
    · rw [hgrant.eq_of_zero hzero, hzero, grantedTotal_cons_zero, paidGrants_cons_zero]
      exact .inl ⟨rfl, rfl, rfl⟩
    · exact .inr ⟨delay, next, hzero, hgrant, rfl, rfl⟩

/-! ## Runs -/

variable {rate : Rate}

/-- The potential along a run: what was granted and what is left are paid from what was held. -/
theorem granted_le_of_holds (calls : List (Instant × Ask)) (l : Limiter) (hlimit : l.limit = .perSecond rate)
    {last : Instant} {q : ℚ} (h : l.bucket.Holds l.burst last q) :
    ∃ last' q', (l.after (requests calls)).bucket.Holds l.burst last' q' ∧
      grantedTotal (l.grants calls) + q' ≤ q + rate.value * last.elapsed last' +
        (paidGrants (l.grants calls)).length * grantError rate l.burst := by
  induction calls generalizing l last q with
  | nil =>
    refine ⟨last, q, h, ?_⟩
    simp [grants, grantedTotal, paidGrants, Instant.elapsed_self]
  | cons call rest ih =>
    obtain ⟨now, request⟩ := call
    rcases l.request_cases now request rest with
      ⟨hafter, htotal, hpaid⟩ | ⟨delay, next, hn, hgrant, hafter, hgrants⟩
    · rw [hafter, htotal, hpaid]
      exact ih l hlimit h
    · rw [hlimit] at hgrant
      obtain ⟨mid, qmid, hmid, hstep⟩ := hgrant.paid hn h
      obtain ⟨last', q', hend, hrun⟩ := ih { l with bucket := next } hlimit hmid
      refine ⟨last', q', hafter ▸ hend, ?_⟩
      have htime := Instant.elapsed_add last mid last'
      rw [hgrants, grantedTotal_cons, paidGrants_cons hn, List.length_cons, ← htime]
      push_cast
      dsimp only at hrun
      linarith

theorem granted_le_of_unused (calls : List (Instant × Ask)) (l : Limiter) (hlimit : l.limit = .perSecond rate)
    (hunused : l.bucket.last = none) (hlate : ∀ call ∈ calls, Instant.earliest < call.1) :
    (paidGrants (l.grants calls) = [] ∧ grantedTotal (l.grants calls) = 0) ∨
      ∃ first others last' q', paidGrants (l.grants calls) = first :: others ∧
        (l.after (requests calls)).bucket.Holds l.burst last' q' ∧
        grantedTotal (l.grants calls) + q' ≤ l.burst.toNat + rate.value * first.1.elapsed last' +
          (paidGrants (l.grants calls)).length * grantError rate l.burst := by
  induction calls with
  | nil => exact .inl ⟨rfl, rfl⟩
  | cons call rest ih =>
    obtain ⟨now, request⟩ := call
    have hnow := hlate (now, request) (List.mem_cons_self ..)
    have hrest : ∀ call ∈ rest, Instant.earliest < call.1 :=
      fun call hmem => hlate call (List.mem_cons_of_mem _ hmem)
    rcases l.request_cases now request rest with
      ⟨hafter, htotal, hpaid⟩ | ⟨delay, next, hn, hgrant, hafter, hgrants⟩
    · rw [hafter, htotal, hpaid]
      exact ih hrest
    · rw [hlimit] at hgrant
      obtain ⟨qmid, hmid, hstep⟩ := hgrant.paid_first hn hunused hnow
      obtain ⟨last', q', hend, hrun⟩ := granted_le_of_holds rest { l with bucket := next } hlimit hmid
      rw [hafter, hgrants, paidGrants_cons hn]
      refine .inr ⟨(now, request.count), _, last', q', rfl, hend, ?_⟩
      rw [grantedTotal_cons, List.length_cons]
      push_cast
      dsimp only at hrun ⊢
      linarith

/-- In a run of requests on a new limiter, at instants in any order after the earliest one, nothing is
granted, or the counts granted add up to at most the burst, what the rate earned from the first grant
to the last update, and for each grant a nanosecond at the rate and a relative 2^-48 of the burst. -/
theorem granted_le (rate : Rate) (burst : UInt64) (calls : List (Instant × Ask))
    (hlate : ∀ call ∈ calls, Instant.earliest < call.1) :
    let l := new (.perSecond rate) burst
    let granted := l.grants calls
    (paidGrants granted = [] → grantedTotal granted = 0) ∧
      ∀ first others, paidGrants granted = first :: others →
        ∃ last, (l.after (requests calls)).bucket.last = some last ∧
          (grantedTotal granted : ℚ) ≤ burst.toNat + rate.value * ((last.nanos - first.1.nanos) / 10 ^ 9) +
            (paidGrants granted).length * (rate.value * (1 / 10 ^ 9) + burst.toNat * 2 ^ (-48 : ℤ)) := by
  dsimp only
  rcases granted_le_of_unused calls (new (.perSecond rate) burst) rfl rfl hlate with
    ⟨hnone, hzero⟩ | ⟨first, others, last, q, hpaid, hend, hle⟩
  · refine ⟨fun _ => hzero, fun first others h => ?_⟩
    rw [hnone] at h
    cases h
  · refine ⟨fun h => ?_, fun first' others' h => ⟨last, hend.last_eq, ?_⟩⟩
    · rw [hpaid] at h
      cases h
    · rw [hpaid, List.cons.injEq] at h
      obtain ⟨rfl, rfl⟩ := h
      have hq := hend.nonneg
      have helapsed : first.1.elapsed last = (last.nanos - first.1.nanos) / 10 ^ 9 := by
        unfold Instant.elapsed
        push_cast
        norm_num
      have herror : grantError rate burst = rate.value * (1 / 10 ^ 9) + burst.toNat * 2 ^ (-48 : ℤ) := by
        unfold grantError
        ring
      rw [← helapsed, ← herror]
      exact (le_add_of_nonneg_right hq).trans hle

/-- A grant at once, one that waits and, on a clock that went back, one that is refused. -/
theorem granted_le_of_three_calls :
    let rate : Rate := ⟨2, ⟨2, 0, by decide, by decide, by decide, by decide +kernel⟩, by decide⟩
    let calls : List (Instant × Ask) := [
      ({ nanos := 0 }, .allow 3),
      ({ nanos := 500_000_000 }, .reserve 2),
      ({ nanos := 400_000_000 }, .allow 1)]
    let first : Instant × UInt64 := ({ nanos := 0 }, 3)
    let granted := (new (.perSecond rate) 3).grants calls
    (∀ call ∈ calls, Instant.earliest < call.1) ∧
      paidGrants granted = [first, ({ nanos := 500_000_000 }, 2)] ∧
      ∃ last, ((new (.perSecond rate) 3).after (requests calls)).bucket.last = some last ∧
        (grantedTotal granted : ℚ) ≤ (3 : UInt64).toNat + rate.value * ((last.nanos - first.1.nanos) / 10 ^ 9) +
          (paidGrants granted).length * (rate.value * (1 / 10 ^ 9) + (3 : UInt64).toNat * 2 ^ (-48 : ℤ)) := by
  intro rate calls first granted
  have hlate : ∀ call ∈ calls, Instant.earliest < call.1 := by decide
  have hpaid : paidGrants granted = [first, ({ nanos := 500_000_000 }, 2)] := by decide +kernel
  have h := (granted_le rate 3 calls hlate).2 first _ hpaid
  exact ⟨hlate, hpaid, h⟩

end Throttle.Limiter
