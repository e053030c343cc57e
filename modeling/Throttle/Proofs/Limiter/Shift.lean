import Throttle.Proofs.Bucket.Shift
import Throttle.Proofs.Limiter.Renewal

/-!
# Runs on a shifted clock

Two limiters run side by side, the second at the instants of the first moved by one span, forward or
backward. Each operation keeps them that span apart and has the same answer, with the instant to act
at moved too. So where the clock has its zero is of no account. Main statement: `shifted_alike`.
-/

set_option autoImplicit false

namespace Throttle

/-! ## Answers -/

inductive Reservation.Shifted (s : ℤ) : Reservation → Reservation → Prop where
  | granted (delay : Duration) {actAt actAt' : Option Instant} (h : Option.Rel (Instant.Shifted s) actAt actAt') :
    Shifted s (.granted delay actAt) (.granted delay actAt')
  | denied (reason : Denial) (delay : Duration) : Shifted s (.denied reason delay) (.denied reason delay)

inductive Answer.Shifted (s : ℤ) : Answer → Answer → Prop where
  | allowed (granted : Bool) : Shifted s (.allowed granted) (.allowed granted)
  | reserved {r r' : Reservation} (h : r.Shifted s r') : Shifted s (.reserved r) (.reserved r')
  | balance (tokens : Binary64) : Shifted s (.balance tokens) (.balance tokens)
  | done : Shifted s .done .done

theorem Reservation.Shifted.isGranted_eq {s : ℤ} {r r' : Reservation} (h : r.Shifted s r') :
    r.isGranted = r'.isGranted := by
  cases h <;> rfl

namespace Limiter
open Bucket

/-- The same limits and the same balance, dated by the shifted clock. -/
structure Shifted (s : ℤ) (l l' : Limiter) : Prop where
  limit : l.limit = l'.limit
  burst : l.burst = l'.burst
  bucket : l.bucket.Shifted s l'.bucket

/-- The nanoseconds of the instants that an operation forms. -/
def formed (l : Limiter) (now : Instant) : Operation → List ℤ
  | .ask request => (l.bucket.formed? l.limit l.burst now request.count).toList
  | .tokensAt => []
  | .setLimit _ => []
  | .setBurst _ => []

variable {s : ℤ} {l l' : Limiter} {now now' : Instant}

/-! ## One operation -/

theorem Shifted.proposal (h : l.Shifted s l') (hnow : now.Shifted s now') (request : Ask)
    (hformed : ∀ m ∈ l.formed now (.ask request), Instant.OnClock m ↔ Instant.OnClock (m + s)) :
    Proposal.Shifted s (l.proposal now request) (l'.proposal now' request) := by
  unfold Limiter.proposal
  rw [← h.limit, ← h.burst]
  apply h.bucket.propose hnow
  intro m hm
  exact hformed m (by simp [formed, hm])

/-- A grant may act at the same distance from its request. -/
theorem Shifted.reservation (h : l.Shifted s l') (hnow : now.Shifted s now') (request : Ask)
    (hformed : ∀ m ∈ l.formed now (.ask request), Instant.OnClock m ↔ Instant.OnClock (m + s)) :
    (l.reservation now request).Shifted s (l'.reservation now' request) := by
  show (Reservation.ofProposal now (l.proposal now request)).Shifted s (.ofProposal now' (l'.proposal now' request))
  generalize hp : l.proposal now request = p
  generalize hp' : l'.proposal now' request = p'
  have hproposal := h.proposal hnow request hformed
  rw [hp, hp'] at hproposal
  cases hproposal with
  | denied reason delay => exact .denied reason delay
  | granted delay _ =>
    obtain ⟨actAt, hact⟩ := (grant_of_propose hp).acts
    obtain ⟨actAt', hact'⟩ := (grant_of_propose hp').acts
    apply Reservation.Shifted.granted
    rw [hact, hact']
    apply Option.Rel.some
    rw [Instant.add?_eq_some_iff] at hact hact'
    unfold Instant.Shifted at hnow ⊢
    omega

theorem Shifted.ask (h : l.Shifted s l') (hnow : now.Shifted s now') (request : Ask)
    (hformed : ∀ m ∈ l.formed now (.ask request), Instant.OnClock m ↔ Instant.OnClock (m + s)) :
    (l.ask now request).1.Shifted s (l'.ask now' request).1 ∧ (l.ask now request).2.Shifted s (l'.ask now' request).2 := by
  constructor
  · have hreservation := h.reservation hnow request hformed
    cases request with
    | allow n =>
      show Answer.Shifted s (.allowed (l.reservation now (.allow n)).isGranted)
        (.allowed (l'.reservation now' (.allow n)).isGranted)
      rw [hreservation.isGranted_eq]
      exact .allowed _
    | reserve n => exact .reserved hreservation
    | reserveWithin n maxWait => exact .reserved hreservation
  · rw [limiter_ask, limiter_ask]
    refine ⟨h.limit, h.burst, ?_⟩
    have hproposal := h.proposal hnow request hformed
    generalize l.proposal now request = p at hproposal ⊢
    generalize l'.proposal now' request = p' at hproposal ⊢
    cases hproposal with
    | granted delay hnext => exact hnext
    | denied reason delay => exact h.bucket

theorem Shifted.settle (h : l.Shifted s l') (hnow : now.Shifted s now') :
    (l.bucket.settle l.limit l.burst now).Shifted s (l'.bucket.settle l'.limit l'.burst now') := by
  rw [← h.limit, ← h.burst]
  exact h.bucket.settle hnow l.limit l.burst

theorem Shifted.setLimit (h : l.Shifted s l') (hnow : now.Shifted s now') (limit : Limit) :
    (l.setLimit now limit).Shifted s (l'.setLimit now' limit) := by
  have hsettled := h.settle hnow
  refine ⟨rfl, h.burst, ?_⟩
  unfold Limiter.setLimit
  dsimp only
  rw [← h.limit, ← h.burst] at hsettled ⊢
  split
  · exact ⟨rfl, hsettled.last⟩
  · exact hsettled

theorem Shifted.setBurst (h : l.Shifted s l') (hnow : now.Shifted s now') (burst : UInt64) :
    (l.setBurst now burst).Shifted s (l'.setBurst now' burst) := by
  have hsettled := h.settle hnow
  refine ⟨h.limit, rfl, ?_, hsettled.last⟩
  unfold Limiter.setBurst
  dsimp only
  rw [hsettled.tokens]

theorem Shifted.tokensAt_eq (h : l.Shifted s l') (hnow : now.Shifted s now') : l.tokensAt now = l'.tokensAt now' := by
  unfold tokensAt
  rw [← h.limit, ← h.burst, h.bucket.balanceAt_eq hnow]

theorem Shifted.step (h : l.Shifted s l') (hnow : now.Shifted s now') (operation : Operation)
    (hformed : ∀ m ∈ l.formed now operation, Instant.OnClock m ↔ Instant.OnClock (m + s)) :
    (l.step now operation).1.Shifted s (l'.step now' operation).1 ∧
      (l.step now operation).2.Shifted s (l'.step now' operation).2 := by
  cases operation with
  | ask request => exact h.ask hnow request hformed
  | tokensAt =>
    refine ⟨?_, h⟩
    show Answer.Shifted s (.balance (l.tokensAt now)) (.balance (l'.tokensAt now'))
    rw [h.tokensAt_eq hnow]
    exact .balance _
  | setLimit limit => exact ⟨.done, h.setLimit hnow limit⟩
  | setBurst burst => exact ⟨.done, h.setBurst hnow burst⟩

/-! ## Runs -/

def formedBy (l : Limiter) : List (Instant × Operation) → List ℤ
  | [] => []
  | (now, operation) :: rest => l.formed now operation ++ (l.step now operation).2.formedBy rest

/-- The same operation at a shifted instant. -/
def CallShifted (s : ℤ) (call call' : Instant × Operation) : Prop := call.1.Shifted s call'.1 ∧ call.2 = call'.2

/-- A limiter goes through a run on one clock, and another of the same limits and balance through the same
run on a clock shifted by `s`. If each instant that the first forms is on both clocks or on neither, the
answers are the same but for the instants to act at, which are shifted by `s`, and so are the limiters at
the end but for their last updates. -/
theorem shifted_alike (s : ℤ) (l l' : Limiter) (h : l.Shifted s l') (run run' : List (Instant × Operation))
    (hrun : List.Forall₂ (CallShifted s) run run')
    (hformed : ∀ m ∈ l.formedBy run, Instant.OnClock m ↔ Instant.OnClock (m + s)) :
    List.Forall₂ (Answer.Shifted s) (l.answers run) (l'.answers run') ∧ (l.after run).Shifted s (l'.after run') := by
  induction hrun generalizing l l' with
  | nil => exact ⟨.nil, h⟩
  | @cons call call' rest rest' hcall _ ih =>
    obtain ⟨now, operation⟩ := call
    obtain ⟨now', operation'⟩ := call'
    obtain ⟨hnow, rfl⟩ := hcall
    obtain ⟨hanswer, hnext⟩ := h.step hnow operation fun m hm => hformed m (List.mem_append_left _ hm)
    obtain ⟨hanswers, hend⟩ := ih _ _ hnext fun m hm => hformed m (List.mem_append_right _ hm)
    exact ⟨.cons hanswer hanswers, hend⟩

/-- A debt, a clock that goes back and a rate of zero, under which the instant to act at is beyond the end of
either clock. The second clock is 3.7 seconds and a nanosecond behind the first. -/
theorem shifted_alike_of_debt :
    let rate : Rate := ⟨2, ⟨2, 0, by decide, by decide, by decide, (Rat.mul_one 2).symm⟩, by decide⟩
    let s : ℤ := -3_700_000_001
    let l : Limiter := ⟨.perSecond rate, 3, ⟨Binary64.ofNat 1, some { nanos := 1_000_000_000 }⟩⟩
    let l' : Limiter := ⟨.perSecond rate, 3, ⟨Binary64.ofNat 1, some { nanos := -2_700_000_001 }⟩⟩
    let run : List (Instant × Operation) := [
      ({ nanos := 1_250_000_000 }, .ask (.reserve 3)),
      ({ nanos := 500_000_000 }, .ask (.reserveWithin 1 { nanos := 1_000_000_000 })),
      ({ nanos := 500_000_000 }, .setLimit (.perSecond .zero)),
      ({ nanos := 3_000_000_000 }, .ask (.reserve 1)),
      ({ nanos := 3_000_000_000 }, .tokensAt)]
    let run' : List (Instant × Operation) := [
      ({ nanos := -2_450_000_001 }, .ask (.reserve 3)),
      ({ nanos := -3_200_000_001 }, .ask (.reserveWithin 1 { nanos := 1_000_000_000 })),
      ({ nanos := -3_200_000_001 }, .setLimit (.perSecond .zero)),
      ({ nanos := -700_000_001 }, .ask (.reserve 1)),
      ({ nanos := -700_000_001 }, .tokensAt)]
    l.answers run = [
        .reserved (.granted { nanos := 750_000_000 } (some { nanos := 2_000_000_000 })),
        .reserved (.denied .exhausted { nanos := 2_000_000_000 }),
        .done,
        .reserved (.denied .exhausted .forever),
        .balance 0] ∧
      l.formedBy run = [2_000_000_000, 2_500_000_000, 18_446_744_073_709_551_618_999_999_999] ∧
      l.Shifted s l' ∧ List.Forall₂ (CallShifted s) run run' ∧
      List.Forall₂ (Answer.Shifted s) (l.answers run) (l'.answers run') ∧ (l.after run).Shifted s (l'.after run') := by
  intro rate s l l' run run'
  have hformed : l.formedBy run = [2_000_000_000, 2_500_000_000, 18_446_744_073_709_551_618_999_999_999] := by
    decide +kernel
  have hl : l.Shifted s l' := ⟨rfl, rfl, rfl, .some rfl⟩
  have hrun : List.Forall₂ (CallShifted s) run run' :=
    .cons ⟨rfl, rfl⟩ (.cons ⟨rfl, rfl⟩ (.cons ⟨rfl, rfl⟩ (.cons ⟨rfl, rfl⟩ (.cons ⟨rfl, rfl⟩ .nil))))
  refine ⟨by decide +kernel, hformed, hl, hrun, shifted_alike s l l' hl run run' hrun ?_⟩
  intro m hm
  rw [hformed] at hm
  simp only [List.mem_cons, List.not_mem_nil, or_false] at hm
  rw [Instant.onClock_iff, Instant.onClock_iff]
  omega

end Limiter

end Throttle
