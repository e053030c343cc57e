import Throttle.Proofs.Bucket.Clock
import Throttle.Proofs.Bucket.Retry
import Throttle.Proofs.Limiter.HighWater

/-!
# Like a new limiter

A limiter that leaves the unlimited limit is full, and so is one that was never used. The two differ
in the last update alone, which the first keeps: no answer tells of it until an operation is committed
before that instant. A committed operation at or after it makes the two limiters the same. Main
statement: `like_new_after_unlimited`.
-/

set_option autoImplicit false

namespace Throttle

namespace Limiter
open Bucket

/-! ## Answers of a run -/

def answers (l : Limiter) : List (Instant × Operation) → List Answer
  | [] => []
  | (now, operation) :: rest => (l.step now operation).1 :: (l.step now operation).2.answers rest

@[simp] theorem answers_cons (l : Limiter) (now : Instant) (operation : Operation)
    (rest : List (Instant × Operation)) :
    l.answers ((now, operation) :: rest) = (l.step now operation).1 :: (l.step now operation).2.answers rest := rfl

/-- The instant of the first operation of a run that is committed. -/
def firstCommit? (l : Limiter) : List (Instant × Operation) → Option Instant
  | [] => none
  | (now, operation) :: rest =>
    if l.marks now operation = [] then (l.step now operation).2.firstCommit? rest else some now

theorem step_of_no_marks {l : Limiter} {now : Instant} {operation : Operation} (h : l.marks now operation = []) :
    (l.step now operation).2 = l := by
  cases operation with
  | ask request =>
    show (l.ask now request).2 = l
    rcases l.paid?_cases now request with ⟨_, hsame⟩ | ⟨delay, next, _, hpaid, _, _⟩
    · exact hsame
    · simp [marks, hpaid] at h
  | tokensAt => rfl
  | setLimit limit => simp [marks] at h
  | setBurst burst => simp [marks] at h

/-! ## Full limiters -/

/-- At a rate, and full at every instant. -/
structure Full (l : Limiter) (rate : Rate) (burst : UInt64) : Prop where
  limit : l.limit = .perSecond rate
  balance : ∀ now, l.bucket.balanceAt (.perSecond rate) burst now = capacity burst
  burst : l.burst = burst

variable {l l' : Limiter} {rate : Rate} {burst : UInt64} {now : Instant} {operation : Operation}

theorem full_new (rate : Rate) (burst : UInt64) : (new (.perSecond rate) burst).Full rate burst :=
  ⟨rfl, fun _ => balanceAt_of_unused _ rfl, rfl⟩

theorem full_setLimit (h : l.limit = .unlimited) (now : Instant) (rate : Rate) :
    (l.setLimit now (.perSecond rate)).Full rate l.burst := by
  rw [setLimit_of_unlimited h]
  exact ⟨rfl, fun _ => balanceAt_of_full _ rfl, rfl⟩

/-- What fits the burst is granted at once, and the last update only dates what is left. -/
theorem Full.proposal_eq (h : l.Full rate burst) (now : Instant) (request : Ask) :
    l.proposal now request =
      if request.count = 0 then .granted .zero l.bucket
      else if burst < request.count then .denied .exceedsBurst .forever
      else .granted .zero ⟨capacity burst - Binary64.ofNat request.count.toNat, some (l.bucket.base now)⟩ := by
  unfold proposal
  rw [h.limit, h.burst]
  by_cases hzero : request.count = 0
  · rw [if_pos hzero]
    exact if_pos hzero
  · rw [if_neg hzero]
    by_cases hexceeds : burst < request.count
    · rw [if_pos hexceeds]
      exact propose_of_exceeds hzero rfl hexceeds l.bucket now request.maxWait
    · have hfits := UInt64.not_lt.1 hexceeds
      rw [if_neg hexceeds, propose_of_enough hzero rfl hfits (enough_of_full (h.balance now) hfits)]
      unfold remaining
      rw [h.balance now]

theorem Full.reservation_eq (h : l.Full rate burst) (h' : l'.Full rate burst) (now : Instant) (request : Ask) :
    l.reservation now request = l'.reservation now request := by
  show Reservation.ofProposal now (l.proposal now request) = .ofProposal now (l'.proposal now request)
  rw [h.proposal_eq, h'.proposal_eq]
  split
  · rfl
  · split <;> rfl

theorem Full.paid?_eq (h : l.Full rate burst) (h' : l'.Full rate burst) (now : Instant) (request : Ask) :
    l.paid? now request = l'.paid? now request := by
  unfold paid?
  rw [h.reservation_eq h']

theorem Full.marks_eq (h : l.Full rate burst) (h' : l'.Full rate burst) (now : Instant) (operation : Operation) :
    l.marks now operation = l'.marks now operation := by
  cases operation with
  | ask request => simp only [marks, h.paid?_eq h']
  | tokensAt => rfl
  | setLimit limit => rfl
  | setBurst burst => rfl

theorem Full.answer_eq (h : l.Full rate burst) (h' : l'.Full rate burst) (now : Instant) (operation : Operation) :
    (l.step now operation).1 = (l'.step now operation).1 := by
  cases operation with
  | ask request =>
    have hreservation := h.reservation_eq h' now request
    cases request with
    | allow n => exact congrArg (fun reservation => Answer.allowed reservation.isGranted) hreservation
    | reserve n => exact congrArg Answer.reserved hreservation
    | reserveWithin n maxWait => exact congrArg Answer.reserved hreservation
  | tokensAt =>
    show Answer.balance (l.tokensAt now) = Answer.balance (l'.tokensAt now)
    rw [tokensAt_of_perSecond h.limit, tokensAt_of_perSecond h'.limit, h.burst, h'.burst, h.balance, h'.balance]
  | setLimit limit => rfl
  | setBurst burst => rfl

theorem Full.settle_eq (h : l.Full rate burst) (now : Instant) :
    l.bucket.settle l.limit l.burst now = ⟨capacity burst, some (l.bucket.base now)⟩ := by
  unfold settle
  rw [h.limit, h.burst, h.balance]
  rfl

/-- A committed operation leaves nothing of the last update but the instant it counts from. -/
theorem Full.step_eq (h : l.Full rate burst) (h' : l'.Full rate burst) (hcommit : l.marks now operation ≠ [])
    (hbase : l.bucket.base now = l'.bucket.base now) :
    (l.step now operation).2 = (l'.step now operation).2 := by
  have hlimits : l.limit = l'.limit := h.limit.trans h'.limit.symm
  have hbursts : l.burst = l'.burst := h.burst.trans h'.burst.symm
  have hsettled : l.bucket.settle l.limit l.burst now = l'.bucket.settle l'.limit l'.burst now := by
    rw [h.settle_eq, h'.settle_eq, hbase]
  cases operation with
  | ask request =>
    show (l.ask now request).2 = (l'.ask now request).2
    have hpaid : request.count ≠ 0 ∧ (l.reservation now request).isGranted = true := by
      by_contra hnot
      exact hcommit (by simp [marks, paid?, hnot])
    have hfits : ¬ burst < request.count := by
      intro hexceeds
      have hdenied := h.proposal_eq now request
      rw [if_neg hpaid.1, if_pos hexceeds] at hdenied
      have hgranted : (Reservation.ofProposal now (l.proposal now request)).isGranted = true := hpaid.2
      rw [hdenied] at hgranted
      cases hgranted
    rw [limiter_ask, limiter_ask, h.proposal_eq, h'.proposal_eq]
    simp only [if_neg hpaid.1, if_neg hfits]
    rw [hbase, hlimits, hbursts]
    rfl
  | tokensAt => exact absurd rfl hcommit
  | setLimit limit =>
    show l.setLimit now limit = l'.setLimit now limit
    unfold setLimit
    rw [hsettled, hlimits, hbursts]
  | setBurst other =>
    show l.setBurst now other = l'.setBurst now other
    unfold setBurst
    rw [hsettled, hlimits]

/-! ## Runs of two full limiters -/

/-- Up to the first committed operation, and its own answer included, nothing tells the two apart. -/
theorem Full.answers_until_commit (h : l.Full rate burst) (h' : l'.Full rate burst)
    (earlier : List (Instant × Operation)) (hquiet : l'.firstCommit? earlier = none) (next : Instant × Operation) :
    l.answers (earlier ++ [next]) = l'.answers (earlier ++ [next]) := by
  induction earlier with
  | nil => exact congrArg (· :: []) (h.answer_eq h' next.1 next.2)
  | cons first rest ih =>
    obtain ⟨now, operation⟩ := first
    unfold firstCommit? at hquiet
    split at hquiet
    · next hnone =>
      rw [step_of_no_marks hnone] at hquiet
      have hnone' : l.marks now operation = [] := (h.marks_eq h' now operation).trans hnone
      rw [List.cons_append, answers_cons, answers_cons, step_of_no_marks hnone, step_of_no_marks hnone',
        h.answer_eq h', ih hquiet]
    · cases hquiet

/-- The first committed operation makes the two the same if both count from the same instant then. -/
theorem Full.answers_eq (h : l.Full rate burst) (h' : l'.Full rate burst) (later : List (Instant × Operation))
    (hbase : ∀ t, l'.firstCommit? later = some t → l.bucket.base t = l'.bucket.base t) :
    l.answers later = l'.answers later := by
  induction later with
  | nil => rfl
  | cons first rest ih =>
    obtain ⟨now, operation⟩ := first
    have hmarks := h.marks_eq h' now operation
    rw [answers_cons, answers_cons, h.answer_eq h']
    unfold firstCommit? at hbase
    by_cases hnone : l'.marks now operation = []
    · rw [if_pos hnone, step_of_no_marks hnone] at hbase
      rw [step_of_no_marks hnone, step_of_no_marks (hmarks.trans hnone), ih hbase]
    · rw [if_neg hnone] at hbase
      rw [h.step_eq h' (hmarks ▸ hnone) (hbase now rfl)]

/-! ## Leaving the unlimited limit -/

/-- A limiter without a limit, whatever was reserved and at whatever instants, is given a rate. Every
answer up to that of the first committed operation is that of a new limiter of the same burst. All
later answers are, too, if that operation comes neither before the rate was set nor before the last
update of the bucket. -/
theorem like_new_after_unlimited (l : Limiter) (hunlimited : l.limit = .unlimited) (rate : Rate) (now : Instant) :
    let renewed := l.setLimit now (.perSecond rate)
    let fresh := new (.perSecond rate) l.burst
    (∀ earlier next, fresh.firstCommit? earlier = none →
        renewed.answers (earlier ++ [next]) = fresh.answers (earlier ++ [next])) ∧
      ∀ later, (∀ t, fresh.firstCommit? later = some t → now ≤ t ∧ ∀ last, l.bucket.last = some last → last ≤ t) →
        renewed.answers later = fresh.answers later := by
  intro renewed fresh
  have hrenewed : renewed.Full rate l.burst := full_setLimit hunlimited now rate
  have hfresh : fresh.Full rate l.burst := full_new rate l.burst
  refine ⟨fun earlier next hquiet => hrenewed.answers_until_commit hfresh earlier hquiet next, fun later hlate => ?_⟩
  apply hrenewed.answers_eq hfresh later
  intro t hcommit
  obtain ⟨hnow, hlast⟩ := hlate t hcommit
  have hstart : l.bucket.base now ≤ t := base_le hnow hlast
  have hlast' : renewed.bucket.last = some (l.bucket.base now) := last_setLimit l now (.perSecond rate)
  show renewed.bucket.base t = t
  unfold base
  rw [hlast']
  exact Instant.max_eq_right hstart

/-- A debt of a second and a half and a clock that went back. The first three answers are those of a new
limiter at any instant, and all are when tokens are taken only after the debt would have been paid. -/
theorem like_new_after_unlimited_of_debt :
    let rate : Rate := ⟨2, ⟨2, 0, by decide, by decide, by decide, (Rat.mul_one 2).symm⟩, by decide⟩
    let l := (new (.perSecond rate) 3).after [
      ({ nanos := 0 }, .ask (.reserve 3)),
      ({ nanos := 0 }, .ask (.reserve 3)),
      ({ nanos := 500_000_000 }, .setLimit .unlimited),
      ({ nanos := -7_000_000_000 }, .ask (.allow 9))]
    let now : Instant := { nanos := 200_000_000 }
    let due : Instant := { nanos := 1_500_000_000 }
    let earlier : List (Instant × Operation) := [(now, .ask (.allow 4)), (now, .tokensAt)]
    let next : Instant × Operation := (now, .ask (.reserve 2))
    let later : List (Instant × Operation) := earlier ++ [
      (due, .ask (.reserve 2)),
      (due, .ask (.reserve 2)),
      (now, .setBurst 5),
      ({ nanos := 2_500_000_000 }, .tokensAt)]
    let renewed := l.setLimit now (.perSecond rate)
    let fresh := new (.perSecond rate) l.burst
    l.limit = .unlimited ∧ l.bucket.last = some due ∧ fresh.firstCommit? earlier = none ∧
      fresh.firstCommit? later = some due ∧ renewed.answers (earlier ++ [next]) = fresh.answers (earlier ++ [next]) ∧
      renewed.answers later = fresh.answers later := by
  intro rate l now due earlier next later renewed fresh
  have hunlimited : l.limit = .unlimited := by decide +kernel
  have hlast : l.bucket.last = some due := by decide +kernel
  have hquiet : fresh.firstCommit? earlier = none := by decide +kernel
  have hcommit : fresh.firstCommit? later = some due := by decide +kernel
  obtain ⟨huntil, hall⟩ := like_new_after_unlimited l hunlimited rate now
  refine ⟨hunlimited, hlast, hquiet, hcommit, huntil earlier next hquiet, hall later ?_⟩
  intro t ht
  obtain rfl := Option.some.inj (hcommit.symm.trans ht)
  refine ⟨by decide, fun last hlast' => ?_⟩
  obtain rfl := Option.some.inj (hlast.symm.trans hlast')
  exact Int.le_refl _

/-- A debt of a second, or a clock that was five seconds ahead, still holds back the tokens that come
after the first. -/
theorem last_update_outlives_unlimited :
    let rate : Rate := ⟨1, ⟨1, 0, by decide, by decide, by decide, by decide +kernel⟩, by decide⟩
    let now : Instant := { nanos := 0 }
    let second : Instant := { nanos := 1_000_000_000 }
    let indebted := (new (.perSecond rate) 1).after [
      (now, .ask (.reserve 1)), (now, .ask (.reserve 1)), (now, .setLimit .unlimited)]
    let ahead := (new .unlimited 1).after [({ nanos := 5_000_000_000 }, .ask (.allow 1))]
    let fresh := new (.perSecond rate) 1
    let queue : List (Instant × Operation) := [(now, .ask (.reserve 1)), (now, .ask (.reserve 1))]
    let pair : List (Instant × Operation) := [(now, .ask (.allow 1)), (second, .ask (.allow 1))]
    (indebted.limit = .unlimited ∧ indebted.burst = 1 ∧ ahead.limit = .unlimited ∧ ahead.burst = 1) ∧
      (∀ call ∈ queue ++ pair, now ≤ call.1) ∧
      (indebted.setLimit now (.perSecond rate)).answers queue =
        [.reserved (.granted .zero (some now)),
          .reserved (.granted { nanos := 2_000_000_000 } (some { nanos := 2_000_000_000 }))] ∧
      fresh.answers queue =
        [.reserved (.granted .zero (some now)), .reserved (.granted { nanos := 1_000_000_000 } (some second))] ∧
      (ahead.setLimit now (.perSecond rate)).answers pair = [.allowed true, .allowed false] ∧
      fresh.answers pair = [.allowed true, .allowed true] := by
  decide +kernel

end Limiter

end Throttle
