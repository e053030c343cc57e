import Throttle.Proofs.Bucket.Clock
import Throttle.Proofs.Bucket.Grant
import Throttle.Proofs.Limiter.Run

/-!
# The last update only moves forward

Every committed operation moves the instant of the last update to its own instant and to the instant
at which its grant may act, or leaves it where it is if it is later already, on a clock that may go
back and through every change of the limit. What it moves by is the time that the operation uses up:
the bucket's idle time and what a grant still has to wait for. Main statement: `high_water_mark`.
-/

set_option autoImplicit false

namespace Throttle

/-! ## Marks of a bucket -/

namespace Bucket

/-- The bucket was brought up to `t` or to a later instant. -/
def Reached (b : Bucket) (t : Instant) : Prop := ∃ last, b.last = some last ∧ t ≤ last

/-- How long it takes to earn what a request is short of, from the instant of the balance on. -/
def shortfallWait (b : Bucket) (limit : Limit) (burst : UInt64) (now : Instant) (n : UInt64) : Duration :=
  if limit.isUnlimited = true ∨ 0 ≤ b.remaining limit burst now n then .zero
  else limit.timeToEarn (-b.remaining limit burst now n)

variable {b next : Bucket} {limit : Limit} {burst n : UInt64} {now : Instant} {maxWait delay : Duration}

theorem Grant.last_eq (h : Grant b limit burst now n maxWait delay next) (hn : n ≠ 0) :
    ∃ last, next.last = some last ∧
      last.nanos = (b.base now).nanos + (b.shortfallWait limit burst now n).nanos := by
  unfold shortfallWait
  cases h with
  | free hzero => exact absurd hzero hn
  | unlimited _ hlimit =>
    rw [if_pos (Or.inl hlimit)]
    exact ⟨b.base now, rfl, (Int.add_zero _).symm⟩
  | immediate _ _ _ henough =>
    rw [if_pos (Or.inr henough)]
    exact ⟨b.base now, rfl, (Int.add_zero _).symm⟩
  | delayed _ hlimit _ hshort actAt hact _ =>
    rw [if_neg (by simp [hlimit, hshort])]
    exact ⟨actAt, rfl, Instant.add?_eq_some_iff.1 hact⟩

/-- A grant that takes tokens has an instant to act at, and the bucket has reached it. -/
theorem Grant.reached (h : Grant b limit burst now n maxWait delay next) (hn : n ≠ 0) :
    next.Reached now ∧ ∃ actAt, now.add? delay = some actAt ∧ next.Reached actAt := by
  have hbase := b.le_base now
  cases h with
  | free hzero => exact absurd hzero hn
  | unlimited => exact ⟨⟨_, rfl, hbase⟩, now, now.add?_zero, _, rfl, hbase⟩
  | immediate => exact ⟨⟨_, rfl, hbase⟩, now, now.add?_zero, _, rfl, hbase⟩
  | delayed _ _ _ _ actAt hact _ =>
    have hnow : now ≤ actAt := Int.le_trans hbase (Instant.le_of_add? hact)
    exact ⟨⟨_, rfl, hnow⟩, actAt, Instant.add?_since hnow, _, rfl, Int.le_refl _⟩

end Bucket

namespace Limiter
open Bucket

/-! ## Marks of an operation -/

/-- The instants that an operation commits the bucket to: its own and, for a grant that takes tokens,
the one at which it may act. -/
def marks (l : Limiter) (now : Instant) : Operation → List (Option Instant)
  | .ask request =>
    match l.paid? now request with
    | some reservation => [some now, reservation.timeToAct?]
    | none => []
  | .tokensAt => []
  | .setLimit _ => [some now]
  | .setBurst _ => [some now]

/-- The nanoseconds that an operation uses up, so that none after it is credited for them. -/
def timeUsed (l : Limiter) (now : Instant) : Operation → ℕ
  | .ask request =>
    match l.paid? now request with
    | some _ =>
      (l.bucket.idle now).nanos + (l.bucket.shortfallWait l.limit l.burst now request.count).nanos
    | none => 0
  | .tokensAt => 0
  | .setLimit _ => (l.bucket.idle now).nanos
  | .setBurst _ => (l.bucket.idle now).nanos

variable {l : Limiter}

theorem last_setLimit (l : Limiter) (now : Instant) (limit : Limit) :
    (l.setLimit now limit).bucket.last = some (l.bucket.base now) := by
  unfold setLimit
  dsimp only
  split <;> rfl

theorem last_setBurst (l : Limiter) (now : Instant) (burst : UInt64) :
    (l.setBurst now burst).bucket.last = some (l.bucket.base now) := rfl

theorem last_step {last : Instant} (h : l.bucket.last = some last) (now : Instant) (operation : Operation) :
    ∃ last', (l.step now operation).2.bucket.last = some last' ∧
      last'.nanos = last.nanos + l.timeUsed now operation := by
  have hbase := base_nanos h now
  cases operation with
  | ask request =>
    show ∃ last', (l.ask now request).2.bucket.last = some last' ∧ _
    rcases l.paid?_cases now request with ⟨hnone, hsame⟩ | ⟨delay, next, hn, hpaid, hafter, hgrant⟩
    · simp only [timeUsed, hnone, hsame]
      exact ⟨last, h, (Int.add_zero _).symm⟩
    · simp only [timeUsed, hpaid, hafter]
      obtain ⟨last', hlast, hnanos⟩ := hgrant.last_eq hn
      refine ⟨last', hlast, ?_⟩
      push_cast
      omega
  | tokensAt => exact ⟨last, h, (Int.add_zero _).symm⟩
  | setLimit limit => exact ⟨_, last_setLimit l now limit, hbase⟩
  | setBurst burst => exact ⟨_, last_setBurst l now burst, hbase⟩

theorem reached_of_mem_marks (l : Limiter) (now : Instant) (operation : Operation) {mark : Option Instant}
    (h : mark ∈ l.marks now operation) :
    ∃ t, mark = some t ∧ (l.step now operation).2.bucket.Reached t := by
  have hbase := l.bucket.le_base now
  cases operation with
  | ask request =>
    show ∃ t, mark = some t ∧ (l.ask now request).2.bucket.Reached t
    rcases l.paid?_cases now request with ⟨hnone, hsame⟩ | ⟨delay, next, hn, hpaid, hafter, hgrant⟩
    · simp [marks, hnone] at h
    · simp only [marks, hpaid] at h
      rw [hafter]
      obtain ⟨hnow, actAt, hact, hreached⟩ := hgrant.reached hn
      have hmark : mark = some now ∨ mark = some actAt := by
        simpa [Reservation.timeToAct?, hact] using h
      rcases hmark with rfl | rfl
      · exact ⟨now, rfl, hnow⟩
      · exact ⟨actAt, rfl, hreached⟩
  | tokensAt => cases h
  | setLimit limit =>
    rw [marks, List.mem_singleton] at h
    exact ⟨now, h, _, last_setLimit l now limit, hbase⟩
  | setBurst burst =>
    rw [marks, List.mem_singleton] at h
    exact ⟨now, h, _, last_setBurst l now burst, hbase⟩

/-! ## Runs -/

def marksOf (l : Limiter) : List (Instant × Operation) → List (Option Instant)
  | [] => []
  | (now, operation) :: rest => l.marks now operation ++ (l.step now operation).2.marksOf rest

def timeUsedBy (l : Limiter) : List (Instant × Operation) → ℕ
  | [] => 0
  | (now, operation) :: rest => l.timeUsed now operation + (l.step now operation).2.timeUsedBy rest

theorem last_after (operations : List (Instant × Operation)) (l : Limiter) {last : Instant}
    (h : l.bucket.last = some last) :
    ∃ last', (l.after operations).bucket.last = some last' ∧
      last'.nanos = last.nanos + l.timeUsedBy operations := by
  induction operations generalizing l last with
  | nil => exact ⟨last, h, (Int.add_zero _).symm⟩
  | cons first rest ih =>
    obtain ⟨now, operation⟩ := first
    obtain ⟨mid, hmid, hfirst⟩ := last_step h now operation
    obtain ⟨last', hlast, hrest⟩ := ih (l.step now operation).2 hmid
    refine ⟨last', hlast, ?_⟩
    unfold timeUsedBy
    push_cast
    omega

theorem reached_after (operations : List (Instant × Operation)) {t : Instant} (h : l.bucket.Reached t) :
    (l.after operations).bucket.Reached t := by
  obtain ⟨last, hlast, hle⟩ := h
  obtain ⟨last', hlast', hnanos⟩ := last_after operations l hlast
  refine ⟨last', hlast', ?_⟩
  rw [Instant.le_iff] at hle ⊢
  omega

theorem reached_of_mem_marksOf (operations : List (Instant × Operation)) (l : Limiter) {mark : Option Instant}
    (h : mark ∈ l.marksOf operations) : ∃ t, mark = some t ∧ (l.after operations).bucket.Reached t := by
  induction operations generalizing l with
  | nil => cases h
  | cons first rest ih =>
    obtain ⟨now, operation⟩ := first
    rcases List.mem_append.1 h with hfirst | hrest
    · obtain ⟨t, hmark, hreached⟩ := reached_of_mem_marks l now operation hfirst
      exact ⟨t, hmark, reached_after rest hreached⟩
    · exact ih (l.step now operation).2 hrest

/-- At every point of every run the last update is at or after the instant of every committed operation
so far and the instant at which every grant so far may act. From there on it is never unset and moves
forward by just the time that the operations use up, so no stretch of time is credited twice. -/
theorem high_water_mark (l : Limiter) (earlier later : List (Instant × Operation)) :
    (∀ mark ∈ l.marksOf earlier, ∃ t last, mark = some t ∧ (l.after earlier).bucket.last = some last ∧ t ≤ last) ∧
      ∀ last, (l.after earlier).bucket.last = some last →
        ∃ last', (l.after (earlier ++ later)).bucket.last = some last' ∧ last ≤ last' ∧
          last'.nanos = last.nanos + (l.after earlier).timeUsedBy later := by
  constructor
  · intro mark hmem
    obtain ⟨t, hmark, last, hlast, hle⟩ := reached_of_mem_marksOf earlier l hmem
    exact ⟨t, last, hmark, hlast, hle⟩
  · intro last hlast
    rw [after_append]
    obtain ⟨last', hlast', hnanos⟩ := last_after later (l.after earlier) hlast
    refine ⟨last', hlast', ?_, hnanos⟩
    rw [Instant.le_iff]
    omega

/-- A grant that waits a second, then a clock that steps back while the limit is lifted and set again,
and at last two seconds on the clock. -/
theorem high_water_mark_of_clock_back :
    let limit := Limit.ofRate (Binary64.ofNat 2)
    let l := new limit 3
    let earlier : List (Instant × Operation) := [
      ({ nanos := 0 }, .ask (.reserve 3)),
      ({ nanos := 0 }, .ask (.reserve 2)),
      ({ nanos := 500_000_000 }, .setLimit .unlimited),
      ({ nanos := -7_000_000_000 }, .ask (.allow 9)),
      ({ nanos := 200_000_000 }, .setLimit limit)]
    let later : List (Instant × Operation) := [
      ({ nanos := -5_000_000_000 }, .setBurst 2),
      ({ nanos := 2_000_000_000 }, .ask (.allow 2))]
    let second : Instant := { nanos := 1_000_000_000 }
    some second ∈ l.marksOf earlier ∧ (l.after earlier).bucket.last = some second ∧
      (l.after earlier).timeUsedBy later = 1_000_000_000 ∧
      (∃ t last, some second = some t ∧ (l.after earlier).bucket.last = some last ∧ t ≤ last) ∧
      ∃ last', (l.after (earlier ++ later)).bucket.last = some last' ∧ second ≤ last' ∧
        last'.nanos = second.nanos + (l.after earlier).timeUsedBy later := by
  intro limit l earlier later second
  have hmark : some second ∈ l.marksOf earlier := by decide +kernel
  have hlast : (l.after earlier).bucket.last = some second := by decide +kernel
  have h := high_water_mark l earlier later
  exact ⟨hmark, hlast, by decide +kernel, h.1 (some second) hmark, h.2 second hlast⟩

end Limiter

end Throttle
