import Throttle.Proofs.Bucket.Clock
import Throttle.Proofs.Bucket.Grant

/-!
# The ways of refusing

A refused request found one of three things, which `Refusal` lists: a burst that is too small, an
instant beyond the end of the clock, or a wait longer than the caller's. Between a grant and a refusal
that is not for the burst one number decides, the wait that the request needs. Main statements:
`propose_cases` and, for the wait, `Grant.delay_eq` and `Refusal.delay_eq`.
-/

set_option autoImplicit false

namespace Throttle.Bucket

/-- The wait that a request needs: none for what can be had at once, and for what is short the time
until it is earned, forever if the clock ends before. -/
def waitFor (b : Bucket) (limit : Limit) (burst : UInt64) (now : Instant) (n : UInt64) : Duration :=
  if n = 0 ∨ limit.isUnlimited = true ∨ 0 ≤ b.remaining limit burst now n then .zero
  else match (b.base now).add? (limit.timeToEarn (-b.remaining limit burst now n)) with
    | some actAt => actAt.since now
    | none => .forever

/-- A refusal of `n` tokens at `now`, with its reason and the wait that it tells. -/
inductive Refusal (b : Bucket) (limit : Limit) (burst : UInt64) (now : Instant) (n : UInt64)
    (maxWait : Duration) : Denial → Duration → Prop where
  | exceedsBurst (hn : n ≠ 0) (hlimit : limit.isUnlimited = false) (hburst : burst < n) :
    Refusal b limit burst now n maxWait .exceedsBurst .forever
  | never (hn : n ≠ 0) (hlimit : limit.isUnlimited = false) (hburst : n ≤ burst)
    (hshort : ¬ 0 ≤ b.remaining limit burst now n)
    (hact : (b.base now).add? (limit.timeToEarn (-b.remaining limit burst now n)) = none) :
    Refusal b limit burst now n maxWait .exhausted .forever
  | late (hn : n ≠ 0) (hlimit : limit.isUnlimited = false) (hburst : n ≤ burst)
    (hshort : ¬ 0 ≤ b.remaining limit burst now n) (actAt : Instant)
    (hact : (b.base now).add? (limit.timeToEarn (-b.remaining limit burst now n)) = some actAt)
    (hwait : maxWait < actAt.since now) :
    Refusal b limit burst now n maxWait .exhausted (actAt.since now)

variable {b next : Bucket} {limit : Limit} {burst n : UInt64} {now : Instant} {maxWait delay : Duration}
  {reason : Denial}

theorem refusal_of_propose (h : b.propose limit burst now n maxWait = .denied reason delay) :
    Refusal b limit burst now n maxWait reason delay := by
  unfold propose at h
  split at h
  · cases h
  next hn =>
  split at h
  · cases h
  next hlimit =>
  rw [Bool.not_eq_true] at hlimit
  split at h
  · next hburst =>
    cases h
    exact .exceedsBurst hn hlimit hburst
  next hburst =>
  rw [UInt64.not_lt] at hburst
  dsimp only at h
  split at h
  · cases h
  next hshort =>
  split at h
  · next hact =>
    cases h
    exact .never hn hlimit hburst hshort hact
  next actAt hact =>
  split at h
  · next hwait =>
    cases h
    exact .late hn hlimit hburst hshort actAt hact hwait
  · cases h

theorem propose_cases (b : Bucket) (limit : Limit) (burst : UInt64) (now : Instant) (n : UInt64)
    (maxWait : Duration) :
    (∃ delay next, b.propose limit burst now n maxWait = .granted delay next ∧
        Grant b limit burst now n maxWait delay next) ∨
      ∃ reason delay, b.propose limit burst now n maxWait = .denied reason delay ∧
        Refusal b limit burst now n maxWait reason delay := by
  cases h : b.propose limit burst now n maxWait with
  | granted delay next => exact .inl ⟨delay, next, rfl, grant_of_propose h⟩
  | denied reason delay => exact .inr ⟨reason, delay, rfl, refusal_of_propose h⟩

/-! ## The wait of a grant -/

theorem Grant.delay_eq (h : Grant b limit burst now n maxWait delay next) :
    delay = b.waitFor limit burst now n := by
  unfold waitFor
  cases h with
  | free hn => rw [if_pos (.inl hn)]
  | unlimited _ hlimit => rw [if_pos (.inr (.inl hlimit))]
  | immediate _ _ _ henough => rw [if_pos (.inr (.inr henough))]
  | delayed hn hlimit _ hshort actAt hact _ => rw [if_neg (by simp [hn, hlimit, hshort]), hact]

theorem Grant.delay_le (h : Grant b limit burst now n maxWait delay next) : delay ≤ maxWait := by
  cases h with
  | free => exact Nat.zero_le _
  | unlimited => exact Nat.zero_le _
  | immediate => exact Nat.zero_le _
  | delayed _ _ _ _ actAt _ hwait => exact Nat.le_of_not_lt hwait

/-- Every grant has an instant to act at, its own or a later one. -/
theorem Grant.acts (h : Grant b limit burst now n maxWait delay next) : ∃ actAt, now.add? delay = some actAt := by
  cases h with
  | free => exact ⟨now, now.add?_zero⟩
  | unlimited => exact ⟨now, now.add?_zero⟩
  | immediate => exact ⟨now, now.add?_zero⟩
  | delayed _ _ _ _ actAt hact _ =>
    have hbase := b.le_base now
    have hlate := Instant.le_of_add? hact
    exact ⟨actAt, Instant.add?_since (Int.le_trans hbase hlate)⟩

/-! ## The wait of a refusal -/

theorem Refusal.delay_eq (h : Refusal b limit burst now n maxWait .exhausted delay) :
    delay = b.waitFor limit burst now n := by
  unfold waitFor
  cases h with
  | never hn hlimit _ hshort hact => rw [if_neg (by simp [hn, hlimit, hshort]), hact]
  | late hn hlimit _ hshort actAt hact _ => rw [if_neg (by simp [hn, hlimit, hshort]), hact]

theorem Refusal.maxWait_lt (h : Refusal b limit burst now n maxWait .exhausted delay)
    (hbound : maxWait < .forever) : maxWait < delay := by
  cases h with
  | never => exact hbound
  | late _ _ _ _ actAt _ hwait => exact hwait

end Throttle.Bucket
