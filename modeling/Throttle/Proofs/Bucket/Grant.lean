import Throttle.Proofs.Bucket.Balance

/-!
# The ways of granting

A granted request left the bucket in one of four ways, which `Grant` lists with what each requires.
Main statement: `Grant.inRange`, under a rate no grant leaves a balance outside the capacity.
-/

set_option autoImplicit false

namespace Throttle.Bucket
open Binary64

/-- What a request for `n` tokens would leave at `now`; below zero if they are not there. -/
def remaining (b : Bucket) (limit : Limit) (burst : UInt64) (now : Instant) (n : UInt64) : Binary64 :=
  b.balanceAt limit burst now - ofNat n.toNat

/-- A grant of `n` tokens at `now`, with its delay and the bucket to go on with. -/
inductive Grant (b : Bucket) (limit : Limit) (burst : UInt64) (now : Instant) (n : UInt64)
    (maxWait : Duration) : Duration → Bucket → Prop where
  | free (hn : n = 0) : Grant b limit burst now n maxWait .zero b
  | unlimited (hn : n ≠ 0) (hlimit : limit.isUnlimited = true) :
    Grant b limit burst now n maxWait .zero { b with last := some (b.base now) }
  | immediate (hn : n ≠ 0) (hlimit : limit.isUnlimited = false) (hburst : n ≤ burst)
    (henough : 0 ≤ b.remaining limit burst now n) :
    Grant b limit burst now n maxWait .zero ⟨b.remaining limit burst now n, some (b.base now)⟩
  /-- What is short is earned from `base` on, in time for the caller. -/
  | delayed (hn : n ≠ 0) (hlimit : limit.isUnlimited = false) (hburst : n ≤ burst)
    (hshort : ¬ 0 ≤ b.remaining limit burst now n) (actAt : Instant)
    (hact : (b.base now).add? (limit.timeToEarn (-b.remaining limit burst now n)) = some actAt)
    (hwait : ¬ maxWait < actAt.since now) :
    Grant b limit burst now n maxWait (actAt.since now) ⟨0, some actAt⟩

theorem grant_of_propose {b next : Bucket} {limit : Limit} {burst n : UInt64} {now : Instant}
    {maxWait delay : Duration} (h : b.propose limit burst now n maxWait = .granted delay next) :
    Grant b limit burst now n maxWait delay next := by
  unfold propose at h
  split at h
  · next hn =>
    cases h
    exact .free hn
  next hn =>
  split at h
  · next hlimit =>
    cases h
    exact .unlimited hn hlimit
  next hlimit =>
  rw [Bool.not_eq_true] at hlimit
  split at h
  · cases h
  next hburst =>
  rw [UInt64.not_lt] at hburst
  dsimp only at h
  split at h
  · next henough =>
    cases h
    exact .immediate hn hlimit hburst henough
  next hshort =>
  split at h
  · cases h
  next actAt hact =>
  split at h
  · cases h
  next hwait =>
  cases h
  exact .delayed hn hlimit hburst hshort actAt hact hwait

theorem Grant.eq_of_zero {b next : Bucket} {limit : Limit} {burst n : UInt64} {now : Instant}
    {maxWait delay : Duration} (h : Grant b limit burst now n maxWait delay next) (hn : n = 0) : next = b := by
  cases h with
  | free => rfl
  | unlimited hne => exact absurd hn hne
  | immediate hne => exact absurd hn hne
  | delayed hne => exact absurd hn hne

theorem propose_of_exceeds {limit : Limit} {burst n : UInt64} (hn : n ≠ 0) (hlimit : limit.isUnlimited = false)
    (hburst : burst < n) (b : Bucket) (now : Instant) (maxWait : Duration) :
    b.propose limit burst now n maxWait = .denied .exceedsBurst .forever := by
  unfold propose
  rw [if_neg hn, if_neg (by simp [hlimit]), if_pos hburst]

theorem propose_of_enough {b : Bucket} {limit : Limit} {burst n : UInt64} {now : Instant} (hn : n ≠ 0)
    (hlimit : limit.isUnlimited = false) (hburst : n ≤ burst) (henough : 0 ≤ b.remaining limit burst now n)
    (maxWait : Duration) :
    b.propose limit burst now n maxWait = .granted .zero ⟨b.remaining limit burst now n, some (b.base now)⟩ := by
  unfold propose
  rw [if_neg hn, if_neg (by simp [hlimit]), if_neg (UInt64.not_lt.2 hburst)]
  exact if_pos henough

theorem propose_of_short {b : Bucket} {limit : Limit} {burst n : UInt64} {now actAt : Instant} {maxWait : Duration}
    (hn : n ≠ 0) (hlimit : limit.isUnlimited = false) (hburst : n ≤ burst)
    (hshort : ¬ 0 ≤ b.remaining limit burst now n)
    (hact : (b.base now).add? (limit.timeToEarn (-b.remaining limit burst now n)) = some actAt)
    (hwait : ¬ maxWait < actAt.since now) :
    b.propose limit burst now n maxWait = .granted (actAt.since now) ⟨0, some actAt⟩ := by
  unfold propose
  rw [if_neg hn, if_neg (by simp [hlimit]), if_neg (UInt64.not_lt.2 hburst)]
  unfold remaining at hshort hact
  dsimp only
  rw [if_neg hshort, hact]
  exact if_neg hwait

/-! ## Balances after a grant -/

theorem denotes_remaining {b : Bucket} {limit : Limit} {burst n : UInt64} {now : Instant} {q : ℚ}
    (h : (b.balanceAt limit burst now).Denotes q) (h0 : 0 ≤ q) (hq : q ≤ fullBalance burst)
    (hn : n ≤ burst) :
    (b.remaining limit burst now n).Denotes (nearest (q - fullBalance n)) := by
  apply h.sub (denotes_word n)
  have hcap := (le_abs_self _).trans_lt (denotes_capacity burst).abs_lt
  have hle := fullBalance_mono hn
  have hlow : -fullBalance burst ≤ nearest (q - fullBalance n) :=
    le_nearest_of_le (denotes_capacity burst).neg.expressible (by linarith)
  have hhigh : nearest (q - fullBalance n) ≤ fullBalance burst :=
    nearest_le_of_le (denotes_capacity burst).expressible (by linarith [fullBalance_nonneg n])
  exact (abs_le.2 ⟨hlow, hhigh⟩).trans_lt hcap

theorem remaining_bounds {b : Bucket} {limit : Limit} {burst n : UInt64} {now : Instant} {q : ℚ}
    (h : (b.balanceAt limit burst now).Denotes q) (h0 : 0 ≤ q) (hq : q ≤ fullBalance burst)
    (hn : n ≤ burst) (henough : 0 ≤ b.remaining limit burst now n) :
    0 ≤ nearest (q - fullBalance n) ∧ nearest (q - fullBalance n) ≤ fullBalance burst := by
  have hcount := fullBalance_nonneg n
  refine ⟨(denotes_ofNat_zero.le_iff (denotes_remaining h h0 hq hn)).1 henough, ?_⟩
  exact nearest_le_of_le (denotes_capacity burst).expressible (by linarith)

/-- There is enough where the balance is not below the count, each as a double. -/
theorem enough_iff {b : Bucket} {limit : Limit} {burst n : UInt64} {now : Instant} {q : ℚ}
    (h : (b.balanceAt limit burst now).Denotes q) (h0 : 0 ≤ q) (hq : q ≤ fullBalance burst) (hn : n ≤ burst) :
    0 ≤ b.remaining limit burst now n ↔ fullBalance n ≤ q := by
  rw [denotes_ofNat_zero.le_iff (denotes_remaining h h0 hq hn)]
  exact nearest_sub_nonneg_iff h.expressible (denotes_capacity n).expressible

variable {b next : Bucket} {burst n : UInt64} {now : Instant} {maxWait delay : Duration}

/-- Whatever bucket a rate starts from, a grant that takes tokens leaves a balance in range. -/
theorem Grant.inRange {rate : Rate} (h : Grant b (.perSecond rate) burst now n maxWait delay next)
    (hn : n ≠ 0) : InRange burst next.tokens := by
  cases h with
  | free hzero => exact absurd hzero hn
  | unlimited _ hlimit => cases hlimit
  | immediate _ _ hburst henough =>
    obtain ⟨q, hq, h0, hfull⟩ := b.inRange_balanceAt rate burst now
    have hrem := denotes_remaining hq h0 hfull hburst
    exact ⟨_, hrem, remaining_bounds hq h0 hfull hburst henough⟩
  | delayed => exact inRange_zero burst

theorem Grant.inRange_of_inRange {limit : Limit} (h : Grant b limit burst now n maxWait delay next)
    (hb : InRange burst b.tokens) : InRange burst next.tokens := by
  by_cases hn : n = 0
  · rw [h.eq_of_zero hn]
    exact hb
  · cases limit with
    | unlimited =>
      cases h with
      | free => exact hb
      | unlimited => exact hb
      | immediate _ hlimit => cases hlimit
      | delayed _ hlimit => cases hlimit
    | perSecond rate => exact h.inRange hn

theorem inRange_bucketAfter {limit : Limit} (hb : InRange burst b.tokens) :
    InRange burst ((b.propose limit burst now n maxWait).bucketAfter b).tokens := by
  cases h : b.propose limit burst now n maxWait with
  | granted delay next => exact (grant_of_propose h).inRange_of_inRange hb
  | denied reason delay => exact hb

end Throttle.Bucket
