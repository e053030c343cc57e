import Throttle.Proofs.Bucket.Payment
import Throttle.Proofs.Limit.Order

/-!
# When a grant may act

A grant acts at its own instant or, if it waits, at the instant at which the bucket then stands. While
that wait lasts the bucket is empty and no request finds it full again, for a bucket that earned its
whole capacity in no time would not have made anyone wait. So the next grant waits at least as long.
Main statement: `Grant.acts_in_turn`.
-/

set_option autoImplicit false

namespace Throttle.Bucket
open Binary64

/-! ## Buckets that owe -/

/-- The bucket is empty until `actAt`, and a whole capacity is not earned in no time. -/
structure Owes (b : Bucket) (limit : Limit) (burst : UInt64) (actAt : Instant) : Prop where
  bucket_eq : b = ⟨0, some actAt⟩
  takes_time : limit.timeToEarn (capacity burst - 0) ≠ .zero

variable {b next : Bucket} {limit : Limit} {rate : Rate} {burst n : UInt64} {now actAt : Instant}
  {maxWait delay : Duration} {T : ℚ}

theorem denotes_capacity_sub_zero (burst : UInt64) : (capacity burst - 0).Denotes (fullBalance burst) := by
  have hcap := denotes_capacity burst
  have hexact : nearest (fullBalance burst - 0) = fullBalance burst := by
    rw [sub_zero]
    exact nearest_of_expressible hcap.expressible
  have h := hcap.sub denotes_ofNat_zero (by rw [hexact]; exact hcap.abs_lt)
  rwa [hexact] at h

/-- A bucket that was found short takes time to fill: the least that was missing took time. -/
theorem timeToEarn_ne_zero_of_short (hT : (b.balanceAt (.perSecond rate) burst now).Denotes T)
    (hlt : T < fullBalance burst) : (Limit.perSecond rate).timeToEarn (capacity burst - 0) ≠ .zero := by
  have hcap := denotes_capacity burst
  have hnotfull : b.balanceAt (.perSecond rate) burst now ≠ capacity burst := by
    intro heq
    rw [heq] at hT
    exact absurd (hT.unique hcap) hlt.ne
  rcases b.held_eq_nan_or_inRange burst with hnan | ⟨q, hq, h0, hfull⟩
  · exact absurd (balanceAt_of_held_nan rate now hnan) hnotfull
  · have hmissing := denotes_missing hq h0 hfull
    have hle : capacity burst - b.held burst ≤ capacity burst - 0 := by
      rw [hmissing.le_iff (denotes_capacity_sub_zero burst)]
      exact nearest_le_of_le hcap.expressible (by linarith)
    have hmono := timeToEarn_mono (.perSecond rate) hle
    intro hzero
    apply hnotfull
    apply balanceAt_of_due
    rw [hzero] at hmono
    exact Nat.le_trans hmono (Nat.zero_le _)

/-- A request to a bucket that owes is short of all that it asks for. -/
theorem Owes.denotes_remaining (h : b.Owes (.perSecond rate) burst actAt) (hburst : n ≤ burst) (hnow : now ≤ actAt) :
    (b.remaining (.perSecond rate) burst now n).Denotes (-fullBalance n) := by
  obtain ⟨rfl, htime⟩ := h
  have hidle : (⟨0, some actAt⟩ : Bucket).idle now = .zero := Instant.since_of_le hnow
  have hfull := fullBalance_nonneg burst
  have hempty : ((⟨0, some actAt⟩ : Bucket).balanceAt (.perSecond rate) burst now).Denotes 0 := by
    apply (balanceAt_of_idle_zero hidle denotes_ofNat_zero (le_refl _) hfull).elim
    · intro hdue
      exact absurd hdue.1 htime
    · intro hheld
      exact hheld.2
  have hrem := Bucket.denotes_remaining hempty (le_refl _) hfull hburst
  have hexact : nearest (0 - fullBalance n) = -fullBalance n := by
    rw [zero_sub]
    exact nearest_of_expressible (denotes_capacity n).neg.expressible
  rwa [hexact] at hrem

/-- Nothing can be had at once from a bucket that owes. -/
theorem Owes.short (h : b.Owes (.perSecond rate) burst actAt) (hn : n ≠ 0) (hburst : n ≤ burst)
    (hnow : now ≤ actAt) : ¬ 0 ≤ b.remaining (.perSecond rate) burst now n := by
  have hcount := one_le_fullBalance hn
  rw [denotes_ofNat_zero.le_iff (h.denotes_remaining hburst hnow), not_le]
  linarith

/-! ## Turns -/

/-- No grant from `now` on can act before `t`: `t` has passed, or the bucket owes until then. -/
def Bars (b : Bucket) (limit : Limit) (burst : UInt64) (now t : Instant) : Prop :=
  t ≤ now ∨ b.Owes limit burst t

theorem Bars.later {later t : Instant} (h : b.Bars limit burst now t) (hlater : now ≤ later) :
    b.Bars limit burst later t := by
  rcases h with hpast | howes
  · exact .inl (Int.le_trans hpast hlater)
  · exact .inr howes

/-- A grant that takes tokens has an instant to act at. It is no earlier than any that was barred
before, and it is barred to the grants that follow. -/
theorem Grant.acts_in_turn (h : Grant b limit burst now n maxWait delay next) (hn : n ≠ 0) :
    ∃ actAt, now.add? delay = some actAt ∧ next.Bars limit burst now actAt ∧
      ∀ t, b.Bars limit burst now t → t ≤ actAt := by
  cases h with
  | free hzero => exact absurd hzero hn
  | unlimited _ hlimit =>
    refine ⟨now, now.add?_zero, .inl (Int.le_refl _), ?_⟩
    rintro t (hpast | ⟨_, htime⟩)
    · exact hpast
    · -- without a limit nothing takes time
      cases limit with
      | perSecond rate => cases hlimit
      | unlimited => exact absurd (ite_self _) htime
  | immediate _ hlimit hburst henough =>
    refine ⟨now, now.add?_zero, .inl (Int.le_refl _), ?_⟩
    rintro t (hpast | howes)
    · exact hpast
    · cases limit with
      | unlimited => cases hlimit
      | perSecond rate =>
        by_contra hlater
        rw [Instant.le_iff, not_le] at hlater
        exact howes.short hn hburst (Int.le_of_lt hlater) henough
  | delayed _ hlimit hburst hshort actAt hact hwait =>
    have hbase := b.le_base now
    have hlate := Instant.le_of_add? hact
    rw [Instant.le_iff] at hbase hlate
    have hnow : now ≤ actAt := Int.le_trans hbase hlate
    cases limit with
    | unlimited => cases hlimit
    | perSecond rate =>
      obtain ⟨T, hT, h0, hfull⟩ := b.inRange_balanceAt rate burst now
      have hrem := denotes_remaining hT h0 hfull hburst
      rw [denotes_ofNat_zero.le_iff hrem, not_le] at hshort
      have htime := timeToEarn_ne_zero_of_short hT (lt_fullBalance_of_short hburst hshort)
      refine ⟨actAt, Instant.add?_since hnow, .inr ⟨rfl, htime⟩, ?_⟩
      rintro t (hpast | ⟨rfl, _⟩)
      · exact Int.le_trans hpast hnow
      · exact Int.le_trans (Instant.le_max_left t now) hlate

end Throttle.Bucket
