import Throttle.Proofs.Bucket.Refusal
import Throttle.Proofs.Bucket.Retry
import Throttle.Proofs.Limit.Order

/-!
# Later and for less

The balance never falls while nothing is taken, on either side of the last update and through the
instant at which the bucket is full. So a request that comes later, or asks for fewer tokens, falls
short of no more, and what it needs beyond its own instant is no longer. Main statements:
`balanceAt_mono` and `dueAt?_mono`.
-/

set_option autoImplicit false

namespace Throttle.Bucket
open Binary64

variable {b : Bucket} {limit : Limit} {rate : Rate} {burst m n : UInt64} {now later due : Instant} {maxWait : Duration}

/-! ## The balance -/

theorem idle_mono (b : Bucket) (h : now ≤ later) : b.idle now ≤ b.idle later := by
  unfold idle
  split
  · exact Nat.le_refl _
  · rw [Instant.le_iff] at h
    rw [Duration.le_iff, Instant.nanos_since, Instant.nanos_since]
    omega

/-- By how much a bucket counts from after the instant of a request shrinks as the request is later. -/
theorem base_sub_le (b : Bucket) (h : now ≤ later) :
    (b.base later).nanos - later.nanos ≤ (b.base now).nanos - now.nanos := by
  rw [Instant.le_iff] at h
  cases hlast : b.last with
  | none => simp [base, hlast]
  | some last =>
    have hnow := base_nanos hlast now
    have hlater := base_nanos hlast later
    simp only [idle, hlast, Instant.nanos_since] at hnow hlater
    omega

theorem balanceAt_mono (b : Bucket) (rate : Rate) (burst : UInt64) (h : now ≤ later) :
    b.balanceAt (.perSecond rate) burst now ≤ b.balanceAt (.perSecond rate) burst later := by
  have hcap := denotes_capacity burst
  have hidle := b.idle_mono h
  rcases b.held_eq_nan_or_inRange burst with hnan | ⟨q, hq, h0, hfull⟩
  · rw [balanceAt_of_held_nan rate now hnan, balanceAt_of_held_nan rate later hnan, hcap.le_iff hcap]
  · rcases balanceAt_full_or rate now hq h0 with ⟨hdue, hnow⟩ | hnow
    · -- a bucket that is full stays full
      rw [hnow, balanceAt_of_due (Nat.le_trans hdue hidle), hcap.le_iff hcap]
    · rcases balanceAt_full_or rate later hq h0 with ⟨_, hlater⟩ | hlater
      · rw [hlater, hnow.le_iff hcap]
        exact min_le_right _ _
      · have hearned := rounded_earned_mono rate hidle
        rw [hnow.le_iff hlater]
        exact min_le_min_right _ (nearest_mono (by linarith))

/-! ## The shortage -/

/-- A request that comes later, or for fewer tokens, leaves no less. -/
theorem remaining_mono (b : Bucket) (rate : Rate) (hnow : now ≤ later) (hcount : m ≤ n) (hburst : n ≤ burst) :
    ∃ p q, (b.remaining (.perSecond rate) burst now n).Denotes p ∧
      (b.remaining (.perSecond rate) burst later m).Denotes q ∧ p ≤ q := by
  obtain ⟨T, hT, hT0, hTfull⟩ := b.inRange_balanceAt rate burst now
  obtain ⟨S, hS, hS0, hSfull⟩ := b.inRange_balanceAt rate burst later
  have hbalance := (hT.le_iff hS).1 (b.balanceAt_mono rate burst hnow)
  have hfewer := fullBalance_mono hcount
  refine ⟨_, _, denotes_remaining hT hT0 hTfull hburst,
    denotes_remaining hS hS0 hSfull (UInt64.le_trans hcount hburst), nearest_mono ?_⟩
  linarith

/-- What is there for a request is there for a later one that asks for no more. -/
theorem enough_mono (hnow : now ≤ later) (hcount : m ≤ n) (hburst : n ≤ burst)
    (h : 0 ≤ b.remaining (.perSecond rate) burst now n) : 0 ≤ b.remaining (.perSecond rate) burst later m := by
  obtain ⟨p, q, hp, hq, hle⟩ := b.remaining_mono rate hnow hcount hburst
  rw [denotes_ofNat_zero.le_iff hp] at h
  rw [denotes_ofNat_zero.le_iff hq]
  exact h.trans hle

theorem timeToEarn_shortage_mono (b : Bucket) (rate : Rate) (hnow : now ≤ later) (hcount : m ≤ n) (hburst : n ≤ burst) :
    (Limit.perSecond rate).timeToEarn (-b.remaining (.perSecond rate) burst later m) ≤
      (Limit.perSecond rate).timeToEarn (-b.remaining (.perSecond rate) burst now n) := by
  obtain ⟨p, q, hp, hq, hle⟩ := b.remaining_mono rate hnow hcount hburst
  apply timeToEarn_mono
  rw [hq.neg.le_iff hp.neg]
  exact neg_le_neg hle

/-! ## The instant to act at -/

/-- The limit and the burst let the request pass, once the tokens are there. -/
def Fits (limit : Limit) (burst n : UInt64) : Prop := n = 0 ∨ limit.isUnlimited = true ∨ n ≤ burst

/-- The instant at which a request could act if it waited as long as it takes; none if the clock ends
before. -/
def dueAt? (b : Bucket) (limit : Limit) (burst : UInt64) (now : Instant) (n : UInt64) : Option Instant :=
  if n = 0 ∨ limit.isUnlimited = true ∨ 0 ≤ b.remaining limit burst now n then some now
  else (b.base now).add? (limit.timeToEarn (-b.remaining limit burst now n))

theorem Fits.mono (h : Fits limit burst n) (hcount : m ≤ n) : Fits limit burst m := by
  rcases h with rfl | hlimit | hburst
  · exact .inl (UInt64.le_antisymm hcount (UInt64.le_iff_toNat_le.2 (Nat.zero_le _)))
  · exact .inr (.inl hlimit)
  · exact .inr (.inr (UInt64.le_trans hcount hburst))

theorem propose_of_not_fits (h : ¬ Fits limit burst n) (b : Bucket) (now : Instant) (maxWait : Duration) :
    b.propose limit burst now n maxWait = .denied .exceedsBurst .forever := by
  unfold Fits at h
  simp only [not_or, Bool.not_eq_true, UInt64.not_le] at h
  obtain ⟨hn, hlimit, hburst⟩ := h
  exact propose_of_exceeds hn hlimit hburst b now maxWait

/-- A request that fits tells the wait until it could act, and is granted if it may wait so long. -/
theorem propose_of_fits (h : Fits limit burst n) (b : Bucket) (now : Instant) (maxWait : Duration) :
    (b.propose limit burst now n maxWait).delay = ((b.dueAt? limit burst now n).map (·.since now)).getD .forever ∧
      ((b.propose limit burst now n maxWait).isGranted = true ↔
        ∃ due, b.dueAt? limit burst now n = some due ∧ due.since now ≤ maxWait) := by
  have hself : now.since now = .zero := Instant.since_of_le (Int.le_refl _)
  unfold dueAt?
  rcases b.propose_cases limit burst now n maxWait with
    ⟨delay, next, hgranted, hgrant⟩ | ⟨reason, delay, hdenied, hrefusal⟩
  · have hdelay := hgrant.delay_le
    rw [hgranted]
    simp only [Proposal.delay, Proposal.isGranted, true_iff]
    cases hgrant with
    | free hn => simpa [hn, hself] using hdelay
    | unlimited _ hlimit => simpa [hlimit, hself] using hdelay
    | immediate _ _ _ henough => simpa [henough, hself] using hdelay
    | delayed hn hlimit _ hshort actAt hact _ => simpa [hn, hlimit, hshort, hact] using hdelay
  · rw [hdenied]
    simp only [Proposal.delay, Proposal.isGranted, Bool.false_eq_true, false_iff]
    cases hrefusal with
    | exceedsBurst hn hlimit hburst =>
      rcases h with hzero | hunlimited | hle
      · exact absurd hzero hn
      · simp [hlimit] at hunlimited
      · exact absurd hburst (UInt64.not_lt.2 hle)
    | never hn hlimit _ hshort hact => simp [hn, hlimit, hshort, hact]
    | late hn hlimit _ hshort actAt hact hwait =>
      have hlong : ¬ actAt.since now ≤ maxWait := Nat.not_le.2 hwait
      simp [hn, hlimit, hshort, hact, hlong]

/-- If a request could act after some wait, then a later one that asks for no more could act after a wait
that is no longer, unless the clock ends before even that. -/
theorem dueAt?_mono {actAt : Instant} (hnow : now ≤ later) (hcount : m ≤ n) (hfits : Fits limit burst n)
    (h : b.dueAt? limit burst now n = some actAt) (hdue : later.add? (actAt.since now) = some due) :
    ∃ actAt', b.dueAt? limit burst later m = some actAt' ∧ actAt'.since later ≤ actAt.since now := by
  by_cases hatonce : m = 0 ∨ limit.isUnlimited = true ∨ 0 ≤ b.remaining limit burst later m
  · refine ⟨later, if_pos hatonce, ?_⟩
    rw [Instant.since_of_le (Int.le_refl _)]
    exact Nat.zero_le _
  · obtain ⟨hm, hlimit, hshort⟩ := by simpa only [not_or] using hatonce
    cases limit with
    | unlimited => exact absurd rfl hlimit
    | perSecond rate =>
      have hn : n ≠ 0 := by
        rintro rfl
        exact hm (UInt64.le_antisymm hcount (UInt64.le_iff_toNat_le.2 (Nat.zero_le _)))
      have hburst : n ≤ burst := (hfits.resolve_left hn).resolve_left Bool.false_ne_true
      have hshort' : ¬ 0 ≤ b.remaining (.perSecond rate) burst now n :=
        fun henough => hshort (enough_mono hnow hcount hburst henough)
      unfold dueAt? at h ⊢
      rw [if_neg (by simp [hn, hshort', Limit.isUnlimited])] at h
      rw [if_neg hatonce]
      -- both count from the base, and the later one has less to earn
      have hearned := b.timeToEarn_shortage_mono rate hnow hcount hburst
      have hlead := b.base_sub_le hnow
      have hact := Instant.add?_eq_some_iff.1 h
      have hend := Instant.add?_eq_some_iff.1 hdue
      have hbase := b.le_base now
      rw [Duration.le_iff] at hearned
      rw [Instant.le_iff] at hbase
      rw [Instant.nanos_since] at hend
      have hintime : (b.base later).nanos +
          ((Limit.perSecond rate).timeToEarn (-b.remaining (.perSecond rate) burst later m)).nanos ≤ due.nanos := by omega
      obtain ⟨actAt', hact'⟩ := Instant.add?_of_le hintime
      refine ⟨actAt', hact', ?_⟩
      have hnanos := Instant.add?_eq_some_iff.1 hact'
      rw [Duration.le_iff, Instant.nanos_since, Instant.nanos_since]
      omega

end Throttle.Bucket
