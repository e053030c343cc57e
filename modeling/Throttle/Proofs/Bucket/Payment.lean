import Throttle.Proofs.Bucket.Clock
import Throttle.Proofs.Bucket.Grant
import Throttle.Proofs.Bucket.Refill

/-!
# What a grant costs

The balance is a potential: a grant of `n` tokens and the balance it leaves are paid from the balance
before, from what the rate earned up to the instant of the new bucket, and from `grantError`, which
is one nanosecond at the rate and a relative rounding of the burst. Main statements: `Grant.paid`
for a bucket in use and `Grant.paid_first` for one never used.
-/

set_option autoImplicit false

namespace Throttle
open Binary64

namespace Bucket

/-! ## The error of a grant -/

/-- What one grant may add to the tokens that time earned. -/
def grantError (rate : Rate) (burst : UInt64) : ℚ :=
  rate.value / 10 ^ 9 + burst.toNat * 2 ^ (-48 : ℤ)

/-- The most that is lost when a count is taken from a balance: the count, the difference and the
wait for what is short are each rounded. -/
def paymentError (burst : UInt64) : ℚ :=
  fullBalance burst * (3 * 2 ^ (-53 : ℤ)) + burst.toNat * 2 ^ (-53 : ℤ)

theorem fullBalance_mul_roundoff_le (burst : UInt64) :
    fullBalance burst * 2 ^ (-53 : ℤ) ≤ burst.toNat * (2 * 2 ^ (-53 : ℤ)) := by
  have hfull := (abs_le.1 (abs_fullBalance_sub_le burst)).2
  have hburst := Nat.cast_nonneg (α := ℚ) burst.toNat
  have hu := roundoff_pos
  have hsmall := roundoff_le
  generalize (2 : ℚ) ^ (-53 : ℤ) = u at *
  have hscaled := mul_le_mul_of_nonneg_left hsmall hburst
  have h := mul_le_mul_of_nonneg_right (show fullBalance burst ≤ 2 * burst.toNat by linarith) hu.le
  linarith

theorem grantError_eq (rate : Rate) (burst : UInt64) :
    grantError rate burst = rate.value / 10 ^ 9 + burst.toNat * (32 * 2 ^ (-53 : ℤ)) := by
  have h : (2 : ℚ) ^ (-48 : ℤ) = 32 * 2 ^ (-53 : ℤ) := by norm_num
  unfold grantError
  rw [h]

theorem errors_le_grantError (rate : Rate) (burst : UInt64) :
    rate.value * (6 / 10 ^ 10) + refillError burst + paymentError burst ≤ grantError rate burst := by
  have hscaled := fullBalance_mul_roundoff_le burst
  have hburst := mul_nonneg (Nat.cast_nonneg (α := ℚ) burst.toNat) roundoff_pos.le
  have hrate := rate.nonneg
  rw [grantError_eq]
  unfold refillError paymentError
  generalize (2 : ℚ) ^ (-53 : ℤ) = u at *
  linarith

theorem fullBalance_add_paymentError_le (rate : Rate) (burst : UInt64) :
    fullBalance burst + paymentError burst ≤ burst.toNat + grantError rate burst := by
  have hfull := (abs_le.1 (abs_fullBalance_sub_le burst)).2
  have hscaled := fullBalance_mul_roundoff_le burst
  have hburst := mul_nonneg (Nat.cast_nonneg (α := ℚ) burst.toNat) roundoff_pos.le
  have hrate := rate.nonneg
  rw [grantError_eq]
  unfold paymentError
  generalize (2 : ℚ) ^ (-53 : ℤ) = u at *
  linarith

/-! ## Buckets in use -/

/-- The bucket was last right at `last`, after the earliest instant, and then held `q` tokens. -/
structure Holds (b : Bucket) (burst : UInt64) (last : Instant) (q : ℚ) : Prop where
  last_eq : b.last = some last
  late : Instant.earliest < last
  denotes : b.tokens.Denotes q
  nonneg : 0 ≤ q
  le_full : q ≤ fullBalance burst

variable {b next : Bucket} {rate : Rate} {burst n : UInt64} {now last : Instant} {maxWait delay : Duration}
  {q T : ℚ}

theorem Holds.base_eq (h : b.Holds burst last q) (now : Instant) : b.base now = .max last now := by
  unfold base
  rw [h.last_eq]

theorem Holds.earliest_lt_base (h : b.Holds burst last q) (now : Instant) :
    Instant.earliest < b.base now := by
  have hle := Instant.le_max_left last now
  have hlate := h.late
  rw [h.base_eq]
  rw [Instant.le_iff] at hle
  rw [Instant.lt_iff] at hlate ⊢
  omega

theorem Holds.idle_lt_forever (h : b.Holds burst last q) (now : Instant) : b.idle now < .forever := by
  unfold idle
  rw [h.last_eq]
  exact Instant.since_lt_forever h.late now

theorem Holds.earnedSince_eq (h : b.Holds burst last q) (rate : Rate) (now : Instant) :
    b.earnedSince rate now = rate.value * last.elapsed (b.base now) := by
  unfold earnedSince idle
  rw [h.base_eq, h.last_eq]
  dsimp only
  rw [Instant.exactSeconds_since]

/-! ## Payments -/

theorem count_le_fullBalance (hn : n ≤ burst) :
    n.toNat ≤ fullBalance n + burst.toNat * 2 ^ (-53 : ℤ) := by
  have h := (abs_le.1 (abs_fullBalance_sub_le n)).1
  have hle : (n.toNat : ℚ) ≤ burst.toNat := Nat.cast_le.2 (UInt64.le_iff_toNat_le.1 hn)
  have hscaled := mul_le_mul_of_nonneg_right hle roundoff_pos.le
  linarith

theorem abs_remaining_sub_le (hT : Expressible T) (h0 : 0 ≤ T) (hfull : T ≤ fullBalance burst)
    (hn : n ≤ burst) :
    |nearest (T - fullBalance n) - (T - fullBalance n)| ≤ fullBalance burst * 2 ^ (-53 : ℤ) := by
  have h := abs_nearest_sub_le_of_onGrid (hT.onGrid.sub (denotes_capacity n).expressible.onGrid)
  have hcount := fullBalance_mono hn
  have hnonneg := fullBalance_nonneg n
  have habs : |T - fullBalance n| ≤ fullBalance burst := by
    rw [abs_le]
    constructor <;> linarith
  exact h.trans (mul_le_mul_of_nonneg_right habs roundoff_pos.le)

theorem count_add_remaining_le (hT : Expressible T) (h0 : 0 ≤ T) (hfull : T ≤ fullBalance burst)
    (hn : n ≤ burst) : n.toNat + nearest (T - fullBalance n) ≤ T + paymentError burst := by
  have hleft := (abs_le.1 (abs_remaining_sub_le hT h0 hfull hn)).2
  have hcount := count_le_fullBalance hn
  have hu := mul_nonneg (fullBalance_nonneg burst) roundoff_pos.le
  unfold paymentError
  generalize (2 : ℚ) ^ (-53 : ℤ) = u at *
  linarith

theorem count_le_balance_add_wait {x : Binary64} (hT : Expressible T) (h0 : 0 ≤ T)
    (hfull : T ≤ fullBalance burst) (hn : n ≤ burst) (hx : x.Denotes (-nearest (T - fullBalance n)))
    (hshort : nearest (T - fullBalance n) < 0) (hwait : (Limit.perSecond rate).timeToEarn x < .forever) :
    n.toNat ≤ T + rate.value * ((Limit.perSecond rate).timeToEarn x).exactSeconds +
      rate.value * (6 / 10 ^ 10) + paymentError burst := by
  have hround := abs_le.1 (abs_remaining_sub_le hT h0 hfull hn)
  have hcount := count_le_fullBalance hn
  have hmono := fullBalance_mono hn
  have hearned := amount_le_earned_in_wait hx (by linarith) hwait
  have hlow : -fullBalance burst ≤ nearest (T - fullBalance n) :=
    le_nearest_of_le (denotes_capacity burst).neg.expressible (by linarith)
  have hu := roundoff_pos
  unfold paymentError
  generalize (2 : ℚ) ^ (-53 : ℤ) = u at *
  have h1 := mul_le_mul_of_nonneg_right (show -nearest (T - fullBalance n) ≤ fullBalance burst by linarith) hu.le
  have h2 := mul_nonneg (fullBalance_nonneg burst) hu.le
  linarith

theorem lt_fullBalance_of_short (hn : n ≤ burst) (hshort : nearest (T - fullBalance n) < 0) :
    T < fullBalance burst := by
  have hmono := fullBalance_mono hn
  by_contra hge
  have hnonneg := nearest_nonneg (show 0 ≤ T - fullBalance n by linarith)
  linarith

theorem burst_ne_zero (hn : n ≠ 0) (hle : n ≤ burst) : burst ≠ 0 := by
  rintro rfl
  exact hn (UInt64.le_zero_iff.1 hle)

/-- A grant from a bucket in use is paid from the balance and from the time up to the new bucket. -/
theorem Grant.paid (h : Grant b (.perSecond rate) burst now n maxWait delay next) (hn : n ≠ 0)
    (hb : b.Holds burst last q) :
    ∃ last' q', next.Holds burst last' q' ∧
      n.toNat + q' ≤ q + rate.value * last.elapsed last' + grantError rate burst := by
  have hbase := hb.earliest_lt_base now
  have herror := errors_le_grantError rate burst
  obtain ⟨T, hT, h0, hfull⟩ := b.inRange_balanceAt rate burst now
  cases h with
  | free hzero => exact absurd hzero hn
  | unlimited _ hlimit => cases hlimit
  | immediate _ _ hburst henough =>
    have hrem := denotes_remaining hT h0 hfull hburst
    obtain ⟨hleft, hfits⟩ := remaining_bounds hT h0 hfull hburst henough
    refine ⟨b.base now, _, ⟨rfl, hbase, hrem, hleft, hfits⟩, ?_⟩
    have hrefill := balance_le rate now hb.denotes hb.nonneg hb.le_full (burst_ne_zero hn hburst)
      (hb.idle_lt_forever now) hT
    have hpayment := count_add_remaining_le hT.expressible h0 hfull hburst
    rw [hb.earnedSince_eq] at hrefill
    linarith
  | delayed _ _ hburst hshort actAt hact hwait =>
    have hrem := denotes_remaining hT h0 hfull hburst
    rw [denotes_ofNat_zero.le_iff hrem, not_le] at hshort
    have hlate := Instant.lt_of_lt_of_add? hbase hact
    refine ⟨actAt, 0, ⟨rfl, hlate, denotes_ofNat_zero, le_refl _, fullBalance_nonneg burst⟩, ?_⟩
    -- the balance was not full, so the wait is the only one that was rounded
    have hrefill := balance_le_of_not_full rate now hb.denotes hb.nonneg hb.le_full (burst_ne_zero hn hburst)
      hT (lt_fullBalance_of_short hburst hshort)
    have hpayment := count_le_balance_add_wait hT.expressible h0 hfull hburst hrem.neg hshort
      (Instant.lt_forever_of_add? hbase hact)
    rw [hb.earnedSince_eq] at hrefill
    rw [← Instant.elapsed_of_add? hact] at hpayment
    rw [← Instant.elapsed_add last (b.base now) actAt, mul_add]
    linarith

/-- The first grant of a bucket is paid from the burst: a bucket never used is full. -/
theorem Grant.paid_first (h : Grant b (.perSecond rate) burst now n maxWait delay next) (hn : n ≠ 0)
    (hb : b.last = none) (hnow : Instant.earliest < now) :
    ∃ q', next.Holds burst now q' ∧ n.toNat + q' ≤ burst.toNat + grantError rate burst := by
  have hbase : b.base now = now := by
    unfold base
    rw [hb]
  have hT : (b.balanceAt (.perSecond rate) burst now).Denotes (fullBalance burst) := by
    rw [balanceAt_of_unused (.perSecond rate) hb]
    exact denotes_capacity burst
  have hzero := fullBalance_nonneg burst
  cases h with
  | free hzero => exact absurd hzero hn
  | unlimited _ hlimit => cases hlimit
  | immediate _ _ hburst henough =>
    have hrem := denotes_remaining hT hzero (le_refl _) hburst
    obtain ⟨hleft, hfits⟩ := remaining_bounds hT hzero (le_refl _) hburst henough
    refine ⟨_, ⟨congrArg some hbase, hnow, hrem, hleft, hfits⟩, ?_⟩
    exact (count_add_remaining_le hT.expressible hzero (le_refl _) hburst).trans
      (fullBalance_add_paymentError_le rate burst)
  | delayed _ _ hburst hshort =>
    have hrem := denotes_remaining hT hzero (le_refl _) hburst
    rw [denotes_ofNat_zero.le_iff hrem, not_le] at hshort
    exact absurd (lt_fullBalance_of_short hburst hshort) (lt_irrefl _)

end Bucket

end Throttle
