import Throttle.Proofs.Bucket.Monotone

/-!
# How exact a reported wait is

A request that is refused and one that is granted at once later find the same stored balance. What was
missing from it took the first one's idle time and its wait to earn, and the other's idle time was
enough, each up to a few roundings of the burst and half a nanosecond. So the grant is at most a
nanosecond and `roundingNanos` before the instant that was told. Main statements: `due_le_of_enough`
and, between a refusal and a grant, `Grant.not_before`.
-/

set_option autoImplicit false

namespace Throttle
open Binary64

/-! ## Roundings of a burst -/

theorem Limit.roundingNanos_mono (limit : Limit) {m n : UInt64} (h : m ≤ n) :
    limit.roundingNanos m ≤ limit.roundingNanos n := by
  cases limit with
  | unlimited => exact Nat.le_refl _
  | perSecond rate =>
    have hcount : (m.toNat : ℚ) ≤ n.toNat := Nat.cast_le.2 (UInt64.le_iff_toNat_le.1 h)
    have htime := div_le_div_of_nonneg_right hcount rate.nonneg
    apply Int.toNat_le_toNat
    apply Rat.floor_monotone
    have hnanos := mul_le_mul_of_nonneg_right htime (show (0 : ℚ) ≤ 10 ^ 9 by norm_num)
    exact mul_le_mul_of_nonneg_right hnanos (two_zpow_pos _).le

/-- Tokens that are earned in 10^5 seconds are not so many that a rounding reaches a nanosecond. -/
theorem Limit.roundingNanos_eq_zero {rate : Rate} {n : UInt64} (h : (n.toNat : ℚ) ≤ 10 ^ 5 * rate.value) :
    (Limit.perSecond rate).roundingNanos n = 0 := by
  have htime : (n.toNat : ℚ) / rate.value ≤ 10 ^ 5 := div_le_of_le_mul₀ rate.nonneg (by norm_num) h
  have hpow : (10 : ℚ) ^ 5 * 10 ^ 9 * 2 ^ (-48 : ℤ) < 1 := by norm_num
  have hnanos := mul_le_mul_of_nonneg_right htime (show (0 : ℚ) ≤ 10 ^ 9 by norm_num)
  have hscaled := mul_le_mul_of_nonneg_right hnanos (two_zpow_pos (-48)).le
  have hfloor := (floor_le_and_lt ((n.toNat : ℚ) / rate.value * 10 ^ 9 * 2 ^ (-48 : ℤ))).1
  have hlt : ((n.toNat / rate.value * 10 ^ 9 * 2 ^ (-48 : ℤ) : ℚ).floor : ℚ) < ((1 : ℤ) : ℚ) := by
    rw [Int.cast_one]
    linarith
  rw [Int.cast_lt] at hlt
  show Int.toNat _ = 0
  omega

namespace Bucket

variable {b next : Bucket} {limit : Limit} {rate : Rate} {burst n : UInt64} {now again actAt : Instant}
  {maxWait delay delay' : Duration} {q : ℚ}

/-! ## Enough and short -/

theorem balanceAt_eq_of_idle_eq (limit : Limit) (burst : UInt64) (h : b.idle now = b.idle again) :
    b.balanceAt limit burst now = b.balanceAt limit burst again := by
  unfold balanceAt
  rw [h]

/-- What is short once is short at every instant before the last update. -/
theorem short_before_last (hburst : n ≤ burst) (hshort : ¬ 0 ≤ b.remaining (.perSecond rate) burst now n)
    (hbefore : b.base again ≠ again) : ¬ 0 ≤ b.remaining (.perSecond rate) burst again n := by
  rcases Int.le_total again.nanos now.nanos with hearlier | hlater
  · exact fun henough => hshort (enough_mono hearlier (UInt64.le_refl n) hburst henough)
  · -- both come before the last update, which leaves the stored balance as it is
    cases hlast : b.last with
    | none => exact absurd (by simp [base, hlast]) hbefore
    | some last =>
      have hagain : again ≤ last := by
        by_contra hafter
        rw [Instant.le_iff, not_le] at hafter
        apply hbefore
        simp only [base, hlast]
        exact Instant.max_eq_right (Int.le_of_lt hafter)
      have hnow : now ≤ last := Int.le_trans hlater hagain
      have hidle : b.idle now = b.idle again := by
        simp only [idle, hlast]
        rw [Instant.since_of_le hnow, Instant.since_of_le hagain]
      unfold remaining at hshort ⊢
      rwa [← balanceAt_eq_of_idle_eq (.perSecond rate) burst hidle]

/-! ## The time that a request takes -/

/-- The time since the last update and the wait earn what the stored balance lacks, and little more. -/
theorem earned_with_wait_le (hr : 0 < rate.value) (hq : (b.held burst).Denotes q) (hn : n ≠ 0) (hburst : n ≤ burst)
    (hshort : ¬ 0 ≤ b.remaining (.perSecond rate) burst now n) :
    b.earnedSince rate now +
        rate.value * ((Limit.perSecond rate).timeToEarn (-b.remaining (.perSecond rate) burst now n)).exactSeconds ≤
      fullBalance n - q + fullBalance n * (9 * 2 ^ (-53 : ℤ)) + rate.value * (6 / 10 ^ 10) := by
  obtain ⟨p, hp, hp0, hple, hgap⟩ := shortage hq hn hburst hshort
  have hwait := earned_in_wait_le hr hp hp0.le
  have hround := mul_le_mul_of_nonneg_right hple roundoff_pos.le
  rw [abs_le] at hgap
  generalize (2 : ℚ) ^ (-53 : ℤ) = u at *
  linarith

/-- The time since the last update earns what the stored balance lacks of the count, or little less, when
a request finds its tokens. -/
theorem count_le_of_enough (hq : b.tokens.Denotes q) (h0 : 0 ≤ q) (hfull : q ≤ fullBalance burst) (hn : n ≠ 0)
    (hburst : n ≤ burst) (hidle : b.idle again < .forever) (henough : 0 ≤ b.remaining (.perSecond rate) burst again n) :
    fullBalance n ≤ q + b.earnedSince rate again + rate.value * (6 / 10 ^ 10) + refillError burst := by
  obtain ⟨T, hT, hT0, hTfull⟩ := b.inRange_balanceAt rate burst again
  have hcount := (enough_iff hT hT0 hTfull hburst).1 henough
  exact hcount.trans (balance_le rate again hq h0 hfull (burst_ne_zero hn hburst) hidle hT)

theorem count_errors_le (hburst : n ≤ burst) :
    fullBalance n * (9 * 2 ^ (-53 : ℤ)) + refillError burst ≤ burst.toNat * (19 * 2 ^ (-53 : ℤ)) := by
  have hmono := fullBalance_mono hburst
  have hcapacity := (abs_le.1 (abs_fullBalance_sub_le burst)).2
  have hburst0 := Nat.cast_nonneg (α := ℚ) burst.toNat
  have hu := roundoff_pos
  have hsmall := roundoff_le
  unfold refillError
  generalize (2 : ℚ) ^ (-53 : ℤ) = u at *
  have hscaled := mul_le_mul_of_nonneg_left hsmall hburst0
  have hcount := mul_le_mul_of_nonneg_right (show fullBalance n ≤ burst.toNat * (1001 / 1000) by linarith) hu.le
  have hfull := mul_le_mul_of_nonneg_right (show fullBalance burst ≤ burst.toNat * (1001 / 1000) by linarith) hu.le
  have htotal := mul_nonneg hburst0 hu.le
  linarith

/-- A request that finds its tokens comes after the time that another one needs for as many, up to a
nanosecond and the roundings of double precision. -/
theorem due_le_of_enough (hb : InRange burst b.tokens) (hn : n ≠ 0) (hburst : n ≤ burst)
    (hshort : ¬ 0 ≤ b.remaining (.perSecond rate) burst now n)
    (hact : (b.base now).add? ((Limit.perSecond rate).timeToEarn (-b.remaining (.perSecond rate) burst now n)) = some actAt)
    (hwait : (Limit.perSecond rate).timeToEarn (-b.remaining (.perSecond rate) burst now n) < .forever)
    (henough : 0 ≤ b.remaining (.perSecond rate) burst again n) :
    actAt.nanos ≤ (b.base again).nanos + 1 + (Limit.perSecond rate).roundingNanos burst := by
  obtain ⟨last, _, _, hlast, _⟩ := balance_of_short hburst hshort
  obtain ⟨q, hq, h0, hfull⟩ := hb
  have hr := rate_pos_of_short hn hburst hshort hwait
  have hnanos := Instant.add?_eq_some_iff.1 hact
  rw [base_nanos hlast] at hnanos ⊢
  rcases Nat.eq_or_lt_of_le (Duration.le_forever (b.idle again)) with hforever | hidle
  · -- no instant is later
    have hend := actAt.notAfter
    have hstart := last.notBefore
    rw [hforever, Duration.nanos_forever]
    omega
  · have hneeded := earned_with_wait_le hr (denotes_held hq h0 hfull) hn hburst hshort
    have hearned := count_le_of_enough hq h0 hfull hn hburst hidle henough
    have herrors := count_errors_le hburst
    unfold earnedSince Duration.exactSeconds at hneeded hearned
    have hle := nanos_le_of_earned_le (n := burst) hr
      (s := (b.idle now).nanos + ((Limit.perSecond rate).timeToEarn (-b.remaining (.perSecond rate) burst now n)).nanos)
      (t := (b.idle again).nanos) (by
        push_cast
        rw [add_div, mul_add]
        generalize (2 : ℚ) ^ (-53 : ℤ) = u at *
        linarith)
    omega

/-! ## Between a refusal and a grant -/

/-- No request for as many tokens is granted at once more than a nanosecond and the roundings before the
wait is over that a refused one was told. -/
theorem Grant.not_before (h : b.Grant limit burst again n .zero delay' next) (hb : InRange burst b.tokens)
    (hrefusal : b.Refusal limit burst now n maxWait .exhausted delay) (hdelay : delay < .forever) :
    now.nanos + delay.nanos ≤ again.nanos + 1 + limit.roundingNanos burst := by
  cases hrefusal with
  | never => exact absurd hdelay (Nat.lt_irrefl _)
  | late hn hlimit hburst hshort actAt hact _ =>
    cases limit with
    | unlimited => cases hlimit
    | perSecond rate =>
      have hnow := b.le_base now
      have hnanos := Instant.add?_eq_some_iff.1 hact
      rw [Instant.le_iff] at hnow
      rw [Duration.lt_iff, Instant.nanos_since] at hdelay
      have hwait : (Limit.perSecond rate).timeToEarn (-b.remaining (.perSecond rate) burst now n) < .forever := by
        rw [Duration.lt_iff]
        omega
      rw [Instant.nanos_since]
      cases h with
      | free hzero => exact absurd hzero hn
      | unlimited _ hlimit => cases hlimit
      | immediate _ _ _ henough =>
        have hbase : b.base again = again := by
          by_contra hbefore
          exact short_before_last hburst hshort hbefore henough
        have hdue := due_le_of_enough hb hn hburst hshort hact hwait henough
        rw [hbase] at hdue
        omega
      | delayed _ _ _ hshort' actAt' hact' hatonce =>
        -- a grant at once that is short has to wait for less than half a nanosecond
        have hnanos' := Instant.add?_eq_some_iff.1 hact'
        have hagain := b.le_base again
        rw [Instant.le_iff] at hagain
        rw [Duration.lt_iff, Instant.nanos_since] at hatonce
        have hzero : Duration.zero.nanos = 0 := rfl
        have hwait' : (Limit.perSecond rate).timeToEarn (-b.remaining (.perSecond rate) burst again n) < .forever := by
          rw [Duration.lt_iff, Duration.nanos_forever]
          omega
        have hdue := due_again_le hn hburst hshort' hshort hwait'
        have hround := (Limit.perSecond rate).roundingNanos_mono hburst
        omega

end Bucket

end Throttle
