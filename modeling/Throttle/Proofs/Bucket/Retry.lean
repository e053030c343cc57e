import Throttle.Proofs.Bucket.Payment
import Throttle.Proofs.Bucket.Refusal

/-!
# Asking again

Nothing is taken from a bucket by a refusal, so the same request finds at a later instant what the
first one left and what was earned since. Both times its shortage is the exact one up to a few
roundings, and both times the wait for it is rounded to a nanosecond: the second due instant is after
the first by a nanosecond and `roundingNanos` at most. Main statements: `due_again_le` and, for a
request that was told its wait, `Refusal.not_again`.
-/

set_option autoImplicit false

namespace Throttle
open Binary64

/-- The most that the roundings of double precision add to the wait for `n` tokens: 2^-48 of the time
in which they are earned, in whole nanoseconds. -/
def Limit.roundingNanos (limit : Limit) (n : UInt64) : ℕ :=
  match limit with
  | .unlimited => 0
  | .perSecond rate => (n.toNat / rate.value * 10 ^ 9 * 2 ^ (-48 : ℤ) : ℚ).floor.toNat

namespace Bucket

variable {b : Bucket} {rate : Rate} {burst n : UInt64} {now again due : Instant} {maxWait delay : Duration}
  {q T : ℚ}

/-! ## The shortage -/

/-- A sum that stays below a count, and what is missing of the count, after four roundings. -/
theorem abs_rounded_shortage_sub_le {q x e c : ℚ} (hq : Expressible q) (he : Expressible e) (hc : Expressible c)
    (hq0 : 0 ≤ q) (hx0 : 0 ≤ x) (he0 : 0 ≤ e) (hc1 : 1 ≤ c)
    (hlow : x * (1 - 4 * 2 ^ (-53 : ℤ)) - 2 ^ (-1075 : ℤ) ≤ e)
    (hhigh : e ≤ x * (1 + 4 * 2 ^ (-53 : ℤ)) + 2 ^ (-1075 : ℤ)) (hshort : nearest (q + e) < c) :
    |nearest (nearest (q + e) - c) - (q + x - c)| ≤ c * (8 * 2 ^ (-53 : ℤ)) := by
  have hle : q + e ≤ c := by
    by_contra hgt
    exact absurd (le_nearest_of_le hc (not_le.1 hgt).le) (not_le.2 hshort)
  have hsum := abs_nearest_sub_le_of_onGrid (hq.onGrid.add he.onGrid)
  have hrest := abs_nearest_sub_le_of_onGrid ((expressible_nearest (q + e)).onGrid.sub hc.onGrid)
  rw [abs_of_nonneg (add_nonneg hq0 he0)] at hsum
  rw [abs_of_neg (sub_neg.2 hshort)] at hrest
  have hT0 := nearest_nonneg (add_nonneg hq0 he0)
  have hu := roundoff_pos
  have hsmall := roundoff_le
  have hunder := underflow_le
  generalize (2 : ℚ) ^ (-53 : ℤ) = u at *
  generalize (2 : ℚ) ^ (-1075 : ℤ) = tiny at *
  generalize nearest (q + e) = T at *
  have hcu : u ≤ c * u := le_mul_of_one_le_left hu.le hc1
  have hsumu : (q + e) * u ≤ c * u := mul_le_mul_of_nonneg_right hle hu.le
  have hrestu : -(T - c) * u ≤ c * u := mul_le_mul_of_nonneg_right (by linarith) hu.le
  have hx : x ≤ 11 / 10 * c := by
    have hpart := mul_le_mul_of_nonneg_left hsmall hx0
    linarith
  have hxu := mul_le_mul_of_nonneg_right hx hu.le
  rw [abs_le] at hsum hrest ⊢
  constructor <;> linarith

/-- Whatever fits the burst can be had from a full bucket. -/
theorem enough_of_full (h : b.balanceAt (.perSecond rate) burst now = capacity burst) (hburst : n ≤ burst) :
    0 ≤ b.remaining (.perSecond rate) burst now n := by
  have hT : (b.balanceAt (.perSecond rate) burst now).Denotes (fullBalance burst) := h ▸ denotes_capacity burst
  exact (enough_iff hT (fullBalance_nonneg burst) (le_refl _) hburst).2 (fullBalance_mono hburst)

/-- A bucket that is short was used before and holds a number. Its balance is below the count and is
the rounded sum of what it held and what was earned. -/
theorem balance_of_short (hburst : n ≤ burst) (hshort : ¬ 0 ≤ b.remaining (.perSecond rate) burst now n) :
    ∃ last q T, b.last = some last ∧ (b.held burst).Denotes q ∧ 0 ≤ q ∧
      (b.balanceAt (.perSecond rate) burst now).Denotes T ∧ 0 ≤ T ∧ T < fullBalance n ∧
      T = nearest (q + nearest (rate.value * (b.idle now).roundedSeconds)) := by
  have hnotfull : b.balanceAt (.perSecond rate) burst now ≠ capacity burst :=
    fun hfull => hshort (enough_of_full hfull hburst)
  obtain ⟨T, hT, hT0, hfull⟩ := b.inRange_balanceAt rate burst now
  have hmono := fullBalance_mono hburst
  have hlt : T < fullBalance n := not_le.1 ((enough_iff hT hT0 hfull hburst).not.1 hshort)
  rcases b.held_eq_nan_or_inRange burst with hnan | ⟨q, hq, h0, _⟩
  · exact absurd (balanceAt_of_held_nan rate now hnan) hnotfull
  · cases hlast : b.last with
    | none => exact absurd (balanceAt_of_unused _ hlast) hnotfull
    | some last =>
      refine ⟨last, q, T, rfl, hq, h0, hT, hT0, hlt, ?_⟩
      rcases balanceAt_full_or rate now hq h0 with ⟨_, hdue⟩ | hsum
      · exact absurd hdue hnotfull
      · have hmin := hT.unique hsum
        rcases min_choice (nearest (q + nearest (rate.value * (b.idle now).roundedSeconds))) (fullBalance burst)
          with hchoice | hchoice
        · exact hmin.trans hchoice
        · rw [hmin, hchoice] at hlt
          exact absurd hlt (not_lt.2 hmono)

/-- What a request is short of is what the exact balance lacks, up to a few units in the last place of
its count. -/
theorem shortage (hq : (b.held burst).Denotes q) (hn : n ≠ 0) (hburst : n ≤ burst)
    (hshort : ¬ 0 ≤ b.remaining (.perSecond rate) burst now n) :
    ∃ p, (-b.remaining (.perSecond rate) burst now n).Denotes p ∧ 0 < p ∧ p ≤ fullBalance n ∧
      |p - (fullBalance n - q - b.earnedSince rate now)| ≤ fullBalance n * (8 * 2 ^ (-53 : ℤ)) := by
  obtain ⟨_, q', T, _, hq', h0, hT, hT0, hlt, hsum⟩ := balance_of_short hburst hshort
  obtain rfl := hq'.unique hq
  have hmono := fullBalance_mono hburst
  have hrem := denotes_remaining hT hT0 (hlt.le.trans hmono) hburst
  rw [denotes_ofNat_zero.le_iff hrem, not_le] at hshort
  have hlow : -fullBalance n ≤ nearest (T - fullBalance n) :=
    le_nearest_of_le (denotes_capacity n).neg.expressible (by linarith)
  refine ⟨_, hrem.neg, by linarith, by linarith, ?_⟩
  have hrounded := mul_nonneg rate.nonneg (b.idle now).roundedSeconds_nonneg
  have hearned := mul_nonneg rate.nonneg (b.idle now).exactSeconds_nonneg
  have hgap := abs_rounded_shortage_sub_le hq.expressible (expressible_nearest _) (denotes_capacity n).expressible
    h0 hearned (nearest_nonneg hrounded) (one_le_fullBalance hn) (le_rounded_earned rate (b.idle now))
    (rounded_earned_le rate (b.idle now)) (hsum ▸ hlt)
  rw [← hsum, ← abs_neg] at hgap
  rwa [show -nearest (T - fullBalance n) - (fullBalance n - q' - b.earnedSince rate now) =
    -(nearest (T - fullBalance n) - (q' + rate.value * (b.idle now).exactSeconds - fullBalance n)) by
      unfold earnedSince; ring]

/-! ## The due instant -/

theorem roundingNanos_bound (rate : Rate) (n : UInt64) :
    n.toNat / rate.value * 10 ^ 9 * 2 ^ (-48 : ℤ) < ((Limit.perSecond rate).roundingNanos n : ℚ) + 1 := by
  have hfloor := (floor_le_and_lt (n.toNat / rate.value * 10 ^ 9 * 2 ^ (-48 : ℤ))).2
  have hcast : ((n.toNat / rate.value * 10 ^ 9 * 2 ^ (-48 : ℤ) : ℚ).floor : ℚ) ≤
      (Limit.perSecond rate).roundingNanos n := by
    exact_mod_cast Int.self_le_toNat _
  linarith

/-- Nothing is earned in time without a rate. -/
theorem rate_pos_of_short (hn : n ≠ 0) (hburst : n ≤ burst)
    (hshort : ¬ 0 ≤ b.remaining (.perSecond rate) burst now n)
    (hwait : (Limit.perSecond rate).timeToEarn (-b.remaining (.perSecond rate) burst now n) < .forever) :
    0 < rate.value := by
  obtain ⟨_, _, _, _, hq, _⟩ := balance_of_short hburst hshort
  obtain ⟨p, hp, hp0, _⟩ := shortage hq hn hburst hshort
  rcases rate.nonneg.eq_or_lt with hzero | hr
  · rw [timeToEarn_of_rate_zero hzero.symm hp hp0] at hwait
    exact absurd hwait (Nat.lt_irrefl _)
  · exact hr

/-- Times in which the rate earns amounts that differ by a few roundings of a count, and by what it earns
in a bit more than a nanosecond. -/
theorem nanos_le_of_earned_le (hr : 0 < rate.value) {s t : ℕ}
    (h : rate.value * (s / 1_000_000_000) ≤
      rate.value * (t / 1_000_000_000) + n.toNat * (19 * 2 ^ (-53 : ℤ)) + rate.value * (12 / 10 ^ 10)) :
    s ≤ t + 1 + (Limit.perSecond rate).roundingNanos n := by
  have hround := roundingNanos_bound rate n
  generalize (Limit.perSecond rate).roundingNanos n = extra at *
  have hseconds : (s : ℚ) / 1_000_000_000 ≤
      t / 1_000_000_000 + n.toNat / rate.value * (19 * 2 ^ (-53 : ℤ)) + 12 / 10 ^ 10 := by
    apply le_of_mul_le_mul_left _ hr
    have hn' : rate.value * (n.toNat / rate.value) = n.toNat := mul_div_cancel₀ _ hr.ne'
    calc rate.value * (s / 1_000_000_000) ≤ _ := h
      _ = rate.value * (t / 1_000_000_000) +
            rate.value * (n.toNat / rate.value) * (19 * 2 ^ (-53 : ℤ)) + rate.value * (12 / 10 ^ 10) := by rw [hn']
      _ = _ := by ring
  have hpow : (2 : ℚ) ^ (-48 : ℤ) = 32 * 2 ^ (-53 : ℤ) := by norm_num
  rw [hpow] at hround
  have hnanos : (s : ℚ) < t + 2 + extra := by
    have hextra := Nat.cast_nonneg (α := ℚ) extra
    linarith
  have hint : s < t + 2 + extra := by exact_mod_cast hnanos
  omega

/-- The seconds until the due instant, at two times of asking, as tokens. -/
theorem earned_until_due_le (hr : 0 < rate.value) (hn : n ≠ 0) (hburst : n ≤ burst)
    (hshort : ¬ 0 ≤ b.remaining (.perSecond rate) burst now n)
    (hagain : ¬ 0 ≤ b.remaining (.perSecond rate) burst again n)
    (hwait : (Limit.perSecond rate).timeToEarn (-b.remaining (.perSecond rate) burst now n) < .forever) :
    b.earnedSince rate again +
        rate.value * ((Limit.perSecond rate).timeToEarn (-b.remaining (.perSecond rate) burst again n)).exactSeconds ≤
      b.earnedSince rate now +
        rate.value * ((Limit.perSecond rate).timeToEarn (-b.remaining (.perSecond rate) burst now n)).exactSeconds +
        n.toNat * (19 * 2 ^ (-53 : ℤ)) + rate.value * (12 / 10 ^ 10) := by
  obtain ⟨_, q, _, _, hq, _⟩ := balance_of_short hburst hshort
  obtain ⟨p, hp, hp0, hple, hgap⟩ := shortage hq hn hburst hshort
  obtain ⟨p', hp', hp0', hple', hgap'⟩ := shortage hq hn hburst hagain
  have hfirst := amount_le_earned_in_wait hp hp0.le hwait
  have hsecond := earned_in_wait_le hr hp' hp0'.le
  have hcount := (abs_le.1 (abs_fullBalance_sub_le n)).2
  have hn0 := Nat.cast_nonneg (α := ℚ) n.toNat
  have hu := roundoff_pos
  have hsmall := roundoff_le
  generalize (2 : ℚ) ^ (-53 : ℤ) = u at *
  rw [abs_le] at hgap hgap'
  have hpu := mul_le_mul_of_nonneg_right hple hu.le
  have hpu' := mul_le_mul_of_nonneg_right hple' hu.le
  have hscaled := mul_le_mul_of_nonneg_left hsmall hn0
  have hcu := mul_le_mul_of_nonneg_right (show fullBalance n ≤ n.toNat * (1001 / 1000) by linarith) hu.le
  linarith

/-- Asked again, a request that is still short is due a nanosecond later at most, the roundings of double
precision aside. -/
theorem due_again_le (hn : n ≠ 0) (hburst : n ≤ burst)
    (hshort : ¬ 0 ≤ b.remaining (.perSecond rate) burst now n)
    (hagain : ¬ 0 ≤ b.remaining (.perSecond rate) burst again n)
    (hwait : (Limit.perSecond rate).timeToEarn (-b.remaining (.perSecond rate) burst now n) < .forever) :
    (b.base again).nanos + ((Limit.perSecond rate).timeToEarn (-b.remaining (.perSecond rate) burst again n)).nanos ≤
      (b.base now).nanos + ((Limit.perSecond rate).timeToEarn (-b.remaining (.perSecond rate) burst now n)).nanos +
        1 + (Limit.perSecond rate).roundingNanos n := by
  obtain ⟨last, _, _, hlast, _⟩ := balance_of_short hburst hshort
  have hr := rate_pos_of_short hn hburst hshort hwait
  have hearned := earned_until_due_le hr hn hburst hshort hagain hwait
  unfold earnedSince Duration.exactSeconds at hearned
  have hnanos := nanos_le_of_earned_le (n := n) hr
    (s := (b.idle again).nanos + ((Limit.perSecond rate).timeToEarn (-b.remaining (.perSecond rate) burst again n)).nanos)
    (t := (b.idle now).nanos + ((Limit.perSecond rate).timeToEarn (-b.remaining (.perSecond rate) burst now n)).nanos) (by
      push_cast
      rw [add_div, add_div, mul_add, mul_add]
      exact hearned)
  rw [base_nanos hlast, base_nanos hlast]
  omega

/-- A request that was told how long it would have to wait is not refused again when that wait, a
nanosecond and the roundings of double precision have passed, or will have passed within the caller's
bound. -/
theorem Refusal.not_again {limit : Limit} {maxWait' wait : Duration} {reason : Denial}
    (h : b.Refusal limit burst now n maxWait .exhausted delay) (hdelay : delay < .forever)
    (hdue : now.nanos + delay.nanos + 1 + limit.roundingNanos n ≤ due.nanos)
    (hagain : due.nanos ≤ again.nanos + maxWait'.nanos) : ¬ b.Refusal limit burst again n maxWait' reason wait := by
  cases h with
  | never => exact absurd hdelay (Nat.lt_irrefl _)
  | late hn hlimit hburst hshort actAt hact _ =>
    cases limit with
    | unlimited => cases hlimit
    | perSecond rate =>
      have hnanos := Instant.add?_eq_some_iff.1 hact
      have hbase := b.le_base now
      rw [Instant.le_iff] at hbase
      rw [Instant.nanos_since] at hdue
      rw [Duration.lt_iff, Instant.nanos_since] at hdelay
      have hwait : (Limit.perSecond rate).timeToEarn (-b.remaining (.perSecond rate) burst now n) < .forever := by
        rw [Duration.lt_iff]
        omega
      have hlate : ¬ 0 ≤ b.remaining (.perSecond rate) burst again n →
          (b.base again).nanos +
            ((Limit.perSecond rate).timeToEarn (-b.remaining (.perSecond rate) burst again n)).nanos ≤ due.nanos := by
        intro hshort'
        have hle := due_again_le hn hburst hshort hshort' hwait
        omega
      intro hrefusal
      cases hrefusal with
      | exceedsBurst _ _ hexceeds => exact absurd hburst (UInt64.not_le.2 hexceeds)
      | never _ _ _ hshort' hnever =>
        obtain ⟨u, hu⟩ := Instant.add?_of_le (hlate hshort')
        rw [hnever] at hu
        cases hu
      | late _ _ _ hshort' actAt' hact' hlong =>
        have hle := hlate hshort'
        have hnanos' := Instant.add?_eq_some_iff.1 hact'
        rw [Duration.lt_iff, Instant.nanos_since] at hlong
        omega

end Bucket

end Throttle
