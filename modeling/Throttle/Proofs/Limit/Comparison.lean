import Throttle.Config
import Throttle.Proofs.Limit.Interval

/-!
# Limits compared by their rates

Whatever sets a limit, its rate is a number that is not below zero, and a longer interval never sets a
greater one. Each conversion keeps the order of its argument, and of two limits the faster one earns no
less in any span and needs no longer for any amount. Main statement: `limits_ordered`.
-/

set_option autoImplicit false

namespace Throttle
open Binary64

/-! ## What sets a limit -/

/-- A number of tokens per second, the nanoseconds from one token to the next, or neither. -/
inductive Setting where
  | rate (x : Binary64)
  | interval (nanos : ℤ)
  | nothing

namespace Setting

/-- The limits that a setting leads to, directly or by way of a policy. -/
inductive Sets : Setting → Limit → Prop where
  | rate (x : Binary64) : Sets (.rate x) (.ofRate x)
  | span (d : Duration) : Sets (.interval d.nanos) (.every d)
  | millis (ms : Int64) : Sets (.interval (ms.toInt * 1_000_000)) (.everyMillis ms)
  | policyRate {policy : Policy} {x : Binary64} (h : policy.ratePerSec = some x) : Sets (.rate x) policy.limit
  | policyInterval {policy : Policy} {ms : Int64} (hrate : policy.ratePerSec = none)
    (h : policy.intervalMs = some ms) : Sets (.interval (ms.toInt * 1_000_000)) policy.limit
  | policyNothing {policy : Policy} (hrate : policy.ratePerSec = none) (h : policy.intervalMs = none) :
    Sets .nothing policy.limit

/-- The limits that a setting stands for: a rate is taken as it is if it is above zero, and an interval
earns one token up to three roundings. -/
def Allows : Setting → Limit → Prop
  | rate x, limit => limit.toBinary64 = if 0 < x then x else 0
  | interval nanos, limit =>
    if 0 < nanos then
      ∃ q, limit.toBinary64.Denotes q ∧ 0 < q ∧ |q * (nanos / 1_000_000_000) - 1| ≤ 31 / 10 * 2 ^ (-53 : ℤ)
    else limit = .unlimited
  | nothing, limit => limit = .unlimited

end Setting

/-! ## Rates -/

theorem toBinary64_ofRate (x : Binary64) : (Limit.ofRate x).toBinary64 = if 0 < x then x else 0 := by
  cases x with
  | nan => rfl
  | infinity negative => cases negative <;> rfl
  | negZero =>
    rw [if_neg (by decide)]
    rfl
  | finite q h =>
    have hpos : 0 < Binary64.finite q h ↔ 0 < q := denotes_ofNat_zero.lt_iff (.finite q h)
    unfold Limit.ofRate
    dsimp only
    rcases lt_trichotomy q 0 with hq | rfl | hq
    · rw [dif_neg (not_le.2 hq), if_neg fun h0 => hq.not_gt (hpos.1 h0)]
      rfl
    · rw [dif_pos (le_refl 0), if_neg fun h0 => lt_irrefl _ (hpos.1 h0)]
      rfl
    · rw [dif_pos hq.le, if_pos (hpos.2 hq)]
      rfl

/-- None, or a finite rate that is not below zero. -/
def Limit.WellFormed (limit : Limit) : Prop :=
  limit = .unlimited ∨ ∃ q, limit.toBinary64.Denotes q ∧ 0 ≤ q

theorem Limit.wellFormed (limit : Limit) : limit.WellFormed := by
  cases limit with
  | unlimited => exact .inl rfl
  | perSecond rate => exact .inr ⟨rate.value, rate.denotes, rate.nonneg⟩

theorem toBinary64_le_infinity (limit : Limit) : limit.toBinary64 ≤ infinity false := by
  cases limit <;> rfl

/-! ## Intervals -/

theorem Duration.ofMillis_nanos {ms : Int64} (h : 0 ≤ ms.toInt) :
    ((Duration.ofMillis ms.toUInt64).nanos : ℤ) = ms.toInt * 1_000_000 := by
  have hword : (ms.toUInt64.toNat : ℤ) = ms.toInt := by
    have hsign := BitVec.toInt_eq_toNat_cond ms.toBitVec
    rw [Int64.toNat_toBitVec] at hsign
    have hbound := ms.toUInt64.toNat_lt
    change ms.toInt = _ at hsign
    split at hsign <;> omega
  rw [← hword]
  exact Nat.cast_mul _ _

/-- Milliseconds are nanoseconds, and a negative number of them is none. -/
theorem everyMillis_eq_every (ms : Int64) :
    ∃ d : Duration, (d.nanos : ℤ) = max (ms.toInt * 1_000_000) 0 ∧ Limit.everyMillis ms = .every d := by
  unfold Limit.everyMillis
  split
  · next h =>
    have hsign : ms.toInt ≤ 0 := Int64.le_iff_toInt_le.1 h
    refine ⟨.zero, ?_, rfl⟩
    rw [max_eq_right (by omega)]
    rfl
  · next h =>
    have hsign : ¬ ms.toInt ≤ 0 := fun hle => h (Int64.le_iff_toInt_le.2 hle)
    refine ⟨_, ?_, rfl⟩
    rw [max_eq_left (by omega)]
    exact Duration.ofMillis_nanos (by omega)

/-- Every way to set an interval comes to the same one. -/
theorem Setting.Sets.eq_every {nanos : ℤ} {limit : Limit} (h : Sets (.interval nanos) limit) :
    ∃ d : Duration, (d.nanos : ℤ) = max nanos 0 ∧ limit = .every d := by
  cases h with
  | span d => exact ⟨d, (max_eq_left (Int.natCast_nonneg _)).symm, rfl⟩
  | millis ms => exact everyMillis_eq_every ms
  | policyInterval hrate hms =>
    rw [Policy.limit_of_interval hrate hms]
    exact everyMillis_eq_every _

theorem every_antitone {d e : Duration} (h : d ≤ e) : (Limit.every e).toBinary64 ≤ (Limit.every d).toBinary64 := by
  by_cases hd : d = .zero
  · rw [hd]
    exact toBinary64_le_infinity _
  have hpos := Duration.nanos_pos hd
  have he : e ≠ .zero := by
    rintro rfl
    exact absurd (hpos.trans_le h) (lt_irrefl 0)
  obtain ⟨fast, hfast, hfast', -⟩ := every_eq_perSecond hd
  obtain ⟨slow, hslow, hslow', -⟩ := every_eq_perSecond he
  have hseconds := (two_zpow_pos (-31)).trans_le (roundedSeconds_bounds hd).1
  rw [hfast, hslow]
  refine (slow.denotes.le_iff fast.denotes).2 ?_
  rw [hfast', hslow']
  exact nearest_mono (one_div_le_one_div_of_le hseconds (roundedSeconds_mono h))

theorem denotes_every {d : Duration} (h : d ≠ .zero) :
    ∃ q, (Limit.every d).toBinary64.Denotes q ∧ 0 < q ∧ |q * d.exactSeconds - 1| ≤ 31 / 10 * 2 ^ (-53 : ℤ) := by
  obtain ⟨rate, hrate, hvalue, hpos⟩ := every_eq_perSecond h
  rw [hrate]
  refine ⟨rate.value, rate.denotes, hpos, ?_⟩
  rw [hvalue]
  exact abs_rate_mul_exactSeconds_sub_le h

theorem Setting.Sets.antitone {short long : ℤ} {limit limit' : Limit} (h : Sets (.interval short) limit)
    (h' : Sets (.interval long) limit') (hle : short ≤ long) : limit'.toBinary64 ≤ limit.toBinary64 := by
  obtain ⟨d, hd, rfl⟩ := h.eq_every
  obtain ⟨e, he, rfl⟩ := h'.eq_every
  apply every_antitone
  rw [Duration.le_iff]
  omega

theorem Setting.Sets.allows {setting : Setting} {limit : Limit} (h : Sets setting limit) : setting.Allows limit := by
  cases setting with
  | rate x =>
    cases h with
    | rate => exact toBinary64_ofRate x
    | policyRate hrate =>
      rw [Policy.limit_of_rate hrate]
      exact toBinary64_ofRate x
  | interval nanos =>
    obtain ⟨d, hd, rfl⟩ := h.eq_every
    dsimp only [Allows]
    split
    · next hpos =>
      rw [max_eq_left hpos.le] at hd
      have hzero : d ≠ .zero := by
        rintro rfl
        exact absurd hd hpos.ne
      have hseconds : (nanos : ℚ) / 1_000_000_000 = d.exactSeconds := by
        unfold Duration.exactSeconds
        rw [← hd, Int.cast_natCast]
      rw [hseconds]
      exact denotes_every hzero
    · next hneg =>
      have hzero : d = .zero := Duration.ext_nanos (show d.nanos = 0 by omega)
      exact if_pos hzero
  | nothing =>
    cases h with
    | policyNothing hrate hms => exact Policy.limit_of_none hrate hms

/-! ## Conversions -/

/-- Tokens and time in step: more time never earns less and more tokens never need less. Only a wait that
is too long for a duration is the longest one. -/
structure Limit.Convertible (limit : Limit) : Prop where
  earnedIn_ne_nan : ∀ d, limit.earnedIn d ≠ .nan
  earnedIn_mono : ∀ d e, d ≤ e → limit.earnedIn d ≤ limit.earnedIn e
  timeToEarn_mono : ∀ x y, x ≤ y → limit.timeToEarn x ≤ limit.timeToEarn y
  timeToEarn_eq_forever_iff : ∀ rate x, limit = .perSecond rate → 0 < x →
    (limit.timeToEarn x = .forever ↔
      rate.value = 0 ∨ ∀ p, x.Denotes p → Duration.forever.nanos ≤ rate.waitNanos p)

/-- At least as many tokens in every span, and at least as soon for every amount. -/
structure Limit.Outpaces (fast slow : Limit) : Prop where
  earnedIn_le : ∀ d, slow.earnedIn d ≤ fast.earnedIn d
  timeToEarn_le : ∀ x, fast.timeToEarn x ≤ slow.timeToEarn x

theorem Limit.convertible (limit : Limit) : limit.Convertible where
  earnedIn_ne_nan := Throttle.earnedIn_ne_nan limit
  earnedIn_mono _ _ := Throttle.earnedIn_mono limit
  timeToEarn_mono _ _ := Throttle.timeToEarn_mono limit
  timeToEarn_eq_forever_iff := by
    rintro rate x rfl h
    exact Throttle.timeToEarn_eq_forever_iff h

theorem outpaces_of_toBinary64_le {slow fast : Limit} (h : slow.toBinary64 ≤ fast.toBinary64) : fast.Outpaces slow := by
  cases fast with
  | unlimited =>
    refine ⟨fun d => ?_, fun x => ?_⟩
    · cases slow with
      | unlimited => rfl
      | perSecond rate => exact (earnedIn_saturates rate d).le_infinity
    · rw [timeToEarn_unlimited]
      exact Nat.zero_le _
  | perSecond fast =>
    cases slow with
    | unlimited => cases h
    | perSecond slow =>
      have hrates : slow.value ≤ fast.value := (slow.denotes.le_iff fast.denotes).1 h
      exact ⟨earnedIn_le_of_rate_le hrates, timeToEarn_le_of_rate_le hrates⟩

/-- Limits are well formed whatever they are set by, and a longer interval never sets a greater rate. The
conversions of each are in order, and so are those of a slower and a faster one. -/
theorem limits_ordered :
    (∀ setting limit, Setting.Sets setting limit → limit.WellFormed ∧ setting.Allows limit) ∧
      (∀ short long limit limit', Setting.Sets (.interval short) limit → Setting.Sets (.interval long) limit' →
        short ≤ long → limit'.toBinary64 ≤ limit.toBinary64) ∧
      (∀ limit : Limit, limit.Convertible) ∧
      ∀ slow fast : Limit, slow.toBinary64 ≤ fast.toBinary64 → fast.Outpaces slow :=
  ⟨fun _ limit h => ⟨limit.wellFormed, h.allows⟩, fun _ _ _ _ h h' => h.antitone h', Limit.convertible,
    fun _ _ => outpaces_of_toBinary64_le⟩

/-- A rate that is no number, the longest interval of a policy and the shortest one that there is, and a rate
so small that the wait for one token overflows before it is cut off. -/
theorem limits_ordered_of_extremes :
    let nanosecond : Duration := { nanos := 1 }
    let undefined : Policy := { ratePerSec := some .nan, intervalMs := some 1 }
    let longest : Policy := { intervalMs := some 9_223_372_036_854_775_807 }
    let least : Rate := ⟨2 ^ (-1074 : ℤ), ⟨1, -1074, by decide, by decide, by decide, (Rat.one_mul _).symm⟩,
      (two_zpow_pos _).le⟩
    undefined.limit.toBinary64 = 0 ∧
      longest.limit.toBinary64 ≤ (Limit.every nanosecond).toBinary64 ∧
      (Limit.every nanosecond).Outpaces longest.limit ∧
      (Limit.perSecond least).earnedIn nanosecond ≤ (Limit.perSecond least).earnedIn .forever ∧
      (Limit.perSecond least).timeToEarn (ofNat 1) = .forever := by
  intro nanosecond undefined longest least
  obtain ⟨hsets, hshort, hconvertible, hfaster⟩ := limits_ordered
  have hrates : longest.limit.toBinary64 ≤ (Limit.every nanosecond).toBinary64 :=
    hshort _ _ _ _ (.span nanosecond) (.policyInterval rfl rfl) (by decide)
  refine ⟨(hsets (.rate .nan) undefined.limit (.policyRate rfl)).2, hrates, hfaster _ _ hrates, ?_, ?_⟩
  · exact (hconvertible _).earnedIn_mono _ _ (by decide)
  · refine ((hconvertible _).timeToEarn_eq_forever_iff least _ rfl (by decide +kernel)).2 (.inr fun p hp => ?_)
    rw [hp.unique (denotes_natCast (by decide))]
    decide +kernel

end Throttle
