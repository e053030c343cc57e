import Throttle.Proofs.Limit.Conversion

/-!
# The order kept by the conversions of a rate

Rounding keeps the order of what is rounded, so the roundings of a quotient and of its nanoseconds do
not let a greater amount be earned in less time, and those of a number of seconds do not let a longer
span earn less. Nor do they let a faster rate be behind a slower one. Main statements: `timeToEarn_mono`,
over every limit and all comparable numbers, the infinities included, and `earnedIn_mono`, with
`timeToEarn_le_of_rate_le` and `earnedIn_le_of_rate_le` for the rates.
-/

set_option autoImplicit false

namespace Throttle
open Binary64

/-! ## Tokens earned -/

theorem nearest_subsec_lt_one (d : Duration) : nearest (d.subsecNanos / 1_000_000_000) < 1 := by
  have hsub : d.subsecNanos ≤ 999_999_999 := by
    have : d.subsecNanos < 1_000_000_000 := Nat.mod_lt _ (by decide)
    omega
  have hcast : (d.subsecNanos : ℚ) ≤ 999_999_999 := by exact_mod_cast hsub
  have hbelow : Expressible ((2 ^ 40 - 1 : ℤ) * 2 ^ (-40 : ℤ)) := ⟨2 ^ 40 - 1, -40, by decide, by decide, rfl⟩
  refine lt_of_le_of_lt (nearest_le_of_le hbelow ?_) (by norm_num)
  have hnum : (999_999_999 : ℚ) / 1_000_000_000 ≤ (2 ^ 40 - 1 : ℤ) * 2 ^ (-40 : ℤ) := by norm_num
  exact (div_le_div_of_nonneg_right hcast (by norm_num)).trans hnum

/-- The fraction of a second never carries a span beyond the next whole second. -/
theorem roundedSeconds_le_nearest {d : Duration} {n : ℕ} (h : d.seconds < n) : d.roundedSeconds ≤ nearest n := by
  have hfraction := nearest_subsec_lt_one d
  unfold Duration.roundedSeconds
  rcases le_or_gt d.seconds 9007199254740992 with hsmall | hlarge
  · apply nearest_mono
    have hnext : (d.seconds : ℚ) + 1 ≤ n := by exact_mod_cast h
    rw [nearest_of_expressible (expressible_natCast hsmall)]
    linarith
  · have hwhole : (9007199254740992 : ℚ) ≤ nearest d.seconds := by
      have hcast : ((9007199254740992 : ℕ) : ℚ) ≤ d.seconds := by exact_mod_cast hlarge.le
      have hle := le_nearest_of_le (expressible_natCast (le_refl _)) hcast
      rwa [Nat.cast_ofNat] at hle
    rw [nearest_add_of_large (expressible_nearest _) hwhole (nearest_nonneg d.subsec_bounds.1) hfraction]
    exact nearest_mono (by exact_mod_cast h.le)

theorem roundedSeconds_mono {d e : Duration} (h : d ≤ e) : d.roundedSeconds ≤ e.roundedSeconds := by
  rw [Duration.le_iff] at h
  have hseconds : d.seconds ≤ e.seconds := Nat.div_le_div_right h
  rcases hseconds.eq_or_lt with hsame | hlater
  · -- within a second the fractions decide
    have hsub : d.subsecNanos ≤ e.subsecNanos := by
      unfold Duration.seconds at hsame
      unfold Duration.subsecNanos
      omega
    have hcast : (d.subsecNanos : ℚ) ≤ e.subsecNanos := by exact_mod_cast hsub
    have hfraction := nearest_mono (div_le_div_of_nonneg_right hcast (show (0 : ℚ) ≤ 1_000_000_000 by norm_num))
    unfold Duration.roundedSeconds
    rw [hsame]
    exact nearest_mono (by linarith)
  · refine (roundedSeconds_le_nearest hlater).trans (le_nearest_of_le (expressible_nearest _) ?_)
    have hfraction := nearest_nonneg e.subsec_bounds.1
    linarith

/-- A longer span never earns less. -/
theorem rounded_earned_mono (rate : Rate) {d e : Duration} (h : d ≤ e) :
    nearest (rate.value * d.roundedSeconds) ≤ nearest (rate.value * e.roundedSeconds) :=
  nearest_mono (mul_le_mul_of_nonneg_left (roundedSeconds_mono h) rate.nonneg)

theorem earnedIn_ne_nan (limit : Limit) (d : Duration) : limit.earnedIn d ≠ nan := by
  cases limit with
  | unlimited => exact Binary64.noConfusion
  | perSecond rate => exact (earnedIn_saturates rate d).ne_nan

theorem earnedIn_mono (limit : Limit) {d e : Duration} (h : d ≤ e) : limit.earnedIn d ≤ limit.earnedIn e := by
  cases limit with
  | unlimited => rfl
  | perSecond rate => exact (earnedIn_saturates rate d).le (earnedIn_saturates rate e) (rounded_earned_mono rate h)

/-- A faster rate never earns less. -/
theorem earnedIn_le_of_rate_le {slow fast : Rate} (h : slow.value ≤ fast.value) (d : Duration) :
    (Limit.perSecond slow).earnedIn d ≤ (Limit.perSecond fast).earnedIn d :=
  (earnedIn_saturates slow d).le (earnedIn_saturates fast d)
    (nearest_mono (mul_le_mul_of_nonneg_right h d.roundedSeconds_nonneg))

/-! ## Time to earn -/

theorem timeToEarn_infinity (rate : Rate) : (Limit.perSecond rate).timeToEarn (infinity false) = .forever := by
  have hquotient : infinity false / rate.toBinary64 = infinity (false != (rate.value < 0)) := rfl
  unfold Limit.timeToEarn
  rw [if_neg (by decide)]
  dsimp only
  rw [hquotient]
  split <;> rfl

theorem timeToEarn_nan (rate : Rate) : (Limit.perSecond rate).timeToEarn nan = .forever := by
  have hquotient : nan / rate.toBinary64 = nan := rfl
  unfold Limit.timeToEarn
  rw [if_neg (by decide)]
  dsimp only
  rw [hquotient]
  split <;> rfl

theorem timeToEarn_unlimited (x : Binary64) : Limit.unlimited.timeToEarn x = .zero := by
  unfold Limit.timeToEarn
  exact ite_self _

/-- The two roundings of a wait keep the order of the quotients. -/
theorem waitNanos_le_of_div_le {rate rate' : Rate} {p q : ℚ} (h : p / rate.value ≤ q / rate'.value) :
    rate.waitNanos p ≤ rate'.waitNanos q := by
  have hbillion : (0 : ℚ) ≤ 1_000_000_000 := by norm_num
  have hnanos := nearestInt_mono (mul_le_mul_of_nonneg_right (nearest_mono h) hbillion)
  unfold Rate.waitNanos
  omega

theorem waitNanos_mono {rate : Rate} (hr : 0 < rate.value) {p q : ℚ} (h : p ≤ q) :
    rate.waitNanos p ≤ rate.waitNanos q :=
  waitNanos_le_of_div_le (div_le_div_of_nonneg_right h hr.le)

theorem timeToEarn_mono_of_denotes (rate : Rate) {x y : Binary64} {p q : ℚ} (hx : x.Denotes p) (hy : y.Denotes q)
    (h : p ≤ q) : (Limit.perSecond rate).timeToEarn x ≤ (Limit.perSecond rate).timeToEarn y := by
  rcases le_or_gt p 0 with hp | hp
  · rw [timeToEarn_of_nonpos _ hx hp]
    exact Nat.zero_le _
  · have hq : 0 < q := by linarith
    rcases rate.nonneg.eq_or_lt with hr | hr
    · rw [timeToEarn_of_rate_zero hr.symm hx hp, timeToEarn_of_rate_zero hr.symm hy hq]
      exact Nat.le_refl _
    · have hwait := waitNanos_mono hr h
      rw [Duration.le_iff, nanos_timeToEarn hr hx hp, nanos_timeToEarn hr hy hq]
      omega

/-- A greater amount is never earned in less time. -/
theorem timeToEarn_mono (limit : Limit) {x y : Binary64} (h : x ≤ y) :
    limit.timeToEarn x ≤ limit.timeToEarn y := by
  cases limit with
  | unlimited =>
    rw [timeToEarn_unlimited]
    exact Nat.zero_le _
  | perSecond rate =>
    rcases le_cases h with rfl | rfl | ⟨p, q, hx, hy, hpq⟩
    · exact Nat.zero_le _
    · rw [timeToEarn_infinity]
      exact Duration.le_forever _
    · exact timeToEarn_mono_of_denotes rate hx hy hpq

/-- A faster rate never takes longer, whatever the amount is. -/
theorem timeToEarn_le_of_rate_le {slow fast : Rate} (h : slow.value ≤ fast.value) (x : Binary64) :
    (Limit.perSecond fast).timeToEarn x ≤ (Limit.perSecond slow).timeToEarn x := by
  rcases x.shape with rfl | rfl | rfl | ⟨p, hx⟩
  · rw [timeToEarn_nan, timeToEarn_nan]
    exact Nat.le_refl _
  · exact Nat.zero_le _
  · rw [timeToEarn_infinity, timeToEarn_infinity]
    exact Nat.le_refl _
  rcases le_or_gt p 0 with hp | hp
  · rw [timeToEarn_of_nonpos _ hx hp]
    exact Nat.zero_le _
  rcases slow.nonneg.eq_or_lt with hslow | hslow
  · rw [timeToEarn_of_rate_zero hslow.symm hx hp]
    exact Duration.le_forever _
  · have hwait : fast.waitNanos p ≤ slow.waitNanos p :=
      waitNanos_le_of_div_le (div_le_div_of_nonneg_left hp.le hslow h)
    rw [Duration.le_iff, nanos_timeToEarn (hslow.trans_le h) hx hp, nanos_timeToEarn hslow hx hp]
    omega

/-- A wait is cut off where no span is enough, and where the nanoseconds reach the longest span. -/
theorem timeToEarn_eq_forever_iff {rate : Rate} {x : Binary64} (h : 0 < x) :
    (Limit.perSecond rate).timeToEarn x = .forever ↔
      rate.value = 0 ∨ ∀ p, x.Denotes p → Duration.forever.nanos ≤ rate.waitNanos p := by
  rcases x.shape with rfl | rfl | rfl | ⟨p, hx⟩
  · exact absurd h (not_lt_nan 0)
  · cases h
  · refine iff_of_true (timeToEarn_infinity rate) (.inr fun p hp => ?_)
    cases hp
  have hp : 0 < p := (denotes_ofNat_zero.lt_iff hx).1 h
  rcases rate.nonneg.eq_or_lt with hr | hr
  · exact iff_of_true (timeToEarn_of_rate_zero hr.symm hx hp) (.inl hr.symm)
  have hnanos := nanos_timeToEarn hr hx hp
  constructor
  · intro hforever
    rw [hforever] at hnanos
    refine .inr fun q hq => ?_
    rw [hq.unique hx]
    omega
  · rintro (hzero | hlong)
    · exact absurd hzero hr.ne'
    · have hcut := hlong p hx
      exact Duration.ext_nanos (by omega)

end Throttle
