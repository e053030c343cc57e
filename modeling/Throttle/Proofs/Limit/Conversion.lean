import Throttle.Limit
import Throttle.Proofs.Binary64.Denotation

/-!
# What the conversions of a rate denote

The number of seconds of a span, the tokens earned in it and the span in which an amount is earned,
each as a rational expression with its roundings in place, and how far each is from its exact value.
-/

set_option autoImplicit false

namespace Throttle
open Binary64

/-! ## The relative error of a rounding -/

theorem roundoff_pos : 0 < (2 : ℚ) ^ (-53 : ℤ) := two_zpow_pos _

theorem roundoff_le : (2 : ℚ) ^ (-53 : ℤ) ≤ 1 / 1000 := by norm_num

theorem roundoff_sq : (2 : ℚ) ^ (-106 : ℤ) = 2 ^ (-53 : ℤ) * 2 ^ (-53 : ℤ) := by
  rw [← two_zpow_add]
  rfl

/-- Rounding does not take the sign from a difference. -/
theorem nearest_sub_nonneg_iff {p q : ℚ} (hp : Expressible p) (hq : Expressible q) :
    0 ≤ nearest (p - q) ↔ q ≤ p := by
  refine ⟨fun h => ?_, fun h => nearest_nonneg (sub_nonneg.2 h)⟩
  by_contra hlt
  have hneg : p - q < 0 := sub_neg.2 (not_le.1 hlt)
  have herror := (abs_le.1 (abs_nearest_sub_le_of_onGrid (hp.onGrid.sub hq.onGrid))).2
  rw [abs_of_neg hneg] at herror
  have hsmall := mul_le_mul_of_nonneg_left roundoff_le (neg_pos.2 hneg).le
  generalize (2 : ℚ) ^ (-53 : ℤ) = u at *
  generalize p - q = d at *
  linarith

/-! ## Seconds -/

def Duration.exactSeconds (d : Duration) : ℚ := d.nanos / 1_000_000_000

/-- The number of seconds of a span after the three roundings of `toSeconds`. -/
def Duration.roundedSeconds (d : Duration) : ℚ :=
  nearest (nearest d.seconds + nearest (d.subsecNanos / 1_000_000_000))

theorem expressible_natCast {n : ℕ} (h : n ≤ 9007199254740992) : Expressible n :=
  ⟨n, 0, by rwa [Int.natAbs_natCast], by omega, by rw [zpow_zero, mul_one, Int.cast_natCast]⟩

theorem denotes_natCast {n : ℕ} (h : n ≤ 9007199254740992) : (ofNat n).Denotes n := by
  have hexact := nearest_of_expressible (expressible_natCast h)
  have hbound : |nearest (n : ℚ)| < 2 ^ (1024 : ℤ) := by
    rw [hexact, abs_of_nonneg (Nat.cast_nonneg n)]
    calc (n : ℚ) ≤ ((9007199254740992 : ℕ) : ℚ) := Nat.cast_le.2 h
      _ = 2 ^ (53 : ℤ) := by norm_num
      _ < 2 ^ (1024 : ℤ) := zpow_lt_zpow_right₀ one_lt_two (by omega)
  have h := denotes_ofRat hbound
  rwa [hexact] at h

theorem Duration.nanos_forever : Duration.forever.nanos = 18_446_744_073_709_551_615_999_999_999 := rfl

theorem Duration.nanos_pos {d : Duration} (h : d ≠ .zero) : 0 < d.nanos :=
  Nat.pos_of_ne_zero fun hzero => h (Duration.ext_nanos hzero)

theorem Duration.exactSeconds_nonneg (d : Duration) : 0 ≤ d.exactSeconds :=
  div_nonneg (Nat.cast_nonneg _) (by norm_num)

theorem Duration.exactSeconds_eq (d : Duration) :
    d.exactSeconds = d.seconds + d.subsecNanos / 1_000_000_000 := by
  have h : (d.nanos : ℚ) = 1_000_000_000 * d.seconds + d.subsecNanos := by
    exact_mod_cast (Nat.div_add_mod d.nanos 1_000_000_000).symm
  unfold exactSeconds
  rw [h]
  ring

theorem Duration.seconds_le (d : Duration) : (d.seconds : ℚ) ≤ 2 ^ (64 : ℤ) := by
  have h : d.seconds ≤ 18446744073709551616 := by
    have := d.inRange
    unfold seconds
    omega
  rw [← two_pow_64_eq]
  exact_mod_cast h

theorem Duration.subsec_bounds (d : Duration) :
    0 ≤ (d.subsecNanos : ℚ) / 1_000_000_000 ∧ (d.subsecNanos : ℚ) / 1_000_000_000 ≤ 1 := by
  have h : d.subsecNanos ≤ 1_000_000_000 := le_of_lt (Nat.mod_lt _ (by decide))
  have hcast : (d.subsecNanos : ℚ) ≤ 1_000_000_000 := by exact_mod_cast h
  refine ⟨div_nonneg (Nat.cast_nonneg _) (by norm_num), ?_⟩
  rw [div_le_one (by norm_num)]
  exact hcast

theorem Duration.rounded_parts_bounds (d : Duration) :
    0 ≤ nearest d.seconds + nearest (d.subsecNanos / 1_000_000_000) ∧
      nearest d.seconds + nearest (d.subsecNanos / 1_000_000_000) ≤ 2 ^ (65 : ℤ) := by
  obtain ⟨hlow, hhigh⟩ := d.subsec_bounds
  have h1 := nearest_nonneg (Nat.cast_nonneg (α := ℚ) d.seconds)
  have h2 := nearest_nonneg hlow
  have h3 := nearest_le_of_le (expressible_zpow (by omega)) d.seconds_le
  have h4 : nearest (d.subsecNanos / 1_000_000_000) ≤ ((1 : ℕ) : ℚ) :=
    nearest_le_of_le (expressible_natCast (by omega)) (by rwa [Nat.cast_one])
  rw [Nat.cast_one] at h4
  have h5 : (2 : ℚ) ^ (64 : ℤ) + 1 ≤ 2 ^ (65 : ℤ) := by norm_num
  constructor <;> linarith

theorem Duration.roundedSeconds_nonneg (d : Duration) : 0 ≤ d.roundedSeconds :=
  nearest_nonneg d.rounded_parts_bounds.1

@[simp] theorem Duration.roundedSeconds_zero : Duration.roundedSeconds .zero = 0 := by
  show nearest (nearest ((0 : ℕ) : ℚ) + nearest (((0 : ℕ) : ℚ) / 1_000_000_000)) = 0
  rw [Nat.cast_zero, zero_div, nearest_zero, add_zero, nearest_zero]

theorem Duration.denotes_toSeconds (d : Duration) : d.toSeconds.Denotes d.roundedSeconds := by
  have hsub : d.subsecNanos ≤ 9007199254740992 := by
    have : d.subsecNanos < 1_000_000_000 := Nat.mod_lt _ (by decide)
    omega
  have hbillion := denotes_natCast (n := 1_000_000_000) (by omega)
  rw [Nat.cast_ofNat] at hbillion
  obtain ⟨hlow, hhigh⟩ := d.subsec_bounds
  have small : ∀ q : ℚ, 0 ≤ q → q ≤ 2 ^ (65 : ℤ) → |nearest q| < 2 ^ (1024 : ℤ) := by
    intro q hq hle
    rw [abs_of_nonneg (nearest_nonneg hq)]
    exact (nearest_le_of_le (expressible_zpow (by omega)) hle).trans_lt (zpow_lt_zpow_right₀ one_lt_two (by omega))
  have hwhole : (ofNat d.seconds).Denotes (nearest d.seconds) :=
    denotes_ofRat (small _ (Nat.cast_nonneg _) (d.seconds_le.trans (zpow_le_zpow_right₀ one_le_two (by omega))))
  have hfraction := (denotes_natCast hsub).div hbillion (by norm_num)
    (small _ hlow (hhigh.trans (by norm_num)))
  exact hwhole.add hfraction (small _ d.rounded_parts_bounds.1 d.rounded_parts_bounds.2)

theorem abs_nearest_subsec_sub_le (d : Duration) :
    |nearest (d.subsecNanos / 1_000_000_000) - d.subsecNanos / 1_000_000_000| ≤
      d.subsecNanos / 1_000_000_000 * 2 ^ (-53 : ℤ) := by
  have hnonneg := d.subsec_bounds.1
  rcases Nat.eq_zero_or_pos d.subsecNanos with h | h
  · rw [h, Nat.cast_zero, zero_div, nearest_zero, sub_zero, abs_zero, zero_mul]
  · have hone : (1 : ℚ) ≤ d.subsecNanos := by exact_mod_cast h
    have hnormal : (2 : ℚ) ^ (-1022 : ℤ) ≤ |(d.subsecNanos : ℚ) / 1_000_000_000| := by
      rw [abs_of_nonneg hnonneg, le_div_iff₀ (by norm_num)]
      have : (2 : ℚ) ^ (-1022 : ℤ) ≤ 2 ^ (-30 : ℤ) := zpow_le_zpow_right₀ one_le_two (by omega)
      have : (2 : ℚ) ^ (-30 : ℤ) * 1_000_000_000 ≤ 1 := by norm_num
      linarith
    have herr := abs_nearest_sub_le_of_normal hnormal
    rwa [abs_of_nonneg hnonneg] at herr

/-- Two roundings follow each other for each part of the span. -/
theorem abs_roundedSeconds_sub_le (d : Duration) :
    |d.roundedSeconds - d.exactSeconds| ≤ d.exactSeconds * (2 * 2 ^ (-53 : ℤ) + 2 ^ (-106 : ℤ)) := by
  have hwhole := abs_nearest_sub_le_of_onGrid (onGrid_natCast d.seconds)
  rw [abs_of_nonneg (Nat.cast_nonneg (α := ℚ) d.seconds)] at hwhole
  have hfraction := abs_nearest_subsec_sub_le d
  have hsum := abs_nearest_sub_le_of_onGrid
    ((expressible_nearest d.seconds).onGrid.add (expressible_nearest (d.subsecNanos / 1_000_000_000)).onGrid)
  rw [abs_of_nonneg d.rounded_parts_bounds.1] at hsum
  have hu := roundoff_pos
  unfold Duration.roundedSeconds
  rw [d.exactSeconds_eq, roundoff_sq]
  generalize (2 : ℚ) ^ (-53 : ℤ) = u at *
  generalize nearest d.seconds = w at *
  generalize nearest (d.subsecNanos / 1_000_000_000) = f at *
  rw [abs_le] at hwhole hfraction hsum ⊢
  have hparts : w + f ≤ (d.seconds + d.subsecNanos / 1_000_000_000) * (1 + u) := by linarith
  have hscaled := mul_le_mul_of_nonneg_right hparts hu.le
  constructor <;> linarith

/-! ## Tokens earned -/

theorem Rate.denotes (rate : Rate) : rate.toBinary64.Denotes rate.value :=
  .finite _ _

theorem earnedIn_saturates (rate : Rate) (d : Duration) :
    ((Limit.perSecond rate).earnedIn d).Saturates (nearest (rate.value * d.roundedSeconds)) :=
  rate.denotes.mul_saturates d.denotes_toSeconds (mul_nonneg rate.nonneg d.roundedSeconds_nonneg)

/-! ## Time to earn -/

/-- The whole nanoseconds in which an amount is earned at a rate, whether or not they are in range. -/
def Rate.waitNanos (rate : Rate) (amount : ℚ) : ℕ :=
  (nearestInt (nearest (amount / rate.value) * 1_000_000_000)).toNat

theorem nanos_ofNanos?_getD (n : ℕ) :
    ((Duration.ofNanos? n).getD .forever).nanos = min n Duration.forever.nanos := by
  have hforever := Duration.nanos_forever
  unfold Duration.ofNanos?
  split
  · show n = min n _
    omega
  · show Duration.forever.nanos = min n _
    omega

theorem nanos_ofSeconds?_getD {x : Binary64} {q : ℚ} (hx : x.Saturates q) (hq : 0 ≤ q) :
    ((Duration.ofSeconds? x).getD .forever).nanos =
      min (nearestInt (q * 1_000_000_000)).toNat Duration.forever.nanos := by
  rcases hx with hx | ⟨rfl, hlarge⟩
  · cases hx with
    | negZero =>
      rw [zero_mul, show nearestInt (0 : ℚ) = 0 from nearestInt_intCast 0]
      rfl
    | finite q h =>
      unfold Duration.ofSeconds?
      dsimp only
      rw [if_neg (not_lt.2 hq)]
      exact nanos_ofNanos?_getD _
  · have hfar : (18_446_744_073_709_551_615_999_999_999 : ℤ) ≤ nearestInt (q * 1_000_000_000) := by
      apply le_nearestInt
      have hpow : (2 : ℚ) ^ (70 : ℤ) ≤ q := (zpow_le_zpow_right₀ one_le_two (by omega)).trans hlarge
      have hnum : ((18_446_744_073_709_551_615_999_999_999 : ℤ) : ℚ) ≤ 2 ^ (70 : ℤ) * 1_000_000_000 := by
        norm_num
      exact hnum.trans (mul_le_mul_of_nonneg_right hpow (by norm_num))
    show Duration.forever.nanos = _
    have hforever := Duration.nanos_forever
    omega

theorem nanos_timeToEarn {rate : Rate} {x : Binary64} {p : ℚ} (hr : 0 < rate.value) (hx : x.Denotes p)
    (hp : 0 < p) :
    ((Limit.perSecond rate).timeToEarn x).nanos = min (rate.waitNanos p) Duration.forever.nanos := by
  have hpos : ¬ x ≤ 0 := by
    rw [hx.le_iff denotes_ofNat_zero, not_le]
    exact hp
  have hquotient := div_nonneg (le_of_lt hp) (le_of_lt hr)
  unfold Limit.timeToEarn
  simp only [if_neg hpos, if_pos hr]
  exact nanos_ofSeconds?_getD (hx.div_saturates rate.denotes (ne_of_gt hr) hquotient)
    (nearest_nonneg hquotient)

theorem timeToEarn_of_nonpos {x : Binary64} {p : ℚ} (limit : Limit) (hx : x.Denotes p) (hp : p ≤ 0) :
    limit.timeToEarn x = .zero := by
  unfold Limit.timeToEarn
  rw [if_pos ((hx.le_iff denotes_ofNat_zero).2 hp)]

theorem timeToEarn_of_rate_zero {rate : Rate} {x : Binary64} {p : ℚ} (hr : rate.value = 0)
    (hx : x.Denotes p) (hp : 0 < p) : (Limit.perSecond rate).timeToEarn x = .forever := by
  have hpos : ¬ x ≤ 0 := by
    rw [hx.le_iff denotes_ofNat_zero, not_le]
    exact hp
  unfold Limit.timeToEarn
  simp only [if_neg hpos, hr, lt_irrefl, if_false]

/-- The quotient is rounded, and then its nanoseconds are. -/
theorem abs_waitNanos_sub_le (rate : Rate) {p : ℚ} (hp : 0 ≤ p) :
    |(rate.waitNanos p : ℚ) - p / rate.value * 1_000_000_000| ≤
      p / rate.value * 1_000_000_000 * 2 ^ (-53 : ℤ) + 6 / 10 := by
  have hexact := div_nonneg hp rate.nonneg
  have hquotient := abs_nearest_sub_le (p / rate.value)
  rw [abs_of_nonneg hexact] at hquotient
  have hround := abs_nearestInt_sub_le_half (nearest (p / rate.value) * 1_000_000_000)
  have hnonneg : 0 ≤ nearestInt (nearest (p / rate.value) * 1_000_000_000) :=
    le_nearestInt (by rw [Int.cast_zero]; exact mul_nonneg (nearest_nonneg hexact) (by norm_num))
  have hcast : (nearestInt (nearest (p / rate.value) * 1_000_000_000) : ℚ) = rate.waitNanos p := by
    exact_mod_cast (Int.toNat_of_nonneg hnonneg).symm
  have htiny : (2 : ℚ) ^ (-1075 : ℤ) ≤ 1 / 10 ^ 10 := by
    calc (2 : ℚ) ^ (-1075 : ℤ) ≤ 2 ^ (-40 : ℤ) := zpow_le_zpow_right₀ one_le_two (by omega)
      _ ≤ 1 / 10 ^ 10 := by norm_num
  rw [hcast] at hround
  rw [abs_le] at hquotient hround ⊢
  constructor <;> linarith

/-- What is earned in a wait differs from the amount waited for by one rounding of the quotient and a bit
more than half a nanosecond. -/
theorem abs_earned_in_waitNanos_sub_le {rate : Rate} (hr : 0 < rate.value) {p : ℚ} (hp : 0 ≤ p) :
    |rate.value * (rate.waitNanos p / 1_000_000_000) - p| ≤ p * 2 ^ (-53 : ℤ) + rate.value * (6 / 10 ^ 10) := by
  have hwait := abs_waitNanos_sub_le rate hp
  have hp' : rate.value * (p / rate.value) = p := mul_div_cancel₀ p hr.ne'
  have hsplit : rate.value * (rate.waitNanos p / 1_000_000_000) - p =
      (rate.waitNanos p - p / rate.value * 1_000_000_000) * (rate.value / 1_000_000_000) := by
    calc _ = rate.value * (rate.waitNanos p / 1_000_000_000) - rate.value * (p / rate.value) := by rw [hp']
      _ = _ := by ring
  have hscaled := mul_le_mul_of_nonneg_right hwait (show 0 ≤ rate.value / 1_000_000_000 by linarith)
  rw [hsplit, abs_mul, abs_of_nonneg (show 0 ≤ rate.value / 1_000_000_000 by linarith)]
  calc _ ≤ (p / rate.value * 1_000_000_000 * 2 ^ (-53 : ℤ) + 6 / 10) * (rate.value / 1_000_000_000) := hscaled
    _ = rate.value * (p / rate.value) * 2 ^ (-53 : ℤ) + rate.value * (6 / 10 ^ 10) := by ring
    _ = _ := by rw [hp']

/-- A wait that is not cut off earns its amount, up to one rounding of the quotient and a bit more
than half a nanosecond. -/
theorem amount_le_earned_in_wait {rate : Rate} {x : Binary64} {p : ℚ} (hx : x.Denotes p) (hp : 0 ≤ p)
    (h : (Limit.perSecond rate).timeToEarn x < .forever) :
    p ≤ rate.value * ((Limit.perSecond rate).timeToEarn x).exactSeconds + p * 2 ^ (-53 : ℤ) +
      rate.value * (6 / 10 ^ 10) := by
  rcases hp.eq_or_lt with rfl | hp
  · have h1 := mul_nonneg rate.nonneg ((Limit.perSecond rate).timeToEarn x).exactSeconds_nonneg
    have h2 := rate.nonneg
    linarith
  rcases rate.nonneg.eq_or_lt with hr | hr
  · rw [timeToEarn_of_rate_zero hr.symm hx hp] at h
    exact absurd h (Nat.lt_irrefl _)
  have hnanos := nanos_timeToEarn hr hx hp
  rw [Duration.lt_iff] at h
  have hwait : ((Limit.perSecond rate).timeToEarn x).nanos = rate.waitNanos p := by omega
  have hearned := (abs_le.1 (abs_earned_in_waitNanos_sub_le hr hp.le)).1
  unfold Duration.exactSeconds
  rw [hwait]
  linarith

/-- A wait earns no more than its amount, up to the same roundings. -/
theorem earned_in_wait_le {rate : Rate} {x : Binary64} {p : ℚ} (hr : 0 < rate.value) (hx : x.Denotes p)
    (hp : 0 ≤ p) :
    rate.value * ((Limit.perSecond rate).timeToEarn x).exactSeconds ≤
      p + p * 2 ^ (-53 : ℤ) + rate.value * (6 / 10 ^ 10) := by
  have hle : (((Limit.perSecond rate).timeToEarn x).nanos : ℚ) ≤ rate.waitNanos p := by
    rcases hp.eq_or_lt with rfl | hp
    · rw [timeToEarn_of_nonpos _ hx (le_refl _)]
      exact_mod_cast Nat.zero_le _
    · rw [nanos_timeToEarn hr hx hp]
      exact_mod_cast min_le_left _ _
  have hscaled := mul_le_mul_of_nonneg_left (div_le_div_of_nonneg_right hle (show (0 : ℚ) ≤ 1_000_000_000 by norm_num)) hr.le
  have hearned := (abs_le.1 (abs_earned_in_waitNanos_sub_le hr hp)).2
  unfold Duration.exactSeconds
  linarith

end Throttle
