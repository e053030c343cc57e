import Throttle.Bucket
import Throttle.Proofs.Limit.Conversion

/-!
# Balances

What a bucket holds and what its balance is at an instant, as rationals. Under a rate the balance
lies between nothing and the capacity whatever the bucket, a balance that is not a number included.
-/

set_option autoImplicit false

namespace Throttle
open Binary64

/-! ## The capacity -/

/-- The capacity of a bucket as a rational: the burst, rounded. -/
def fullBalance (burst : UInt64) : ℚ := nearest burst.toNat

theorem denotes_capacity (burst : UInt64) : (capacity burst).Denotes (fullBalance burst) :=
  denotes_word burst

theorem fullBalance_nonneg (burst : UInt64) : 0 ≤ fullBalance burst :=
  nearest_nonneg (Nat.cast_nonneg _)

theorem fullBalance_mono {m n : UInt64} (h : m ≤ n) : fullBalance m ≤ fullBalance n :=
  nearest_mono (Nat.cast_le.2 (UInt64.le_iff_toNat_le.1 h))

/-- A balance within the capacity. -/
def InRange (burst : UInt64) (x : Binary64) : Prop :=
  ∃ q, x.Denotes q ∧ 0 ≤ q ∧ q ≤ fullBalance burst

theorem inRange_zero (burst : UInt64) : InRange burst 0 :=
  ⟨0, denotes_ofNat_zero, le_refl _, fullBalance_nonneg burst⟩

theorem inRange_capacity (burst : UInt64) : InRange burst (capacity burst) :=
  ⟨_, denotes_capacity burst, fullBalance_nonneg burst, le_refl _⟩

theorem InRange.bounds {burst : UInt64} {x : Binary64} (h : InRange burst x) :
    x.isNaN = false ∧ 0 ≤ x ∧ x ≤ capacity burst := by
  obtain ⟨q, hx, h0, hfull⟩ := h
  exact ⟨hx.isNaN_eq, (denotes_ofNat_zero.le_iff hx).2 h0, (hx.le_iff (denotes_capacity burst)).2 hfull⟩

theorem inRange_min_capacity {m : UInt64} (n : UInt64) {x : Binary64} (h : InRange m x) :
    InRange n (Binary64.min x (capacity n)) := by
  obtain ⟨q, hx, h0, _⟩ := h
  exact ⟨_, hx.min (denotes_capacity n), le_min h0 (fullBalance_nonneg n), min_le_right _ _⟩

namespace Bucket

variable (b : Bucket) (rate : Rate) (burst : UInt64) (now : Instant)

/-! ## The balance held -/

theorem held_eq_nan_or_inRange : b.held burst = nan ∨ InRange burst (b.held burst) := by
  have hcap := denotes_capacity burst
  unfold held clamp
  cases htokens : b.tokens with
  | nan =>
    rw [if_neg (not_nan_lt 0), if_neg (not_lt_nan _)]
    exact .inl rfl
  | infinity negative =>
    cases negative with
    | true => exact .inr (inRange_zero burst)
    | false =>
      rw [if_neg (by decide), if_pos hcap.lt_infinity]
      exact .inr (inRange_capacity burst)
  | negZero =>
    have hzero := Denotes.negZero
    rw [if_neg (by rw [hzero.lt_iff denotes_ofNat_zero]; exact lt_irrefl 0),
      if_neg (by rw [hcap.lt_iff hzero, not_lt]; exact fullBalance_nonneg burst)]
    exact .inr ⟨0, hzero, le_refl _, fullBalance_nonneg burst⟩
  | finite q h =>
    have hq := Denotes.finite q h
    split
    · exact .inr (inRange_zero burst)
    · next hlow =>
      split
      · exact .inr (inRange_capacity burst)
      · next hhigh =>
        rw [hq.lt_iff denotes_ofNat_zero, not_lt] at hlow
        rw [hcap.lt_iff hq, not_lt] at hhigh
        exact .inr ⟨q, hq, hlow, hhigh⟩

variable {b burst}

theorem held_eq_tokens (h : InRange burst b.tokens) : b.held burst = b.tokens := by
  obtain ⟨q, hq, hlow, hhigh⟩ := h
  unfold held clamp
  rw [if_neg (by rw [hq.lt_iff denotes_ofNat_zero, not_lt]; exact hlow),
    if_neg (by rw [(denotes_capacity burst).lt_iff hq, not_lt]; exact hhigh)]

theorem denotes_held {q : ℚ} (hq : b.tokens.Denotes q) (h0 : 0 ≤ q) (hfull : q ≤ fullBalance burst) :
    (b.held burst).Denotes q := by
  rw [held_eq_tokens ⟨q, hq, h0, hfull⟩]
  exact hq

/-! ## The balance at an instant -/

theorem balanceAt_of_due {limit : Limit} {now : Instant}
    (h : limit.timeToEarn (capacity burst - b.held burst) ≤ b.idle now) :
    b.balanceAt limit burst now = capacity burst := if_pos h

theorem balanceAt_of_held_nan (h : b.held burst = nan) :
    b.balanceAt (.perSecond rate) burst now = capacity burst := by
  have hsum : nan + (Limit.perSecond rate).earnedIn (b.idle now) = nan := by
    cases (Limit.perSecond rate).earnedIn (b.idle now) <;> rfl
  unfold balanceAt
  rw [h, hsum, nan_min, ite_self]

theorem denotes_missing {q : ℚ} (h : (b.held burst).Denotes q) (h0 : 0 ≤ q) (hq : q ≤ fullBalance burst) :
    (capacity burst - b.held burst).Denotes (nearest (fullBalance burst - q)) := by
  apply (denotes_capacity burst).sub h
  rw [abs_of_nonneg (nearest_nonneg (sub_nonneg.2 hq))]
  have hle : nearest (fullBalance burst - q) ≤ fullBalance burst :=
    nearest_le_of_le (denotes_capacity burst).expressible (by linarith)
  exact hle.trans_lt ((le_abs_self _).trans_lt (denotes_capacity burst).abs_lt)

/-- The balance is full once the idle time earns what is missing, and else what was held and what
was earned, each rounded, up to the capacity. -/
theorem balanceAt_full_or {q : ℚ} (h : (b.held burst).Denotes q) (h0 : 0 ≤ q) :
    ((Limit.perSecond rate).timeToEarn (capacity burst - b.held burst) ≤ b.idle now ∧
        b.balanceAt (.perSecond rate) burst now = capacity burst) ∨
      (b.balanceAt (.perSecond rate) burst now).Denotes
        (min (nearest (q + nearest (rate.value * (b.idle now).roundedSeconds))) (fullBalance burst)) := by
  unfold balanceAt
  split
  · next hdue => exact .inl ⟨hdue, rfl⟩
  · have hearned := mul_nonneg rate.nonneg (b.idle now).roundedSeconds_nonneg
    have hsum := h.add_saturates (earnedIn_saturates rate (b.idle now)) h0 (nearest_nonneg hearned)
    exact .inr (hsum.min (denotes_capacity burst))

variable (b burst)

theorem inRange_balanceAt : InRange burst (b.balanceAt (.perSecond rate) burst now) := by
  rcases b.held_eq_nan_or_inRange burst with h | ⟨q, hq, h0, _⟩
  · rw [balanceAt_of_held_nan rate now h]
    exact inRange_capacity burst
  · rcases balanceAt_full_or rate now hq h0 with ⟨_, h⟩ | h
    · rw [h]
      exact inRange_capacity burst
    · have hearned := mul_nonneg rate.nonneg (b.idle now).roundedSeconds_nonneg
      have hsum := nearest_nonneg (add_nonneg h0 (nearest_nonneg hearned))
      exact ⟨_, h, le_min hsum (fullBalance_nonneg burst), min_le_right _ _⟩

theorem inRange_settle (limit : Limit) (h : InRange burst b.tokens) :
    InRange burst (b.settle limit burst now).tokens := by
  cases limit with
  | unlimited => exact h
  | perSecond rate => exact b.inRange_balanceAt rate burst now

/-! ## Special balances -/

variable {b rate burst now}

theorem balanceAt_of_unused (limit : Limit) (h : b.last = none) :
    b.balanceAt limit burst now = capacity burst := by
  unfold balanceAt idle
  rw [h]
  exact if_pos (Duration.le_forever _)

theorem balanceAt_of_full (limit : Limit) (h : b.tokens = capacity burst) :
    b.balanceAt limit burst now = capacity burst := by
  have hcap := denotes_capacity burst
  have hheld : b.held burst = capacity burst := by
    rw [held_eq_tokens (h ▸ inRange_capacity burst), h]
  have hmissing := denotes_missing (hheld ▸ hcap) (fullBalance_nonneg burst) (le_refl _)
  rw [sub_self, nearest_zero, hheld] at hmissing
  unfold balanceAt
  rw [hheld, timeToEarn_of_nonpos limit hmissing (le_refl _)]
  exact if_pos (Nat.zero_le _)

/-- Where no time has passed the balance is what is held, unless the rest is earned in no time. -/
theorem balanceAt_of_idle_zero {q : ℚ} (hidle : b.idle now = .zero) (hq : b.tokens.Denotes q)
    (h0 : 0 ≤ q) (hfull : q ≤ fullBalance burst) :
    ((Limit.perSecond rate).timeToEarn (capacity burst - b.tokens) = .zero ∧
        b.balanceAt (.perSecond rate) burst now = capacity burst) ∨
      ((Limit.perSecond rate).timeToEarn (capacity burst - b.tokens) ≠ .zero ∧
        (b.balanceAt (.perSecond rate) burst now).Denotes q) := by
  have hheld := held_eq_tokens ⟨q, hq, h0, hfull⟩
  by_cases hdue : (Limit.perSecond rate).timeToEarn (capacity burst - b.tokens) = .zero
  · refine .inl ⟨hdue, ?_⟩
    unfold balanceAt
    rw [hheld, hdue]
    exact if_pos (Nat.zero_le _)
  · have hnot : ¬ (Limit.perSecond rate).timeToEarn (capacity burst - b.held burst) ≤ b.idle now := by
      intro hle
      rw [hheld, hidle, Duration.le_iff] at hle
      exact hdue (Duration.ext_nanos (Nat.le_zero.1 hle))
    rcases balanceAt_full_or rate now (denotes_held hq h0 hfull) h0 with ⟨hle, _⟩ | h
    · exact absurd hle hnot
    · rw [hidle, Duration.roundedSeconds_zero, mul_zero, nearest_zero, add_zero,
        nearest_of_expressible hq.expressible, min_eq_left hfull] at h
      exact .inr ⟨hdue, h⟩

end Bucket

end Throttle
