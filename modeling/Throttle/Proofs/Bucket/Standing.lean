import Throttle.Proofs.Bucket.Counter

/-!
# The balance of a bucket that is up to date

A bucket that was brought up to an instant, or to a later one, shows there the balance that it stores,
bit for bit, or the capacity if what is missing takes less than half a nanosecond to earn. Main statement:
`balanceAt_dated`.
-/

set_option autoImplicit false

namespace Throttle
open Binary64

/-! ## Signs -/

theorem isNegative_toSeconds (d : Duration) : d.toSeconds.isNegative = false :=
  isNegative_add (isNegative_ofNat _) (isNegative_div (isNegative_ofNat _) (isNegative_ofNat _))

theorem isNegative_earnedIn (rate : Rate) (d : Duration) : ((Limit.perSecond rate).earnedIn d).isNegative = false :=
  isNegative_mul (decide_eq_false (not_lt.2 rate.nonneg)) (isNegative_toSeconds d)

/-- A balance, or the capacity if what is missing of it is earned in no time. -/
def Limit.toppedUp (limit : Limit) (burst : UInt64) (x : Binary64) : Binary64 :=
  if limit.timeToEarn (capacity burst - x) = .zero then capacity burst else x

namespace Bucket

variable {rate : Rate} {burst : UInt64} {now t : Instant} {x : Binary64}

/-- The sum with what was earned clears the sign bit of an empty bucket. -/
theorem isNegative_balanceAt (b : Bucket) (rate : Rate) (burst : UInt64) (now : Instant) :
    (b.balanceAt (.perSecond rate) burst now).isNegative = false := by
  have hcap : (capacity burst).isNegative = false := isNegative_ofNat _
  have hearned := isNegative_earnedIn rate (b.idle now)
  rcases b.held_eq_nan_or_inRange burst with hnan | ⟨q, hq, h0, _⟩
  · rw [balanceAt_of_held_nan rate now hnan]
    exact hcap
  · unfold balanceAt
    split
    · exact hcap
    · refine isNegative_min ?_ hcap
      cases hheld : b.held burst with
      | nan => rw [hheld] at hq; cases hq
      | infinity negative => rw [hheld] at hq; cases hq
      | negZero =>
        have hsum : negZero + (Limit.perSecond rate).earnedIn (b.idle now) = (Limit.perSecond rate).earnedIn (b.idle now) := by
          cases (Limit.perSecond rate).earnedIn (b.idle now) <;> rfl
        rw [hsum]
        exact hearned
      | finite p hp =>
        rw [hheld] at hq
        have hp0 : p = q := (Denotes.finite p hp).unique hq
        exact isNegative_add (decide_eq_false (not_lt.2 (hp0 ▸ h0))) hearned

/-! ## Nothing left to earn -/

theorem balanceAt_dated (hx : InRange burst x) (hsign : x.isNegative = false) (hnow : now ≤ t) :
    (⟨x, some t⟩ : Bucket).balanceAt (.perSecond rate) burst now = (Limit.perSecond rate).toppedUp burst x := by
  have hidle : (⟨x, some t⟩ : Bucket).idle now = .zero := Instant.since_of_le hnow
  have hheld : (⟨x, some t⟩ : Bucket).held burst = x := held_eq_tokens hx
  have hnothing : ((Limit.perSecond rate).earnedIn .zero).Denotes 0 :=
    denotes_earnedIn_zero (by rw [Duration.roundedSeconds_zero, mul_zero])
  obtain ⟨q, hq, _, hfull⟩ := hx
  have hdue : (Limit.perSecond rate).timeToEarn (capacity burst - x) ≤ .zero ↔
      (Limit.perSecond rate).timeToEarn (capacity burst - x) = .zero :=
    ⟨fun hle => Duration.ext_nanos (Nat.le_zero.1 hle), fun heq => heq ▸ Nat.le_refl _⟩
  unfold balanceAt Limit.toppedUp
  simp only [hidle, hheld, hdue]
  rw [hq.add_of_denotes_zero hsign hnothing, hq.min_eq_left (denotes_capacity burst) hfull]

end Bucket

end Throttle
