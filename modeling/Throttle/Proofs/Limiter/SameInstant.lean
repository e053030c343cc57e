import Throttle.Proofs.Bucket.Standing
import Throttle.Proofs.Limiter.Refusal

/-!
# Balances around one operation

The balance that a limiter shows, the one it grants from and the one it carries over to another limit or
another burst are the same. What an operation leaves of it is shown at the same instant bit for bit, unless
the rest of the bucket is earned in no time. Main statement: `balance_carries_over`.
-/

set_option autoImplicit false

namespace Throttle.Limiter
open Binary64 Bucket

variable {l : Limiter} {rate : Rate} {now : Instant}

/-! ## Grants from the balance shown -/

theorem remaining_eq (h : l.limit = .perSecond rate) (n : UInt64) :
    l.bucket.remaining (.perSecond rate) l.burst now n = l.tokensAt now - ofNat n.toNat := by
  rw [tokensAt_of_perSecond h]
  rfl

theorem count_le_tokensAt_iff (h : l.limit = .perSecond rate) {n : UInt64} (hburst : n ≤ l.burst) :
    ofNat n.toNat ≤ l.tokensAt now ↔ 0 ≤ l.bucket.remaining (.perSecond rate) l.burst now n := by
  obtain ⟨T, hT, h0, hfull⟩ := l.bucket.inRange_balanceAt rate l.burst now
  rw [tokensAt_of_perSecond h, (denotes_word n).le_iff hT, enough_iff hT h0 hfull hburst]
  rfl

theorem reservation_of_le_tokensAt (h : l.limit = .perSecond rate) {request : Ask} (hn : request.count ≠ 0)
    (hburst : request.count ≤ l.burst) (hle : ofNat request.count.toNat ≤ l.tokensAt now) :
    l.reservation now request = .granted .zero (some now) := by
  have henough := (count_le_tokensAt_iff h hburst).1 hle
  exact reservation_of_enough h hn hburst henough

/-! ## The balance shown next -/

theorem isNegative_tokensAt (h : l.limit = .perSecond rate) : (l.tokensAt now).isNegative = false := by
  rw [tokensAt_of_perSecond h]
  exact l.bucket.isNegative_balanceAt rate l.burst now

theorem tokensAt_dated {burst : UInt64} {x : Binary64} {t : Instant} (hx : InRange burst x)
    (hsign : x.isNegative = false) (hnow : now ≤ t) :
    (⟨.perSecond rate, burst, ⟨x, some t⟩⟩ : Limiter).tokensAt now = (Limit.perSecond rate).toppedUp burst x :=
  balanceAt_dated hx hsign hnow

/-- Of a balance that has the tokens the rest is left. A grant that waits is owed all there is, and leaves nothing. -/
theorem tokensAt_of_granted (h : l.limit = .perSecond rate) {request : Ask} (hn : request.count ≠ 0)
    (hgranted : (l.reservation now request).isGranted = true) :
    (l.ask now request).2.tokensAt now =
      (Limit.perSecond rate).toppedUp l.burst
        (if ofNat request.count.toNat ≤ l.tokensAt now then l.tokensAt now - ofNat request.count.toNat else 0) := by
  rcases l.reservation_cases now request with ⟨hrefused, _⟩ | ⟨delay, next, _, hafter, hgrant⟩
  · rw [hrefused] at hgranted
    cases hgranted
  · rw [h] at hafter hgrant
    have hrange : InRange l.burst next.tokens := hgrant.inRange hn
    rw [hafter]
    -- a grant that takes tokens is immediate exactly if the balance shown has them
    cases hgrant with
    | free hzero => exact absurd hzero hn
    | unlimited _ hunlimited => cases hunlimited
    | immediate _ _ hburst henough =>
      have hle := (count_le_tokensAt_iff h hburst).2 henough
      obtain ⟨T, hT, _, _⟩ := l.inRange_tokensAt now
      have hsign : (l.tokensAt now - ofNat request.count.toNat).isNegative = false :=
        hT.isNegative_sub (denotes_word _) (isNegative_tokensAt h) (((denotes_word _).le_iff hT).1 hle)
      dsimp only at hrange
      rw [remaining_eq h] at hrange ⊢
      rw [if_pos hle]
      exact tokensAt_dated hrange hsign (l.bucket.le_base now)
    | delayed _ _ hburst hshort actAt hact _ =>
      have hlater : now ≤ actAt := Int.le_trans (l.bucket.le_base now) (Instant.le_of_add? hact)
      rw [if_neg ((count_le_tokensAt_iff h hburst).not.2 hshort)]
      exact tokensAt_dated hrange rfl hlater

theorem tokensAt_setLimit (h : l.limit = .perSecond rate) (rate' : Rate) :
    (l.setLimit now (.perSecond rate')).tokensAt now = (Limit.perSecond rate').toppedUp l.burst (l.tokensAt now) := by
  have hset : l.setLimit now (.perSecond rate') =
      ⟨.perSecond rate', l.burst, ⟨l.tokensAt now, some (l.bucket.base now)⟩⟩ := by
    unfold setLimit settle
    rw [tokensAt_of_perSecond h, h]
    rfl
  rw [hset]
  exact tokensAt_dated (l.inRange_tokensAt now) (isNegative_tokensAt h) (l.bucket.le_base now)

theorem tokensAt_setBurst (h : l.limit = .perSecond rate) (burst : UInt64) :
    (l.setBurst now burst).tokensAt now =
      (Limit.perSecond rate).toppedUp burst (Binary64.min (l.tokensAt now) (capacity burst)) := by
  have hset : l.setBurst now burst =
      ⟨.perSecond rate, burst, ⟨Binary64.min (l.tokensAt now) (capacity burst), some (l.bucket.base now)⟩⟩ := by
    unfold setBurst settle
    rw [tokensAt_of_perSecond h, h]
    rfl
  have hrange := inRange_min_capacity burst (l.inRange_tokensAt now)
  have hshown : (l.tokensAt now).isNegative = false := isNegative_tokensAt h
  rw [hset]
  exact tokensAt_dated hrange (isNegative_min hshown (isNegative_ofNat _)) (l.bucket.le_base now)

/-- Whatever state a limiter with a rate is in, and whatever the instant, let `T` be the balance that it shows
there. A request that fits the burst and `T` is granted at once. What is refused or free leaves `T` as it is.
A grant leaves the rest of `T`, or nothing if `T` is too small for it, another rate leaves `T`, and another
burst what of `T` fits under it. That is then the balance shown, and a full bucket is shown for it only
where the new limit earns what is missing in no time. -/
theorem balance_carries_over (l : Limiter) (rate : Rate) (h : l.limit = .perSecond rate) (now : Instant) :
    let T := l.tokensAt now
    (∀ request : Ask, request.count ≠ 0 → request.count ≤ l.burst → ofNat request.count.toNat ≤ T →
        l.reservation now request = .granted .zero (some now)) ∧
      (∀ request : Ask, request.count = 0 ∨ (l.reservation now request).isGranted = false →
        (l.ask now request).2.tokensAt now = T) ∧
      (∀ request : Ask, request.count ≠ 0 → (l.reservation now request).isGranted = true →
        (l.ask now request).2.tokensAt now =
          (Limit.perSecond rate).toppedUp l.burst
            (if ofNat request.count.toNat ≤ T then T - ofNat request.count.toNat else 0)) ∧
      (∀ rate' : Rate, (l.setLimit now (.perSecond rate')).tokensAt now = (Limit.perSecond rate').toppedUp l.burst T) ∧
      ∀ burst : UInt64,
        (l.setBurst now burst).tokensAt now =
          (Limit.perSecond rate).toppedUp burst (Binary64.min T (capacity burst)) := by
  refine ⟨fun request hn hburst hle => reservation_of_le_tokensAt h hn hburst hle, fun request hnothing => ?_,
    fun request hn hgranted => tokensAt_of_granted h hn hgranted, tokensAt_setLimit h, tokensAt_setBurst h⟩
  rw [ask_eq_self hnothing]

/-- Three quarters of a second after it was drained, a bucket that earns two tokens a second has one and a
half: enough for one, and for three only with a wait. Two are refused if they must come at once. -/
theorem balance_carries_over_of_half_full :
    let rate : Rate := ⟨2, ⟨2, 0, by decide, by decide, by decide, (Rat.mul_one 2).symm⟩, by decide⟩
    let slow : Rate := ⟨1, ⟨1, 0, by decide, by decide, by decide, (Rat.mul_one 1).symm⟩, by decide⟩
    let start : Instant := { nanos := 0 }
    let now : Instant := { nanos := 750_000_000 }
    let l := (new (.perSecond rate) 3).after [(start, .ask (.reserve 3))]
    (l.limit = .perSecond rate ∧ l.tokensAt now = ofRat (3 / 2)) ∧
      (ofNat 1 ≤ l.tokensAt now ∧ l.reservation now (.allow 1) = .granted .zero (some now) ∧
        (l.ask now (.allow 1)).2.tokensAt now = ofRat (1 / 2)) ∧
      ((l.reservation now (.allow 2)).isGranted = false ∧ (l.ask now (.allow 2)).2.tokensAt now = ofRat (3 / 2)) ∧
      ((l.reservation now (.reserve 3)).isGranted = true ∧ (l.ask now (.reserve 3)).2.tokensAt now = 0) ∧
      (l.setLimit now (.perSecond slow)).tokensAt now = ofRat (3 / 2) ∧ (l.setBurst now 1).tokensAt now = ofNat 1 := by
  intro rate slow start now l
  have hlimit : l.limit = .perSecond rate := by decide +kernel
  have hT : l.tokensAt now = ofRat (3 / 2) := by decide +kernel
  have hone : ofNat 1 ≤ l.tokensAt now := by decide +kernel
  have htwo : (l.reservation now (.allow 2)).isGranted = false := by decide +kernel
  have hthree : (l.reservation now (.reserve 3)).isGranted = true := by decide +kernel
  obtain ⟨hgrant, hsame, hleft, hlimits, hbursts⟩ := balance_carries_over l rate hlimit now
  have hgranted := hgrant (.allow 1) (by decide) (by decide) hone
  have hrest := hleft (.allow 1) (by decide) (by rw [hgranted]; rfl)
  refine ⟨⟨hlimit, hT⟩, ⟨hone, hgranted, hrest.trans ?_⟩, ⟨htwo, (hsame (.allow 2) (.inr htwo)).trans hT⟩,
    ⟨hthree, (hleft (.reserve 3) (by decide) hthree).trans ?_⟩, (hlimits slow).trans ?_, (hbursts 1).trans ?_⟩
  · decide +kernel
  · decide +kernel
  · decide +kernel
  · decide +kernel

end Throttle.Limiter
