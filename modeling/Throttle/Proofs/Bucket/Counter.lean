import Throttle.Proofs.Binary64.Sign
import Throttle.Proofs.Bucket.Payment
import Throttle.Proofs.Bucket.Refusal

/-!
# Buckets that count

A bucket of at most 2^53 tokens that earns nothing is a natural number: taking counts from it is exact,
nothing missing is ever short enough to round to no wait, and no wait ends in time. Main statements:
`Counts.balanceAt`, `Counts.grant` and `Counts.refuse`.
-/

set_option autoImplicit false

namespace Throttle
open Binary64

/-! ## Whole numbers -/

theorem Binary64.Denotes.eq_of_ne_zero {x y : Binary64} {q : ℚ} (hx : x.Denotes q) (hy : y.Denotes q) (hq : q ≠ 0) :
    x = y := by
  cases hx with
  | negZero => exact absurd rfl hq
  | finite q _ =>
    cases hy with
    | negZero => exact absurd rfl hq
    | finite => rfl

@[simp] theorem ofNat_zero : ofNat 0 = 0 := ofRat_zero

theorem denotes_ofNat_sub {m n : ℕ} (hm : m ≤ 9007199254740992) (hn : n ≤ 9007199254740992) :
    (ofNat m - ofNat n).Denotes (m - n) := by
  have hexact : nearest ((m : ℚ) - n) = m - n := by
    apply nearest_of_expressible
    refine ⟨(m : ℤ) - n, 0, by omega, by omega, ?_⟩
    rw [zpow_zero, mul_one, Int.cast_sub, Int.cast_natCast, Int.cast_natCast]
  have hbound : |(m : ℚ) - n| < 2 ^ (1024 : ℤ) :=
    abs_sub_lt_of_nonneg_of_lt (Nat.cast_nonneg m) ((le_abs_self _).trans_lt (denotes_natCast hm).abs_lt)
      (Nat.cast_nonneg n) ((le_abs_self _).trans_lt (denotes_natCast hn).abs_lt)
  have h := (denotes_natCast hm).sub (denotes_natCast hn) (by rwa [hexact])
  rwa [hexact] at h

theorem ofNat_sub_ofNat {m n : ℕ} (hm : m ≤ 9007199254740992) (h : n ≤ m) : ofNat m - ofNat n = ofNat (m - n) := by
  rcases h.eq_or_lt with rfl | hlt
  · rw [Nat.sub_self, ofNat_zero]
    exact (denotes_natCast hm).sub_self
  · have hdiff := denotes_ofNat_sub hm (h.trans hm)
    rw [← Nat.cast_sub h] at hdiff
    exact hdiff.eq_of_ne_zero (denotes_natCast (by omega)) (by exact_mod_cast (Nat.sub_pos_of_lt hlt).ne')

namespace Bucket

/-! ## Rates that earn nothing -/

/-- From `s` to `now` nothing is earned, no whole token is due, and none will be within `maxWait`. -/
structure Frozen (rate : Rate) (s now : Instant) (maxWait : Duration) : Prop where
  earns_nothing : ((Limit.perSecond rate).earnedIn (now.since s)).Denotes 0
  never_due : ∀ {x : Binary64} {k : ℕ}, x.Denotes k → k ≠ 0 → ¬ (Limit.perSecond rate).timeToEarn x ≤ now.since s
  never_in_time : ∀ {x : Binary64} {k : ℕ} {actAt : Instant}, x.Denotes k → k ≠ 0 →
    (Instant.max s now).add? ((Limit.perSecond rate).timeToEarn x) = some actAt → maxWait < actAt.since now

variable {rate : Rate} {s now : Instant}

theorem denotes_earnedIn_zero {d : Duration} (h : rate.value * d.roundedSeconds = 0) :
    ((Limit.perSecond rate).earnedIn d).Denotes 0 := by
  have hearned := earnedIn_saturates rate d
  rw [h, nearest_zero] at hearned
  rcases hearned with hzero | ⟨_, hlarge⟩
  · exact hzero
  · exact absurd hlarge (not_le.2 (two_zpow_pos _))

theorem frozen_of_rate_zero (hr : rate.value = 0) (hs : Instant.earliest < s) (now : Instant) (maxWait : Duration) :
    Frozen rate s now maxWait := by
  have hforever : ∀ {x : Binary64} {k : ℕ}, x.Denotes k → k ≠ 0 → (Limit.perSecond rate).timeToEarn x = .forever :=
    fun hx hk => timeToEarn_of_rate_zero hr hx (by exact_mod_cast Nat.pos_of_ne_zero hk)
  refine ⟨denotes_earnedIn_zero (by rw [hr, zero_mul]), fun hx hk hdue => ?_, fun hx hk hact => ?_⟩
  · have hsince := Instant.since_lt_forever hs now
    rw [hforever hx hk] at hdue
    exact absurd hdue (Nat.not_le.2 hsince)
  · -- the clock ends before
    have hbase : Instant.earliest < Instant.max s now := Int.lt_of_lt_of_le hs (Instant.le_max_left s now)
    rw [hforever hx hk] at hact
    exact absurd (Instant.lt_forever_of_add? hbase hact) (Nat.lt_irrefl _)

/-- A thousand million tokens a second are a token in a nanosecond, which is never rounded to no time. -/
theorem timeToEarn_pos (hr : 0 < rate.value) (hfast : rate.value ≤ 10 ^ 9) {x : Binary64} {k : ℕ} (hx : x.Denotes k)
    (hk : k ≠ 0) : 0 < ((Limit.perSecond rate).timeToEarn x).nanos := by
  have hone : (1 : ℚ) ≤ k := by exact_mod_cast Nat.one_le_iff_ne_zero.2 hk
  have hquotient : (2 : ℚ) ^ (-30 : ℤ) ≤ k / rate.value := by
    rw [le_div_iff₀ hr]
    have hproduct := mul_le_mul_of_nonneg_left hfast (two_zpow_pos (-30)).le
    have hpow : (2 : ℚ) ^ (-30 : ℤ) * 10 ^ 9 ≤ 1 := by norm_num
    linarith
  have hnearest := le_nearest_of_le (expressible_zpow (by omega)) hquotient
  have hround := (abs_le.1 (abs_nearestInt_sub_le_half (nearest (k / rate.value) * 1_000_000_000))).1
  have hnanos : 0 < nearestInt (nearest (k / rate.value) * 1_000_000_000) := by
    have hpow : (1 : ℚ) / 2 < 2 ^ (-30 : ℤ) * 1_000_000_000 := by norm_num
    have hpos : (0 : ℚ) < nearestInt (nearest (k / rate.value) * 1_000_000_000) := by linarith
    exact_mod_cast hpos
  have hforever := Duration.nanos_forever
  rw [nanos_timeToEarn hr hx (by linarith), hforever]
  unfold Rate.waitNanos
  omega

theorem frozen_of_same_instant (hr : 0 < rate.value) (hfast : rate.value ≤ 10 ^ 9) (now : Instant) :
    Frozen rate now now .zero := by
  have hsince : now.since now = .zero := Instant.since_of_le (Int.le_refl _)
  refine ⟨denotes_earnedIn_zero ?_, fun hx hk hdue => ?_, fun hx hk hact => ?_⟩
  · rw [hsince, Duration.roundedSeconds_zero, mul_zero]
  · have hpos := timeToEarn_pos hr hfast hx hk
    rw [hsince, Duration.le_iff] at hdue
    exact absurd hdue (Nat.not_le.2 hpos)
  · have hpos := timeToEarn_pos hr hfast hx hk
    rw [Instant.max_eq_left (Int.le_refl _)] at hact
    rw [Instant.since_of_add? hact]
    exact hpos

/-! ## Whole balances -/

/-- The bucket holds `c` whole tokens, as it was left at one of the instants; a bucket never used holds
its burst. -/
inductive Counts (burst : UInt64) (instants : List Instant) : ℕ → Bucket → Prop where
  | unused (tokens : Binary64) : Counts burst instants burst.toNat ⟨tokens, none⟩
  | used {c : ℕ} (hc : c ≤ burst.toNat) (s : Instant) (hs : s ∈ instants) : Counts burst instants c ⟨ofNat c, some s⟩

variable {b : Bucket} {burst n : UInt64} {instants : List Instant} {c : ℕ} {maxWait : Duration}

theorem Counts.le_burst (h : b.Counts burst instants c) : c ≤ burst.toNat := by
  cases h with
  | unused => exact Nat.le_refl _
  | used hc => exact hc

theorem Counts.base_mem (h : b.Counts burst instants c) (hnow : now ∈ instants) : b.base now ∈ instants := by
  cases h with
  | unused => exact hnow
  | used _ s hs =>
    show Instant.max _ now ∈ instants
    unfold Instant.max
    split
    · exact hnow
    · exact hs

theorem Counts.balanceAt (h : b.Counts burst instants c) (hburst : burst.toNat ≤ 9007199254740992)
    (hfrozen : ∀ s ∈ instants, Frozen rate s now maxWait) : b.balanceAt (.perSecond rate) burst now = ofNat c := by
  cases h with
  | unused => exact balanceAt_of_unused _ rfl
  | used hc s hs =>
    obtain ⟨hearned, hdue, _⟩ := hfrozen s hs
    have hcount := denotes_natCast (hc.trans hburst)
    have hcapacity : (capacity burst).Denotes burst.toNat := denotes_natCast hburst
    have hle : (c : ℚ) ≤ burst.toNat := by exact_mod_cast hc
    have hheld : (⟨ofNat c, some s⟩ : Bucket).held burst = ofNat c := by
      apply held_eq_tokens
      refine ⟨c, hcount, Nat.cast_nonneg c, ?_⟩
      rwa [← hcapacity.unique (denotes_capacity burst)]
    unfold Bucket.balanceAt
    rw [hheld]
    split
    · next hfull =>
      -- only a bucket with nothing missing is full
      have hmissing := denotes_ofNat_sub hburst (hc.trans hburst)
      rw [← Nat.cast_sub hc] at hmissing
      by_contra hne
      have hlt : c ≠ burst.toNat := by
        rintro rfl
        exact hne rfl
      exact hdue hmissing (by omega) hfull
    · show Binary64.min (ofNat c + (Limit.perSecond rate).earnedIn (now.since s)) (capacity burst) = ofNat c
      rw [hcount.add_of_denotes_zero (isNegative_ofNat c) hearned]
      exact hcount.min_eq_left hcapacity hle

/-! ## Requests -/

theorem Counts.grant (h : b.Counts burst instants c) (hburst : burst.toNat ≤ 9007199254740992)
    (hfrozen : ∀ s ∈ instants, Frozen rate s now maxWait) (hnow : now ∈ instants) (hn : n.toNat ≤ c) :
    ∃ next, b.propose (.perSecond rate) burst now n maxWait = .granted .zero next ∧
      next.Counts burst instants (c - n.toNat) := by
  have hc := h.le_burst
  by_cases hzero : n = 0
  · subst hzero
    exact ⟨b, rfl, h⟩
  · have hremaining : b.remaining (.perSecond rate) burst now n = ofNat (c - n.toNat) := by
      unfold remaining
      rw [h.balanceAt hburst hfrozen]
      exact ofNat_sub_ofNat (hc.trans hburst) hn
    have henough : 0 ≤ b.remaining (.perSecond rate) burst now n := by
      rw [hremaining, denotes_ofNat_zero.le_iff (denotes_natCast (by omega))]
      exact Nat.cast_nonneg _
    have hle : n ≤ burst := UInt64.le_iff_toNat_le.2 (hn.trans hc)
    refine ⟨_, propose_of_enough hzero rfl hle henough maxWait, ?_⟩
    rw [hremaining]
    exact .used ((Nat.sub_le _ _).trans hc) _ (h.base_mem hnow)

theorem Counts.refuse (h : b.Counts burst instants c) (hburst : burst.toNat ≤ 9007199254740992)
    (hfrozen : ∀ s ∈ instants, Frozen rate s now maxWait) (hn : c < n.toNat) :
    ∃ reason delay, b.propose (.perSecond rate) burst now n maxWait = .denied reason delay := by
  rcases b.propose_cases (.perSecond rate) burst now n maxWait with
    ⟨delay, next, _, hgrant⟩ | ⟨reason, delay, hdenied, _⟩
  · have hmissing : n ≤ burst → (b.remaining (.perSecond rate) burst now n).Denotes (c - n.toNat) := by
      intro hle
      unfold remaining
      rw [h.balanceAt hburst hfrozen]
      exact denotes_ofNat_sub (h.le_burst.trans hburst) ((UInt64.le_iff_toNat_le.1 hle).trans hburst)
    have hlt : (c : ℚ) < n.toNat := by exact_mod_cast hn
    cases hgrant with
    | free hzero =>
      rw [hzero] at hn
      exact absurd hn (Nat.not_lt_zero c)
    | unlimited _ hlimit => cases hlimit
    | immediate _ _ hle henough =>
      rw [denotes_ofNat_zero.le_iff (hmissing hle)] at henough
      linarith
    | delayed _ _ hle _ actAt hact hwait =>
      cases h with
      | unused => exact absurd (UInt64.le_iff_toNat_le.1 hle) (Nat.not_le.2 hn)
      | used hc s hs =>
        have hshort := (hmissing hle).neg
        rw [neg_sub, ← Nat.cast_sub hn.le] at hshort
        exact absurd ((hfrozen s hs).never_in_time hshort (Nat.sub_ne_zero_of_lt hn) hact) hwait
  · exact ⟨reason, delay, hdenied⟩

end Bucket

end Throttle
