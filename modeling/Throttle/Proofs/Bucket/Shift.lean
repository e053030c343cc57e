import Throttle.Proofs.Bucket.Refusal

/-!
# Instants on a shifted clock

All instants move by the same span, which may be negative. A bucket reads the clock only through
differences: its idle time and its balance stay as they are, and the instants that it counts from and
forms move with the clock. What may change a decision is the end of the clock alone, where it cuts off
an instant on one of the two clocks only. Main statement: `Shifted.propose`.
-/

set_option autoImplicit false

namespace Throttle

/-! ## Instants -/

namespace Instant

/-- The second instant is `s` nanoseconds after the first. -/
def Shifted (s : ℤ) (t t' : Instant) : Prop := t'.nanos = t.nanos + s

/-- Some instant has this number of nanoseconds. -/
def OnClock (n : ℤ) : Prop := ∃ t : Instant, t.nanos = n

theorem onClock_iff {n : ℤ} :
    OnClock n ↔ -9_223_372_036_854_775_808_000_000_000 ≤ n ∧ n < 9_223_372_036_854_775_808_000_000_000 := by
  constructor
  · rintro ⟨t, rfl⟩
    exact ⟨t.notBefore, t.notAfter⟩
  · intro h
    exact ⟨⟨n, h.1, h.2⟩, rfl⟩

theorem add?_eq_none_iff {t : Instant} {d : Duration} : t.add? d = none ↔ ¬ OnClock (t.nanos + d.nanos) := by
  constructor
  · rintro hnone ⟨u, hu⟩
    rw [add?_eq_some_iff.2 hu] at hnone
    cases hnone
  · intro h
    cases hadd : t.add? d with
    | none => rfl
    | some u => exact absurd ⟨u, add?_eq_some_iff.1 hadd⟩ h

variable {s : ℤ} {t t' u u' : Instant}

theorem Shifted.le_iff (ht : t.Shifted s t') (hu : u.Shifted s u') : t ≤ u ↔ t' ≤ u' := by
  unfold Shifted at ht hu
  rw [Instant.le_iff, Instant.le_iff]
  omega

theorem Shifted.max (ht : t.Shifted s t') (hu : u.Shifted s u') :
    (Instant.max t u).Shifted s (Instant.max t' u') := by
  unfold Instant.max
  by_cases hle : t ≤ u
  · rw [if_pos hle, if_pos ((ht.le_iff hu).1 hle)]
    exact hu
  · rw [if_neg hle, if_neg fun hle' => hle ((ht.le_iff hu).2 hle')]
    exact ht

theorem Shifted.since_eq (ht : t.Shifted s t') (hu : u.Shifted s u') : t.since u = t'.since u' := by
  unfold Shifted at ht hu
  apply Duration.ext_nanos
  rw [nanos_since, nanos_since]
  omega

/-- A sum moves with its instant if the clock has it on both sides or on neither. -/
theorem Shifted.add? {d : Duration} (ht : t.Shifted s t')
    (hclock : OnClock (t.nanos + d.nanos) ↔ OnClock (t.nanos + d.nanos + s)) :
    Option.Rel (Shifted s) (t.add? d) (t'.add? d) := by
  have hsum : t'.nanos + d.nanos = t.nanos + d.nanos + s := by
    unfold Shifted at ht
    omega
  cases hadd : t.add? d with
  | none =>
    rw [add?_eq_none_iff, hclock, ← hsum, ← add?_eq_none_iff] at hadd
    rw [hadd]
    exact .none
  | some u =>
    have hu := add?_eq_some_iff.1 hadd
    obtain ⟨u', hu'⟩ := hclock.1 ⟨u, hu⟩
    rw [add?_eq_some_iff.2 (hu'.trans hsum.symm)]
    apply Option.Rel.some
    unfold Shifted
    rw [hu', hu]

end Instant

/-! ## Buckets -/

/-- The same balance, dated by the shifted clock. -/
structure Bucket.Shifted (s : ℤ) (b b' : Bucket) : Prop where
  tokens : b.tokens = b'.tokens
  last : Option.Rel (Instant.Shifted s) b.last b'.last

inductive Proposal.Shifted (s : ℤ) : Proposal → Proposal → Prop where
  | granted (delay : Duration) {next next' : Bucket} (h : next.Shifted s next') :
    Shifted s (.granted delay next) (.granted delay next')
  | denied (reason : Denial) (delay : Duration) : Shifted s (.denied reason delay) (.denied reason delay)

namespace Bucket

/-- The nanoseconds of the instant that a request forms, whether or not the clock has it: what the
request is short of is earned from the base on. All other requests form none. -/
def formed? (b : Bucket) (limit : Limit) (burst : UInt64) (now : Instant) (n : UInt64) : Option ℤ :=
  if n = 0 ∨ limit.isUnlimited = true ∨ burst < n ∨ 0 ≤ b.remaining limit burst now n then none
  else some ((b.base now).nanos + (limit.timeToEarn (-b.remaining limit burst now n)).nanos)

variable {s : ℤ} {b b' : Bucket} {now now' : Instant}

theorem Shifted.last_cases (h : b.Shifted s b') :
    (b.last = none ∧ b'.last = none) ∨
      ∃ last last', b.last = some last ∧ b'.last = some last' ∧ last.Shifted s last' := by
  have hlast := h.last
  generalize b.last = x at hlast ⊢
  generalize b'.last = x' at hlast ⊢
  cases hlast with
  | none => exact .inl ⟨rfl, rfl⟩
  | some hlast => exact .inr ⟨_, _, rfl, rfl, hlast⟩

theorem Shifted.base (h : b.Shifted s b') (hnow : now.Shifted s now') : (b.base now).Shifted s (b'.base now') := by
  unfold Bucket.base
  rcases h.last_cases with ⟨hnone, hnone'⟩ | ⟨last, last', hsome, hsome', hlast⟩
  · rw [hnone, hnone']
    exact hnow
  · rw [hsome, hsome']
    exact hlast.max hnow

theorem Shifted.idle_eq (h : b.Shifted s b') (hnow : now.Shifted s now') : b.idle now = b'.idle now' := by
  unfold idle
  rcases h.last_cases with ⟨hnone, hnone'⟩ | ⟨last, last', hsome, hsome', hlast⟩
  · rw [hnone, hnone']
  · rw [hsome, hsome']
    exact hnow.since_eq hlast

theorem Shifted.balanceAt_eq (h : b.Shifted s b') (hnow : now.Shifted s now') (limit : Limit) (burst : UInt64) :
    b.balanceAt limit burst now = b'.balanceAt limit burst now' := by
  unfold balanceAt held
  rw [h.tokens, h.idle_eq hnow]

theorem Shifted.remaining_eq (h : b.Shifted s b') (hnow : now.Shifted s now') (limit : Limit) (burst n : UInt64) :
    b.remaining limit burst now n = b'.remaining limit burst now' n := by
  unfold remaining
  rw [h.balanceAt_eq hnow]

theorem Shifted.settle (h : b.Shifted s b') (hnow : now.Shifted s now') (limit : Limit) (burst : UInt64) :
    (b.settle limit burst now).Shifted s (b'.settle limit burst now') := by
  refine ⟨?_, .some (h.base hnow)⟩
  unfold Bucket.settle
  rw [h.tokens, h.balanceAt_eq hnow]

/-- A request is decided alike on both clocks, unless one of them alone ends before the instant that
the request forms. -/
theorem Shifted.propose (h : b.Shifted s b') (hnow : now.Shifted s now') (limit : Limit) (burst n : UInt64)
    (maxWait : Duration)
    (hformed : ∀ m, b.formed? limit burst now n = some m → (Instant.OnClock m ↔ Instant.OnClock (m + s))) :
    Proposal.Shifted s (b.propose limit burst now n maxWait) (b'.propose limit burst now' n maxWait) := by
  have hbase := h.base hnow
  have hremaining := h.remaining_eq hnow limit burst n
  unfold formed? at hformed
  unfold Bucket.propose
  by_cases hn : n = 0
  · rw [if_pos hn, if_pos hn]
    exact .granted _ h
  by_cases hlimit : limit.isUnlimited = true
  · rw [if_neg hn, if_neg hn, if_pos hlimit, if_pos hlimit]
    exact .granted _ ⟨h.tokens, .some hbase⟩
  by_cases hburst : burst < n
  · rw [if_neg hn, if_neg hn, if_neg hlimit, if_neg hlimit, if_pos hburst, if_pos hburst]
    exact .denied _ _
  rw [if_neg hn, if_neg hn, if_neg hlimit, if_neg hlimit, if_neg hburst, if_neg hburst]
  unfold remaining at hremaining hformed
  dsimp only
  rw [← hremaining]
  by_cases henough : 0 ≤ b.balanceAt limit burst now - Binary64.ofNat n.toNat
  · rw [if_pos henough, if_pos henough]
    exact .granted _ ⟨rfl, .some hbase⟩
  rw [if_neg henough, if_neg henough]
  have hact := hbase.add? (hformed _ (if_neg (by simp [hn, hlimit, hburst, henough])))
  generalize (b.base now).add? _ = x at hact ⊢
  generalize (b'.base now').add? _ = x' at hact ⊢
  cases hact with
  | none => exact .denied _ _
  | some hact =>
    dsimp only
    rw [hact.since_eq hnow]
    split
    · exact .denied _ _
    · exact .granted _ ⟨rfl, .some hact⟩

end Bucket

end Throttle
