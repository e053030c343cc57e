import Throttle.Proofs.Bucket.Turn
import Throttle.Proofs.Limit.Interval
import Throttle.Proofs.Limiter.Run

/-!
# Exact pacing

At one token every `d` a limiter that was drained owes its next tokens at whole multiples of `d`. Each
reservation starts from the instant to which the last one dated the bucket, with a balance that is just
zero, so the error of a wait is never handed on. What an induction over the queue carries is that
instant. Main statement: `reservations_paced`.
-/

set_option autoImplicit false

namespace Throttle
open Binary64

namespace Limiter
open Bucket

/-! ## One reservation -/

/-- Draining a new limiter leaves it owing from its own instant on. -/
theorem reserve_burst_new {limit : Limit} {burst : UInt64} (hlimit : limit.isUnlimited = false) (hburst : burst ≠ 0)
    (now : Instant) :
    (new limit burst).reserve now burst = (.granted .zero (some now), ⟨limit, burst, ⟨0, some now⟩⟩) := by
  have hremaining : fresh.remaining limit burst now burst = 0 := by
    unfold remaining
    rw [balanceAt_of_unused limit rfl]
    exact (denotes_capacity burst).sub_self
  have henough : 0 ≤ fresh.remaining limit burst now burst := by
    rw [hremaining]
    decide
  have hgrant := propose_of_enough hburst hlimit (UInt64.le_refl burst) henough .forever
  rw [hremaining] at hgrant
  have hreservation := reserveWithin_of_granted (l := new limit burst) hgrant
  rw [Instant.add?_zero] at hreservation
  exact hreservation

theorem takes_time_every {d : Duration} {burst : UInt64} (hd : d ≠ .zero) (hsmall : d.nanos ≤ 10 ^ 15)
    (hburst : burst ≠ 0) : (Limit.every d).timeToEarn (capacity burst - 0) ≠ .zero := by
  have hone := denotes_natCast (n := 1) (by omega)
  have hle : ofNat 1 ≤ capacity burst - 0 := by
    rw [hone.le_iff (denotes_capacity_sub_zero burst), Nat.cast_one]
    exact one_le_fullBalance hburst
  have hmono := timeToEarn_mono (.every d) hle
  have htoken := nanos_timeToEarn_every hd (by omega) (by omega) hone
  intro hzero
  rw [hzero, Duration.le_iff, htoken, one_mul] at hmono
  exact hd (Duration.ext_nanos (Nat.le_zero.1 hmono))

/-- The limiter earns a token every `d` and owes until `t`. -/
structure Drained (l : Limiter) (d : Duration) (burst : UInt64) (t : Instant) : Prop where
  limit_eq : l.limit = .every d
  burst_eq : l.burst = burst
  owes : l.bucket.Owes (.every d) burst t

variable {l : Limiter} {d : Duration} {burst n : UInt64} {now t actAt : Instant}

theorem drained_new (hd : d ≠ .zero) (hsmall : d.nanos ≤ 10 ^ 15) (hburst : burst ≠ 0) (now : Instant) :
    ((new (.every d) burst).reserve now burst).1 = .granted .zero (some now) ∧
      ((new (.every d) burst).reserve now burst).2.Drained d burst now := by
  obtain ⟨rate, hrate, _, _⟩ := every_eq_perSecond hd
  rw [reserve_burst_new (by rw [hrate]; rfl) hburst now]
  exact ⟨rfl, rfl, rfl, rfl, takes_time_every hd hsmall hburst⟩

/-- A reservation acts a whole number of intervals after the instant until which the limiter owes. -/
theorem Drained.reserve (h : l.Drained d burst t) (hd : d ≠ .zero) (hnow : now ≤ t) (hn : n ≠ 0) (hburst : n ≤ burst)
    (hsmall : n.toNat * d.nanos ≤ 10 ^ 15) (hact : actAt.nanos = t.nanos + (n.toNat * d.nanos : ℕ)) :
    (l.reserve now n).1 = .granted (actAt.since now) (some actAt) ∧ (l.reserve now n).2.Drained d burst actAt := by
  obtain ⟨hlimit, rfl, howes⟩ := h
  obtain ⟨rate, hrate, _, _⟩ := every_eq_perSecond hd
  have hlater : now ≤ actAt := by
    rw [Instant.le_iff] at hnow ⊢
    omega
  have hcount : n.toNat ≤ 9007199254740992 := by
    have hle := Nat.le_mul_of_pos_right n.toNat (Duration.nanos_pos hd)
    omega
  have hshort := (hrate ▸ howes).short hn hburst hnow
  have hmissing := ((hrate ▸ howes).denotes_remaining hburst hnow).neg
  rw [neg_neg, fullBalance, nearest_of_expressible (expressible_natCast hcount), ← hrate] at hmissing
  have hwait := nanos_timeToEarn_every hd (fun hzero => hn (UInt64.toNat_inj.1 hzero)) hsmall hmissing
  have hbase : l.bucket.base now = t := by
    rw [howes.bucket_eq]
    exact Instant.max_eq_left hnow
  have hadd : (l.bucket.base now).add? ((Limit.every d).timeToEarn (-l.bucket.remaining (.every d) l.burst now n)) =
      some actAt := by
    rw [Instant.add?_eq_some_iff, hbase, hwait, hact]
  have hgrant := propose_of_short hn (by rw [hrate]; rfl) hburst (hrate ▸ hshort) hadd
    (Nat.not_lt.2 (Duration.le_forever _))
  rw [← hlimit] at hgrant
  have hreservation := reserveWithin_of_granted hgrant
  rw [Instant.add?_since hlater] at hreservation
  unfold Limiter.reserve
  rw [hreservation]
  exact ⟨rfl, hlimit, rfl, rfl, howes.takes_time⟩

/-! ## The queue -/

/-- Reservations that are all made at one instant. -/
def queue (now : Instant) (counts : List UInt64) : List (Instant × Ask) :=
  counts.map fun n => (now, .reserve n)

theorem Drained.after {counts : List UInt64} {due : Instant} (h : l.Drained d burst t) (hd : d ≠ .zero) (hnow : now ≤ t)
    (hcounts : ∀ n ∈ counts, n ≠ 0 ∧ n ≤ burst ∧ n.toNat * d.nanos ≤ 10 ^ 15)
    (hdue : due.nanos = t.nanos + (totalCount counts * d.nanos : ℕ)) :
    (l.after (requests (queue now counts))).Drained d burst due := by
  induction counts generalizing l t with
  | nil =>
    have hsame : due = t := Instant.ext_nanos (by simpa using hdue)
    rw [hsame]
    exact h
  | cons n rest ih =>
    obtain ⟨hn, hburst, hsmall⟩ := hcounts n List.mem_cons_self
    rw [totalCount_cons, Nat.add_mul] at hdue
    -- the first of them is due at an instant of the clock, since the last one is
    obtain ⟨actAt, hact⟩ := Instant.exists_nanos_eq (show t.nanos ≤ t.nanos + (n.toNat * d.nanos : ℕ) by omega)
      (show _ ≤ due.nanos by omega)
    have hfirst := (h.reserve hd hnow hn hburst hsmall hact).2
    have hlater : now ≤ actAt := by
      rw [Instant.le_iff] at hnow ⊢
      omega
    exact ih hfirst hlater (fun m hmem => hcounts m (List.mem_cons_of_mem _ hmem)) (by omega)

theorem ne_zero_of_one_le (h : 1 ≤ n) : n ≠ 0 := by
  rintro rfl
  exact absurd h (by decide)

/-- On a new limiter at one token every `d`, from a nanosecond to 10^15, the burst is reserved at `start`
without a wait. Of all reservations made at `start` after that, each at most the burst and at most 10^15
nanoseconds of tokens, every one is granted, as long as the instant is on the clock, to act just as many
intervals after `start` as tokens were reserved up to it. -/
theorem reservations_paced (d : Duration) (burst : UInt64) (start : Instant) (counts : List UInt64)
    (hd : 1 ≤ d.nanos) (hlong : d.nanos ≤ 10 ^ 15) (hburst : 1 ≤ burst)
    (hcounts : ∀ n ∈ counts, 1 ≤ n ∧ n ≤ burst ∧ n.toNat * d.nanos ≤ 10 ^ 15) :
    let first := (new (.every d) burst).reserve start burst
    first.1 = .granted .zero (some start) ∧
      ∀ earlier n later, counts = earlier ++ n :: later →
        ∀ actAt : Instant, actAt.nanos = start.nanos + (totalCount (earlier ++ [n]) * d.nanos : ℕ) →
          ∃ delay, ((first.2.after (requests (queue start earlier))).reserve start n).1 = .granted delay (some actAt) ∧
            delay.nanos = totalCount (earlier ++ [n]) * d.nanos := by
  intro first
  have hne : d ≠ .zero := by
    rintro rfl
    exact absurd hd (by decide)
  obtain ⟨hgranted, hdrained⟩ := drained_new hne hlong (ne_zero_of_one_le hburst) start
  refine ⟨hgranted, fun earlier n later hsplit actAt hact => ?_⟩
  subst hsplit
  simp only [totalCount_append, totalCount_cons, totalCount_nil, Nat.add_zero, Nat.add_mul] at hact ⊢
  obtain ⟨due, hdue⟩ := Instant.exists_nanos_eq
    (show start.nanos ≤ start.nanos + (totalCount earlier * d.nanos : ℕ) by omega) (show _ ≤ actAt.nanos by omega)
  have hearlier : ∀ m ∈ earlier, m ≠ 0 ∧ m ≤ burst ∧ m.toNat * d.nanos ≤ 10 ^ 15 := by
    intro m hmem
    obtain ⟨hm, hrest⟩ := hcounts m (List.mem_append_left _ hmem)
    exact ⟨ne_zero_of_one_le hm, hrest⟩
  obtain ⟨hn, hle, hsmall⟩ := hcounts n (List.mem_append_right _ List.mem_cons_self)
  have hqueue := hdrained.after hne (Int.le_refl _) hearlier hdue
  have hnow : start ≤ due := by
    rw [Instant.le_iff]
    omega
  refine ⟨_, (hqueue.reserve hne hnow (ne_zero_of_one_le hn) hle hsmall (by omega)).1, ?_⟩
  rw [Instant.nanos_since]
  omega

/-- At seven tokens a second the second reservation waits for the third to the fifth token. -/
theorem reservations_paced_of_sevenths :
    let d : Duration := { nanos := 142_857_143 }
    let start : Instant := { nanos := -1 }
    let actAt : Instant := { nanos := 714_285_714 }
    let first := (new (.every d) 3).reserve start 3
    (1 ≤ d.nanos ∧ d.nanos ≤ 10 ^ 15 ∧ (1 : UInt64) ≤ 3 ∧
        ∀ n ∈ ([2, 3, 1] : List UInt64), 1 ≤ n ∧ n ≤ 3 ∧ n.toNat * d.nanos ≤ 10 ^ 15) ∧
      actAt.nanos = start.nanos + (totalCount [2, 3] * d.nanos : ℕ) ∧ first.1 = .granted .zero (some start) ∧
      ∃ delay, ((first.2.after (requests (queue start [2]))).reserve start 3).1 = .granted delay (some actAt) ∧
        delay.nanos = totalCount [2, 3] * d.nanos := by
  intro d start actAt first
  have hinterval : 1 ≤ d.nanos ∧ d.nanos ≤ 10 ^ 15 ∧ (1 : UInt64) ≤ 3 := by decide
  have hcounts : ∀ n ∈ ([2, 3, 1] : List UInt64), 1 ≤ n ∧ n ≤ 3 ∧ n.toNat * d.nanos ≤ 10 ^ 15 := by
    intro n hn
    simp only [List.mem_cons, List.not_mem_nil, or_false] at hn
    rcases hn with rfl | rfl | rfl <;> decide
  have hact : actAt.nanos = start.nanos + (totalCount [2, 3] * d.nanos : ℕ) := by decide
  obtain ⟨hd, hlong, hburst⟩ := hinterval
  obtain ⟨hgranted, hqueue⟩ := reservations_paced d 3 start [2, 3, 1] hd hlong hburst hcounts
  exact ⟨⟨hd, hlong, hburst, hcounts⟩, hact, hgranted, hqueue [2] 3 [1] rfl actAt hact⟩

end Limiter

end Throttle
