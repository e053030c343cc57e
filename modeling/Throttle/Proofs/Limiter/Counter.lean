import Throttle.Proofs.Bucket.Counter
import Throttle.Proofs.Limiter.Admission

/-!
# Limiters that count

Where nothing can refill, a limiter behaves as a natural number that starts at the burst: a request is
granted at once if its count is no more than what is left, and else refused. Main statement: `counts_down`.
-/

set_option autoImplicit false

namespace Throttle
open Binary64

theorem ofRate_of_not_pos {x : Binary64} (h : ¬ 0 < x) : Limit.ofRate x = .perSecond .zero := by
  rcases x.shape with rfl | rfl | rfl | ⟨q, hq⟩
  · rfl
  · rfl
  · exact absurd rfl h
  · rw [denotes_ofNat_zero.lt_iff hq, not_lt] at h
    cases hq with
    | negZero => rfl
    | finite q hrep =>
      show (if hq : 0 ≤ q then Limit.perSecond ⟨q, hrep, hq⟩ else .perSecond .zero) = _
      split
      · next h0 =>
        obtain rfl := le_antisymm h h0
        rfl
      · rfl

namespace Limiter
open Bucket

/-! ## The counter -/

/-- What is left of `c` tokens after requests for `counts`, of which each takes its count if so many are
there and nothing if not. -/
def tokensLeft (c : ℕ) (counts : List UInt64) : ℕ :=
  counts.foldl (fun c n => if n.toNat ≤ c then c - n.toNat else c) c

def countsOf (calls : List (Instant × Ask)) : List UInt64 :=
  calls.map fun call => call.2.count

/-- Runs in which nothing can refill: at no rate, after the earliest instant, or at one instant and no
more than 10^9 tokens a second, without waits. -/
inductive NoRefill : Limit → List (Instant × Ask) → Prop where
  | rateZero (x : Binary64) (hx : ¬ 0 < x) (calls : List (Instant × Ask))
    (hlate : ∀ call ∈ calls, Instant.earliest < call.1) : NoRefill (.ofRate x) calls
  | oneInstant (rate : Rate) (hr : 0 < rate.value) (hfast : rate.value ≤ 10 ^ 9) (now : Instant)
    (counts : List UInt64) : NoRefill (.perSecond rate) (counts.map fun n => (now, .allow n))

theorem NoRefill.frozen {limit : Limit} {calls : List (Instant × Ask)} (h : NoRefill limit calls) :
    ∃ rate, limit = .perSecond rate ∧
      ∀ s ∈ calls.map (·.1), ∀ call ∈ calls, Frozen rate s call.1 call.2.maxWait := by
  cases h with
  | rateZero x hx _ hlate =>
    refine ⟨.zero, ofRate_of_not_pos hx, fun s hs call _ => ?_⟩
    obtain ⟨other, hother, rfl⟩ := List.mem_map.1 hs
    exact frozen_of_rate_zero rfl (hlate other hother) call.1 call.2.maxWait
  | oneInstant rate hr hfast now counts =>
    refine ⟨rate, rfl, fun s hs call hcall => ?_⟩
    obtain ⟨other, hother, rfl⟩ := List.mem_map.1 hs
    obtain ⟨m, _, rfl⟩ := List.mem_map.1 hother
    obtain ⟨n, _, rfl⟩ := List.mem_map.1 hcall
    exact frozen_of_same_instant hr hfast now

/-! ## One request -/

/-- The limiter has `c` tokens left and is at one of the instants. -/
structure Counting (l : Limiter) (rate : Rate) (burst : UInt64) (instants : List Instant) (c : ℕ) : Prop where
  limit_eq : l.limit = .perSecond rate
  burst_eq : l.burst = burst
  counts : l.bucket.Counts burst instants c

variable {l : Limiter} {rate : Rate} {burst : UInt64} {instants : List Instant} {c : ℕ} {now : Instant} {request : Ask}

theorem counting_new (rate : Rate) (burst : UInt64) (instants : List Instant) :
    (new (.perSecond rate) burst).Counting rate burst instants burst.toNat :=
  ⟨rfl, rfl, .unused 0⟩

theorem Counting.tokensAt (h : l.Counting rate burst instants c) (hburst : burst.toNat ≤ 9007199254740992)
    {maxWait : Duration} (hfrozen : ∀ s ∈ instants, Frozen rate s now maxWait) : l.tokensAt now = ofNat c := by
  obtain ⟨hlimit, rfl, hcounts⟩ := h
  rw [tokensAt_of_perSecond hlimit]
  exact hcounts.balanceAt hburst hfrozen

theorem Counting.grant (h : l.Counting rate burst instants c) (hburst : burst.toNat ≤ 9007199254740992)
    (hfrozen : ∀ s ∈ instants, Frozen rate s now request.maxWait) (hnow : now ∈ instants)
    (hn : request.count.toNat ≤ c) :
    l.reservation now request = .granted .zero (some now) ∧
      (l.ask now request).2.Counting rate burst instants (c - request.count.toNat) := by
  obtain ⟨hlimit, rfl, hcounts⟩ := h
  obtain ⟨next, hgrant, hnext⟩ := hcounts.grant hburst hfrozen hnow hn
  rw [← hlimit] at hgrant
  rw [limiter_ask]
  unfold reservation proposal
  rw [reserveWithin_of_granted hgrant, hgrant, Instant.add?_zero]
  exact ⟨rfl, hlimit, rfl, hnext⟩

theorem Counting.refuse (h : l.Counting rate burst instants c) (hburst : burst.toNat ≤ 9007199254740992)
    (hfrozen : ∀ s ∈ instants, Frozen rate s now request.maxWait) (hn : c < request.count.toNat) :
    (l.reservation now request).isGranted = false ∧ (l.ask now request).2 = l := by
  obtain ⟨hlimit, rfl, hcounts⟩ := h
  obtain ⟨reason, delay, hdenied⟩ := hcounts.refuse hburst hfrozen hn
  rw [← hlimit] at hdenied
  rw [limiter_ask]
  unfold reservation proposal reserveWithin
  rw [hdenied]
  exact ⟨rfl, rfl⟩

/-! ## Runs -/

theorem tokensLeft_cons_of_le {n : UInt64} (h : n.toNat ≤ c) (rest : List UInt64) :
    tokensLeft c (n :: rest) = tokensLeft (c - n.toNat) rest := by
  show tokensLeft (if n.toNat ≤ c then c - n.toNat else c) rest = _
  rw [if_pos h]

theorem tokensLeft_cons_of_lt {n : UInt64} (h : c < n.toNat) (rest : List UInt64) :
    tokensLeft c (n :: rest) = tokensLeft c rest := by
  show tokensLeft (if n.toNat ≤ c then c - n.toNat else c) rest = _
  rw [if_neg (Nat.not_le.2 h)]

theorem grantedTotal_map (calls : List (Instant × Ask)) :
    grantedTotal (calls.map fun call => (call.1, call.2.count)) = totalCount (countsOf calls) := by
  induction calls with
  | nil => rfl
  | cons call rest ih =>
    show call.2.count.toNat + grantedTotal (rest.map _) = call.2.count.toNat + totalCount (countsOf rest)
    rw [ih]

/-- Each call is at one of the instants, and none of them refills anything. -/
def Idle (rate : Rate) (instants : List Instant) (calls : List (Instant × Ask)) : Prop :=
  ∀ call ∈ calls, call.1 ∈ instants ∧ ∀ s ∈ instants, Frozen rate s call.1 call.2.maxWait

variable {calls : List (Instant × Ask)}

theorem Counting.after (h : l.Counting rate burst instants c) (hburst : burst.toNat ≤ 9007199254740992)
    (hidle : Idle rate instants calls) :
    (l.after (requests calls)).Counting rate burst instants (tokensLeft c (countsOf calls)) := by
  induction calls generalizing l c with
  | nil => exact h
  | cons call rest ih =>
    obtain ⟨⟨hnow, hfrozen⟩, hrest⟩ := List.forall_mem_cons.1 hidle
    show ((l.ask call.1 call.2).2.after (requests rest)).Counting rate burst instants
      (tokensLeft c (call.2.count :: countsOf rest))
    rcases Nat.lt_or_ge c call.2.count.toNat with hlt | hle
    · rw [(h.refuse hburst hfrozen hlt).2, tokensLeft_cons_of_lt hlt]
      exact ih h hrest
    · rw [tokensLeft_cons_of_le hle]
      exact ih (h.grant hburst hfrozen hnow hle).2 hrest

/-- What was granted and what is left add up to what was there. -/
theorem Counting.granted_add_left (h : l.Counting rate burst instants c) (hburst : burst.toNat ≤ 9007199254740992)
    (hidle : Idle rate instants calls) :
    grantedTotal (l.grants calls) + tokensLeft c (countsOf calls) = c := by
  induction calls generalizing l c with
  | nil => exact Nat.zero_add c
  | cons call rest ih =>
    obtain ⟨⟨hnow, hfrozen⟩, hrest⟩ := List.forall_mem_cons.1 hidle
    show grantedTotal (l.grants ((call.1, call.2) :: rest)) + tokensLeft c (call.2.count :: countsOf rest) = c
    rw [grants, isGranted_ask]
    rcases Nat.lt_or_ge c call.2.count.toNat with hlt | hle
    · obtain ⟨hrefused, hsame⟩ := h.refuse hburst hfrozen hlt
      rw [hrefused, hsame, tokensLeft_cons_of_lt hlt]
      exact ih h hrest
    · obtain ⟨hgranted, hnext⟩ := h.grant hburst hfrozen hnow hle
      have hrun := ih hnext hrest
      rw [hgranted, tokensLeft_cons_of_le hle]
      show call.2.count.toNat + grantedTotal ((l.ask call.1 call.2).2.grants rest) +
        tokensLeft (c - call.2.count.toNat) (countsOf rest) = c
      omega

theorem Counting.grants_eq_all (h : l.Counting rate burst instants c) (hburst : burst.toNat ≤ 9007199254740992)
    (hidle : Idle rate instants calls) (htotal : totalCount (countsOf calls) ≤ c) :
    l.grants calls = calls.map fun call => (call.1, call.2.count) := by
  induction calls generalizing l c with
  | nil => rfl
  | cons call rest ih =>
    obtain ⟨⟨hnow, hfrozen⟩, hrest⟩ := List.forall_mem_cons.1 hidle
    have htotal' : call.2.count.toNat + totalCount (countsOf rest) ≤ c := htotal
    obtain ⟨hgranted, hnext⟩ := h.grant hburst hfrozen hnow (by omega)
    show l.grants ((call.1, call.2) :: rest) = _
    rw [grants, isGranted_ask, hgranted, ih hnext hrest (by omega)]
    rfl

/-- Where nothing can refill, a limiter of at most 2^53 tokens is a counter `c` that starts at the burst.
At every point of the run the balance at the instant of any call is `c`, the next request is granted at once
if its count is no more than `c` and else refused, and what the rest of the run is granted and leaves adds up
to `c`. So all of it is granted just when its total is no more than `c`, however it is split. -/
theorem counts_down (limit : Limit) (burst : UInt64) (calls earlier later : List (Instant × Ask))
    (hburst : burst.toNat ≤ 2 ^ 53) (h : NoRefill limit calls) (hsplit : calls = earlier ++ later) :
    let l := (new limit burst).after (requests earlier)
    let c := tokensLeft burst.toNat (countsOf earlier)
    (∀ call ∈ calls, l.tokensAt call.1 = ofNat c) ∧
      (∀ now request rest, later = (now, request) :: rest →
        if request.count.toNat ≤ c then l.reservation now request = .granted .zero (some now)
        else (l.reservation now request).isGranted = false) ∧
      grantedTotal (l.grants later) + tokensLeft c (countsOf later) = c ∧
      (l.grants later = later.map (fun call => (call.1, call.2.count)) ↔ totalCount (countsOf later) ≤ c) := by
  intro l c
  obtain ⟨rate, rfl, hfrozen⟩ := h.frozen
  have hidle : Idle rate (calls.map (·.1)) calls :=
    fun call hcall => ⟨List.mem_map_of_mem hcall, fun s hs => hfrozen s hs call hcall⟩
  subst hsplit
  obtain ⟨hearlier, hlater⟩ := List.forall_mem_append.1 hidle
  have hcounting := (counting_new rate burst _).after hburst hearlier
  refine ⟨?_, ?_, hcounting.granted_add_left hburst hlater, ?_⟩
  · intro call hcall
    exact hcounting.tokensAt hburst (hidle call hcall).2
  · rintro now request rest rfl
    obtain ⟨hnow, hrequest⟩ := hlater (now, request) List.mem_cons_self
    split
    · next hle => exact (hcounting.grant hburst hrequest hnow hle).1
    · next hlt => exact (hcounting.refuse hburst hrequest (Nat.not_le.1 hlt)).1
  · refine ⟨fun hall => ?_, hcounting.grants_eq_all hburst hlater⟩
    have hsum := hcounting.granted_add_left hburst hlater
    rw [hall, grantedTotal_map] at hsum
    omega

/-- With not a number for a rate, on a clock that goes back and with a caller who would wait, and with a token
for each nanosecond, three requests at one instant: each time the second of them is refused. -/
theorem counts_down_of_nan_and_of_fast_rate :
    let fast : Rate := ⟨10 ^ 9, ⟨10 ^ 9, 0, by decide, by decide, by decide, by decide +kernel⟩, by decide⟩
    let now : Instant := { nanos := 7 }
    let first : Instant × Ask := ({ nanos := 5_000_000_000 }, .allow 3)
    let second : Instant := { nanos := -2_000_000_000 }
    let later : List (Instant × Ask) := [(second, .reserve 4), ({ nanos := 1 }, .allow 2)]
    let l := (new (.ofRate .nan) 5).after (requests [first])
    let once := (new (.perSecond fast) 5).after (requests [(now, .allow 3)])
    (5 : UInt64).toNat ≤ 2 ^ 53 ∧ NoRefill (.ofRate .nan) (first :: later) ∧
      NoRefill (.perSecond fast) [(now, .allow 3), (now, .allow 4), (now, .allow 2)] ∧
      l.tokensAt first.1 = ofNat 2 ∧ (l.reservation second (.reserve 4)).isGranted = false ∧
      grantedTotal (l.grants later) = 2 ∧
      once.tokensAt now = ofNat 2 ∧ grantedTotal (once.grants [(now, .allow 4), (now, .allow 2)]) = 2 := by
  intro fast now first second later l once
  have hburst : (5 : UInt64).toNat ≤ 2 ^ 53 := by decide
  have hnan : NoRefill (.ofRate .nan) (first :: later) := .rateZero .nan (not_lt_nan 0) _ (by decide)
  have hfast : NoRefill (.perSecond fast) [(now, .allow 3), (now, .allow 4), (now, .allow 2)] :=
    .oneInstant fast (by decide) (by decide) now [3, 4, 2]
  obtain ⟨hbalance, hnext, hsum, _⟩ := counts_down (.ofRate .nan) 5 (first :: later) [first] later hburst hnan rfl
  obtain ⟨hbalance', _, hsum', _⟩ := counts_down (.perSecond fast) 5 _ [(now, .allow 3)]
    [(now, .allow 4), (now, .allow 2)] hburst hfast rfl
  have hrefused := hnext second (.reserve 4) [({ nanos := 1 }, .allow 2)] rfl
  rw [if_neg (by decide)] at hrefused
  exact ⟨hburst, hnan, hfast, hbalance first List.mem_cons_self, hrefused, hsum,
    hbalance' (now, .allow 3) List.mem_cons_self, hsum'⟩

end Limiter

end Throttle
