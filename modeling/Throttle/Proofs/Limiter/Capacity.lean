import Throttle.Proofs.Bucket.Grant
import Throttle.Proofs.Limiter.Run

/-!
# No balance above the capacity

Through every run of operations the stored balance is a number between nothing and the capacity, and
so is every balance that is asked for. Main statement: `balance_within_capacity`.
-/

set_option autoImplicit false

namespace Throttle.Limiter

/-- The invariant: the stored balance fits the burst in force. -/
def Sound (l : Limiter) : Prop := InRange l.burst l.bucket.tokens

/-! ## One operation -/

theorem sound_new (limit : Limit) (burst : UInt64) : (new limit burst).Sound :=
  inRange_zero burst

theorem sound_ask {l : Limiter} (h : l.Sound) (now : Instant) (request : Ask) :
    (l.ask now request).2.Sound := by
  rw [limiter_ask]
  exact Bucket.inRange_bucketAfter h

theorem sound_setLimit {l : Limiter} (h : l.Sound) (now : Instant) (limit : Limit) :
    (l.setLimit now limit).Sound := by
  have hsettled := l.bucket.inRange_settle l.burst now l.limit h
  unfold Sound setLimit
  dsimp only
  split
  · exact inRange_capacity l.burst
  · exact hsettled

theorem sound_setBurst {l : Limiter} (h : l.Sound) (now : Instant) (burst : UInt64) :
    (l.setBurst now burst).Sound := by
  have hsettled := l.bucket.inRange_settle l.burst now l.limit h
  exact inRange_min_capacity burst hsettled

theorem sound_step {l : Limiter} (h : l.Sound) (now : Instant) (operation : Operation) :
    (l.step now operation).2.Sound := by
  cases operation with
  | ask request => exact sound_ask h now request
  | tokensAt => exact h
  | setLimit limit => exact sound_setLimit h now limit
  | setBurst burst => exact sound_setBurst h now burst

/-! ## Runs of operations -/

theorem sound_after (operations : List (Instant × Operation)) (l : Limiter) (h : l.Sound) :
    (l.after operations).Sound := by
  induction operations generalizing l with
  | nil => exact h
  | cons operation rest ih =>
    obtain ⟨now, operation⟩ := operation
    rw [after_cons]
    exact ih _ (sound_step h now operation)

theorem inRange_tokensAt (l : Limiter) (now : Instant) : InRange l.burst (l.tokensAt now) := by
  obtain ⟨limit, burst, bucket⟩ := l
  cases limit with
  | unlimited => exact inRange_capacity burst
  | perSecond rate => exact bucket.inRange_balanceAt rate burst now

/-- From a new limiter every run of operations, at whatever instants, leaves a balance within the
capacity and shows one at every instant; and under a rate every grant that takes tokens leaves such
a balance, whatever bucket it started from. -/
theorem balance_within_capacity :
    (∀ (limit : Limit) (burst : UInt64) (operations : List (Instant × Operation)),
      let l := (new limit burst).after operations
      (l.bucket.tokens.isNaN = false ∧ 0 ≤ l.bucket.tokens ∧ l.bucket.tokens ≤ capacity l.burst) ∧
        ∀ now : Instant,
          (l.tokensAt now).isNaN = false ∧ 0 ≤ l.tokensAt now ∧ l.tokensAt now ≤ capacity l.burst) ∧
    ∀ (b next : Bucket) (rate : Rate) (burst n : UInt64) (now : Instant) (maxWait delay : Duration),
      n ≠ 0 → b.propose (.perSecond rate) burst now n maxWait = .granted delay next →
        next.tokens.isNaN = false ∧ 0 ≤ next.tokens ∧ next.tokens ≤ capacity burst := by
  refine ⟨fun limit burst operations => ⟨?_, fun now => ?_⟩, ?_⟩
  · exact (sound_after operations _ (sound_new limit burst)).bounds
  · exact (inRange_tokensAt _ now).bounds
  · intro b next rate burst n now maxWait delay hn h
    exact ((Bucket.grant_of_propose h).inRange hn).bounds

/-- A balance that is not a number is repaired by the first grant. -/
theorem balance_within_capacity_of_nan :
    let b : Bucket := ⟨.nan, none⟩
    let next : Bucket := ⟨Binary64.ofNat 2, some { nanos := 0 }⟩
    b.propose (.perSecond .zero) 3 { nanos := 0 } 1 .zero = .granted .zero next ∧
      next.tokens.isNaN = false ∧ 0 ≤ next.tokens ∧ next.tokens ≤ capacity 3 := by
  intro b next
  have h : b.propose (.perSecond .zero) 3 { nanos := 0 } 1 .zero = .granted .zero next := by decide +kernel
  exact ⟨h, balance_within_capacity.2 b next .zero 3 1 _ .zero .zero (by decide) h⟩

end Throttle.Limiter
