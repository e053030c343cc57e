import Throttle.Gateway
import Throttle.Proofs.Bucket.Clock
import Throttle.Proofs.Limiter.Run
import Throttle.Proofs.Registry.Lookup

/-!
# Reloads that set a limit where there was none

The limit is replaced before the burst, so a bucket that leaves the unlimited limit is filled to the
burst it had, and a greater burst only makes room. Main statement: `reload_fills_iff` says for which
policies the bucket is full all the same.
-/

set_option autoImplicit false

namespace Throttle
open Binary64

theorem timeToEarn_sub_capacity (limit : Limit) {m n : UInt64} (h : fullBalance m ≤ fullBalance n) :
    limit.timeToEarn (capacity m - capacity n) = .zero := by
  have hnonneg := fullBalance_nonneg m
  have hnonpos := nearest_nonpos (sub_nonpos.2 h)
  have hlow : -fullBalance n ≤ nearest (fullBalance m - fullBalance n) :=
    le_nearest_of_le (denotes_capacity n).neg.expressible (by linarith)
  refine timeToEarn_of_nonpos limit ((denotes_capacity m).sub (denotes_capacity n) ?_) hnonpos
  rw [abs_of_nonpos hnonpos]
  exact (neg_le.1 hlow).trans_lt ((le_abs_self _).trans_lt (denotes_capacity n).abs_lt)

namespace Limiter

/-! ## One limiter -/

variable {l : Limiter} {rate : Rate}

theorem setBurst_of_full (hlimit : l.limit = .perSecond rate) (hfull : l.bucket.tokens = capacity l.burst)
    (now : Instant) (burst : UInt64) :
    l.setBurst now burst =
      ⟨.perSecond rate, burst,
        ⟨Binary64.min (capacity l.burst) (capacity burst), some (l.bucket.base now)⟩⟩ := by
  unfold setBurst Bucket.settle
  rw [Bucket.balanceAt_of_full l.limit hfull, hlimit]
  rfl

theorem tokensAt_of_full (hlimit : l.limit = .perSecond rate) (hfull : l.bucket.tokens = capacity l.burst)
    (now : Instant) : l.tokensAt now = capacity l.burst := by
  rw [tokensAt_of_perSecond hlimit]
  exact Bucket.balanceAt_of_full _ hfull

/-- A full bucket whose burst is replaced stays full if the burst does not grow. A greater burst is
full just if the rest of it is earned in no time. -/
theorem tokensAt_setBurst_of_full (hlimit : l.limit = .perSecond rate)
    (hfull : l.bucket.tokens = capacity l.burst) (now : Instant) (burst : UInt64) :
    ((Limit.perSecond rate).timeToEarn (capacity burst - capacity l.burst) = .zero ∧
        (l.setBurst now burst).tokensAt now = capacity burst) ∨
      ((Limit.perSecond rate).timeToEarn (capacity burst - capacity l.burst) ≠ .zero ∧
        ((l.setBurst now burst).tokensAt now).Denotes (fullBalance l.burst)) := by
  have hnew := denotes_capacity burst
  have hold := denotes_capacity l.burst
  rw [setBurst_of_full hlimit hfull]
  by_cases hless : capacity burst < capacity l.burst
  · have hmin : Binary64.min (capacity l.burst) (capacity burst) = capacity burst := by
      unfold Binary64.min
      rw [hold.isNaN_eq, if_neg Bool.false_ne_true, if_pos hless]
    rw [hnew.lt_iff hold] at hless
    rw [hmin]
    exact .inl ⟨timeToEarn_sub_capacity _ hless.le, tokensAt_of_full rfl rfl now⟩
  · have hmin : Binary64.min (capacity l.burst) (capacity burst) = capacity l.burst := by
      unfold Binary64.min
      rw [hold.isNaN_eq, if_neg Bool.false_ne_true, if_neg hless]
    rw [hmin, tokensAt_of_perSecond rfl]
    rw [hnew.lt_iff hold, not_lt] at hless
    exact Bucket.balanceAt_of_idle_zero (Bucket.idle_base _ l.bucket now) hold (fullBalance_nonneg l.burst) hless

end Limiter

namespace Route

/-! ## One route -/

variable {rate : Rate} {r : Route} {policy : Policy}

/-- The limit comes first, so the burst is replaced under the new one. -/
theorem retune_of_unlimited (hr : r.limiter.limit = .unlimited) (hpolicy : policy.limit = .perSecond rate)
    (now : Instant) :
    (r.retune now policy).limiter =
      if r.limiter.burst = policy.burst then r.limiter.setLimit now (.perSecond rate)
      else (r.limiter.setLimit now (.perSecond rate)).setBurst now policy.burst := by
  have hne : r.limiter.limit ≠ policy.limit := by
    rw [hr, hpolicy]
    intro h
    cases h
  unfold retune
  dsimp only
  rw [if_neg hne, hpolicy]
  rfl

theorem tokensAt_retune (hr : r.limiter.limit = .unlimited) (hpolicy : policy.limit = .perSecond rate)
    (now : Instant) :
    (policy.limit.timeToEarn (capacity policy.burst - capacity r.limiter.burst) = .zero ∧
        (r.retune now policy).limiter.tokensAt now = capacity policy.burst) ∨
      (policy.limit.timeToEarn (capacity policy.burst - capacity r.limiter.burst) ≠ .zero ∧
        ((r.retune now policy).limiter.tokensAt now).Denotes (fullBalance r.limiter.burst)) := by
  have hset := Limiter.setLimit_of_unlimited hr now rate
  have hlimit : (r.limiter.setLimit now (.perSecond rate)).limit = .perSecond rate := by rw [hset]
  have hfull : (r.limiter.setLimit now (.perSecond rate)).bucket.tokens =
      capacity (r.limiter.setLimit now (.perSecond rate)).burst := by rw [hset]
  rw [retune_of_unlimited hr hpolicy, hpolicy]
  split
  · next hburst =>
    refine .inl ⟨timeToEarn_sub_capacity _ (by rw [hburst]), ?_⟩
    rw [← hburst]
    exact Limiter.tokensAt_of_full hlimit hfull now
  · exact Limiter.tokensAt_setBurst_of_full hlimit hfull now policy.burst

end Route

namespace Gateway

/-! ## Reloads -/

/-- A route without a limit that is reloaded with one has the balance of a new route just if what the
new burst has more than the old is earned in no time, so if it has no more; in every other case it
has the old burst. -/
theorem reload_fills_iff (g : Gateway) (now : Instant) (config : Config) (key : Option String) {r : Route}
    {policy : Policy} (hr : g.registry.get? key = some r) (hpolicy : config.policy? key = some policy)
    (hunlimited : r.limiter.limit = .unlimited) (hfinite : policy.limit ≠ .unlimited) :
    ∃ next, (g.reload now config).registry.get? key = some next ∧
      (Route.ofPolicy r.name policy).limiter.tokensAt now = capacity policy.burst ∧
      (next.limiter.tokensAt now = capacity policy.burst ↔
        policy.limit.timeToEarn (capacity policy.burst - capacity r.limiter.burst) = .zero) ∧
      (policy.burst ≤ r.limiter.burst → next.limiter.tokensAt now = capacity policy.burst) ∧
      (next.limiter.tokensAt now ≠ capacity policy.burst →
        (next.limiter.tokensAt now).Denotes (fullBalance r.limiter.burst)) := by
  have hnext : (g.reload now config).registry.get? key = some (r.retune now policy) := by
    show (g.registry.reconcile now config).get? key = _
    rw [g.registry.get?_reconcile, hpolicy, hr]
    rfl
  obtain ⟨rate, hrate⟩ : ∃ rate, policy.limit = .perSecond rate := by
    cases hlimit : policy.limit with
    | unlimited => exact absurd hlimit hfinite
    | perSecond rate => exact ⟨rate, rfl⟩
  refine ⟨_, hnext, Limiter.tokensAt_new _ _ now, ?_⟩
  rcases Route.tokensAt_retune hunlimited hrate now with ⟨hdue, hfull⟩ | ⟨hdue, hold⟩
  · exact ⟨⟨fun _ => hdue, fun _ => hfull⟩, fun _ => hfull, fun hne => absurd hfull hne⟩
  · -- equal balances would leave nothing to earn
    have hne : (r.retune now policy).limiter.tokensAt now ≠ capacity policy.burst := by
      intro heq
      have hsame := (heq ▸ hold).unique (denotes_capacity policy.burst)
      exact hdue (timeToEarn_sub_capacity policy.limit hsame.ge)
    have hgreater : ¬ policy.burst ≤ r.limiter.burst := by
      intro hle
      exact hdue (timeToEarn_sub_capacity policy.limit (fullBalance_mono hle))
    exact ⟨⟨fun h => absurd h hne, fun h => absurd h hdue⟩, fun hle => absurd hle hgreater, fun _ => hold⟩

/-- From an unlimited burst of three to a burst of two at one token a second. -/
theorem reload_fills_smaller_burst :
    let g := ofConfig { listener := ⟨"127.0.0.1", 8080⟩, defaultPolicy := { burst := 3 } }
    let policy : Policy := { ratePerSec := some (ofNat 1), burst := 2 }
    let config : Config := { listener := ⟨"127.0.0.1", 8080⟩, defaultPolicy := policy }
    let now : Instant := { nanos := 0 }
    g.registry.get? none = some g.registry.fallback ∧ config.policy? none = some policy ∧
      g.registry.fallback.limiter.limit = .unlimited ∧ policy.limit ≠ .unlimited ∧
        ∃ next, (g.reload now config).registry.get? none = some next ∧
          next.limiter.tokensAt now = capacity 2 := by
  intro g policy config now
  have hpolicy : config.policy? none = some policy := rfl
  obtain ⟨next, hnext, _, _, hsmaller, _⟩ :=
    reload_fills_iff g now config none (r := g.registry.fallback) rfl hpolicy rfl (by decide +kernel)
  exact ⟨rfl, rfl, rfl, by decide +kernel, next, hnext, hsmaller (by decide +kernel)⟩

/-- From an unlimited burst of one to a burst of five at one token a second the bucket holds one. -/
theorem reload_keeps_old_burst :
    let g := ofConfig { listener := ⟨"127.0.0.1", 8080⟩ }
    let policy : Policy := { ratePerSec := some (ofNat 1), burst := 5 }
    let config : Config := { listener := ⟨"127.0.0.1", 8080⟩, defaultPolicy := policy }
    let now : Instant := { nanos := 1_000_000_000_000 }
    g.registry.fallback.limiter.limit = .unlimited ∧ policy.limit ≠ .unlimited ∧
      (g.reload now config).registry.fallback.limiter.tokensAt now = capacity 1 ∧
      (Route.ofPolicy fallbackName policy).limiter.tokensAt now = capacity 5 ∧ capacity 1 ≠ capacity 5 := by
  decide +kernel

end Gateway

end Throttle
