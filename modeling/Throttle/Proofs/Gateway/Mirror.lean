import Throttle.Proofs.Gateway.Run

/-!
# The registry follows the configuration

Whatever requests and reloads came before, the registry has one route for each entry of the
configuration in force, and the limit, the burst and the longest wait of a route are those of its
policy. Requests only replace the bucket of a limiter, and a reload sets all three, whatever they
were. Main statements: `mirrors_after` for runs and `Mirrors.of_mem`, what it says of a single route.
-/

set_option autoImplicit false

namespace Throttle

/-! ## Policies in service -/

/-- The service has exactly the limit, the burst and the longest wait of the policy. -/
structure Service.Follows (s : Service) (policy : Policy) : Prop where
  limit : s.limiter.limit = policy.limit
  burst : s.limiter.burst = policy.burst
  maxWaitMs : s.maxWaitMs = policy.maxWaitMs

variable {policy : Policy}

theorem Service.Follows.after {s : Service} (h : s.Follows policy) (now : Instant) (cost : UInt64) :
    (s.after now cost).Follows policy := ⟨h.limit, h.burst, h.maxWaitMs⟩

theorem Route.follows_ofPolicy (name : String) (policy : Policy) : (ofPolicy name policy).service.Follows policy :=
  ⟨rfl, rfl, rfl⟩

theorem Limiter.limit_ite_setLimit (l : Limiter) (now : Instant) (limit : Limit) :
    (if l.limit = limit then l else l.setLimit now limit).limit = limit := by
  split
  · assumption
  · rfl

theorem Limiter.limit_ite_setBurst (l : Limiter) (now : Instant) (burst : UInt64) :
    (if l.burst = burst then l else l.setBurst now burst).limit = l.limit := by
  split <;> rfl

theorem Limiter.burst_ite_setBurst (l : Limiter) (now : Instant) (burst : UInt64) :
    (if l.burst = burst then l else l.setBurst now burst).burst = burst := by
  split
  · assumption
  · rfl

theorem Route.follows_retune (r : Route) (now : Instant) (policy : Policy) :
    (r.retune now policy).service.Follows policy := by
  refine ⟨?_, ?_, rfl⟩
  · exact (Limiter.limit_ite_setBurst _ now _).trans (Limiter.limit_ite_setLimit r.limiter now _)
  · exact Limiter.burst_ite_setBurst _ now _

/-- Where the limit and the burst stay, there is nothing to settle. -/
theorem Route.retune_of_limits {r : Route} (hlimit : r.limiter.limit = policy.limit)
    (hburst : r.limiter.burst = policy.burst) (now : Instant) :
    r.retune now policy = { r with maxWaitMs := policy.maxWaitMs } := by
  unfold retune
  simp only [if_pos hlimit, if_pos hburst]

/-- A policy that changes nothing in effect leaves the route as it is, its bucket included. -/
theorem Route.retune_of_follows {r : Route} (h : r.service.Follows policy) (now : Instant) :
    r.retune now policy = r := by
  have hwait : r.maxWaitMs = policy.maxWaitMs := h.maxWaitMs
  rw [retune_of_limits h.limit h.burst, ← hwait]

namespace Gateway

/-! ## The invariant -/

structure Mirrors (g : Gateway) : Prop where
  names : g.registry.names = g.config.routes.routes
  fallback_name : g.registry.fallback.name = fallbackName
  service : ∀ key policy, g.config.policy? key = some policy → ∃ s, g.service? key = some s ∧ s.Follows policy

variable {g : Gateway} {key : Option String}

theorem Mirrors.nodup (h : g.Mirrors) : g.registry.names.Nodup := by
  rw [h.names]
  exact Registry.nodup_routes g.config

theorem mirrors_ofConfig (config : Config) : (ofConfig config).Mirrors := by
  refine ⟨Registry.names_ofConfig config, rfl, ?_⟩
  intro key policy hpolicy
  have hpolicy' : config.policy? key = some policy := hpolicy
  refine ⟨(Route.ofPolicy (key.getD fallbackName) policy).service, ?_, Route.follows_ofPolicy _ policy⟩
  show ((Registry.ofConfig config).get? key).map Route.service = _
  rw [Registry.get?_ofConfig, hpolicy']
  rfl

theorem Mirrors.admission (h : g.Mirrors) (now : Instant) (path : String) (cost : UInt64) :
    (g.admission now path cost).2.Mirrors := by
  refine ⟨?_, ?_, ?_⟩
  · rw [names_admission, config_admission]
    exact h.names
  · rw [fallback_name_admission]
    exact h.fallback_name
  · intro key policy hpolicy
    rw [config_admission] at hpolicy
    obtain ⟨s, hs, hfollows⟩ := h.service key policy hpolicy
    rw [service?_admission h.nodup, hs]
    split
    · exact ⟨s.after now cost, rfl, hfollows.after now cost⟩
    · exact ⟨s, rfl, hfollows⟩

theorem config_request (g : Gateway) (now : Instant) (r : Http.Request) :
    (g.request now r).2.config = g.config := by
  cases hpath : admissionPath? r with
  | none => rw [request_of_no_admission hpath]
  | some path => rw [request_of_admission hpath, config_admission]

theorem Mirrors.request (h : g.Mirrors) (now : Instant) (r : Http.Request) : (g.request now r).2.Mirrors := by
  cases hpath : admissionPath? r with
  | none =>
    rw [request_of_no_admission hpath]
    exact h
  | some path =>
    rw [request_of_admission hpath]
    exact h.admission now path r.headers.cost

theorem Mirrors.reload (h : g.Mirrors) (now : Instant) (config : Config) : (g.reload now config).Mirrors := by
  refine ⟨names_reload g now config, h.fallback_name, ?_⟩
  intro key policy hpolicy
  have hpolicy' : config.policy? key = some policy := hpolicy
  show ∃ s, ((g.registry.reconcile now config).get? key).map Route.service = some s ∧ s.Follows policy
  rw [Registry.get?_reconcile, hpolicy', Option.map_some, Option.map_some]
  refine ⟨_, rfl, ?_⟩
  cases g.registry.get? key with
  | none => exact Route.follows_ofPolicy _ policy
  | some r => exact r.follows_retune now policy

theorem Mirrors.step (h : g.Mirrors) (now : Instant) (event : Event) : (g.step now event).2.Mirrors := by
  cases event with
  | request r => exact h.request now r
  | reload config => exact h.reload now config

theorem Mirrors.after (events : List (Instant × Event)) (h : g.Mirrors) : (g.after events).Mirrors := by
  induction events generalizing g with
  | nil => exact h
  | cons first rest ih => exact ih (h.step first.1 first.2)

theorem mirrors_after (config : Config) (events : List (Instant × Event)) :
    ((ofConfig config).after events).Mirrors := (mirrors_ofConfig config).after events

/-! ## Routes and policies -/

/-- A configured route is the one of its name, and the configuration has a policy for it. -/
theorem Mirrors.of_mem (h : g.Mirrors) {r : Route} (hmem : r ∈ g.registry.routes) :
    ∃ policy, g.config.routes.get? r.name = some policy ∧ r.service.Follows policy := by
  have hname : r.name ∈ g.config.routes.routes := by
    rw [← h.names]
    exact List.mem_map_of_mem hmem
  obtain ⟨policy, hpolicy⟩ := Option.isSome_iff_exists.1 ((g.config.policy?_isSome_iff r.name).2 hname)
  obtain ⟨s, hs, hfollows⟩ := h.service (some r.name) policy hpolicy
  have hfound : g.service? (some r.name) = some r.service :=
    congrArg (Option.map Route.service) (Registry.find?_name h.nodup hmem)
  rw [hfound, Option.some.injEq] at hs
  rw [← hs] at hfollows
  exact ⟨policy, hpolicy, hfollows⟩

theorem Mirrors.fallback_follows (h : g.Mirrors) : g.registry.fallback.service.Follows g.config.defaultPolicy := by
  obtain ⟨s, hs, hfollows⟩ := h.service none g.config.defaultPolicy rfl
  have hfallback : g.service? none = some g.registry.fallback.service := rfl
  rw [hfallback, Option.some.injEq] at hs
  rw [hs]
  exact hfollows

theorem Mirrors.get?_eq_none (h : g.Mirrors) (hnone : g.config.policy? key = none) : g.registry.get? key = none := by
  cases key with
  | none => cases hnone
  | some name =>
    apply Registry.get?_eq_none_of_not_mem
    rw [h.names, ← Config.policy?_isSome_iff, hnone]
    exact Bool.false_ne_true

theorem Mirrors.get?_of_policy (h : g.Mirrors) {policy : Policy} (hpolicy : g.config.policy? key = some policy) :
    ∃ r, g.registry.get? key = some r ∧ r.service.Follows policy := by
  obtain ⟨s, hs, hfollows⟩ := h.service key policy hpolicy
  obtain ⟨r, hr, rfl⟩ := Option.map_eq_some_iff.1 hs
  exact ⟨r, hr, hfollows⟩

end Gateway

end Throttle
