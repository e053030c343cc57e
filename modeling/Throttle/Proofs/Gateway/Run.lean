import Throttle.Gateway
import Throttle.Proofs.Registry.Lookup

/-!
# Runs of the gateway

Requests and reloads one after the other, each at an instant of its own. What a route does for a
request depends on its service alone, the limiter and the longest wait: the counters and the rest of
the registry have no part in it.
-/

set_option autoImplicit false

namespace Throttle

open Http

/-! ## Services -/

/-- What decides the requests of a route. -/
structure Service where
  limiter : Limiter
  maxWaitMs : UInt64
  deriving DecidableEq

def Route.service (r : Route) : Service := ⟨r.limiter, r.maxWaitMs⟩

namespace Service

variable (s : Service) (now : Instant) (path : String) (cost : UInt64)

def reservation : Reservation × Limiter := s.limiter.reserveWithin now cost (.ofMillis s.maxWaitMs)

def answer : Response :=
  match (s.reservation now cost).1 with
  | .granted .. => .admitted path cost ((s.reservation now cost).1.delayFrom now)
  | .denied reason wait => .refused reason wait

def after : Service := { s with limiter := (s.reservation now cost).2 }

end Service

/-- What becomes of a service under a new policy is decided by the service. -/
theorem Route.service_retune {r r' : Route} (h : r.service = r'.service) (now : Instant) (policy : Policy) :
    (r.retune now policy).service = (r'.retune now policy).service := by
  unfold service at h
  rw [Service.mk.injEq] at h
  unfold service retune
  dsimp only
  rw [h.1]

namespace Gateway

/-! ## Events -/

inductive Event where
  | request (r : Request)
  | reload (config : Config)

/-- The path of a request that comes to admission. -/
def admissionPath? (r : Request) : Option String :=
  (path? r.target).filter fun path => path ∉ ["/", "/status", "/status/"]

def step (g : Gateway) (now : Instant) : Event → Option Response × Gateway
  | .request r => ((g.request now r).1, (g.request now r).2)
  | .reload config => (none, g.reload now config)

def after (g : Gateway) (events : List (Instant × Event)) : Gateway :=
  events.foldl (fun g event => (g.step event.1 event.2).2) g

@[simp] theorem after_nil (g : Gateway) : g.after [] = g := rfl

@[simp] theorem after_cons (g : Gateway) (now : Instant) (event : Event) (rest : List (Instant × Event)) :
    g.after ((now, event) :: rest) = (g.step now event).2.after rest := rfl

theorem request_of_admission {r : Request} {path : String} (h : admissionPath? r = some path)
    (g : Gateway) (now : Instant) : g.request now r = g.admission now path r.headers.cost := by
  unfold admissionPath? at h
  rw [Option.filter_eq_some_iff] at h
  obtain ⟨hpath, hplain⟩ := h
  simp only [List.mem_cons, List.not_mem_nil, or_false, not_or, decide_eq_true_eq] at hplain
  obtain ⟨hroot, hstatus, hslash⟩ := hplain
  unfold request
  simp only [hpath, if_neg hroot, if_neg hstatus, if_neg hslash]

theorem request_of_no_admission {r : Request} (h : admissionPath? r = none) (g : Gateway) (now : Instant) :
    (g.request now r).2 = g := by
  unfold admissionPath? at h
  unfold request
  cases hpath : path? r.target with
  | none => rfl
  | some path =>
    dsimp only
    split
    · rfl
    · split
      · rfl
      · split
        · rfl
        · next hroot hstatus hslash =>
          rw [hpath, Option.filter_eq_none_iff] at h
          have hplain := h path rfl
          simp [hroot, hstatus, hslash] at hplain

/-! ## Admission -/

/-- The service of a key, if the registry has a route for it. -/
def service? (g : Gateway) (key : Option String) : Option Service :=
  (g.registry.get? key).map Route.service

theorem reservation_resolve (g : Gateway) (now : Instant) (path : String) (cost : UInt64) :
    (g.registry.resolve path).limiter.reserveWithin now cost (g.registry.resolve path).maxWait =
      (g.registry.resolve path).service.reservation now cost := rfl

theorem name_admittedBy (limiter : Limiter) (r : Route) : (admittedBy limiter r).name = r.name := rfl

theorem name_refusedBy (r : Route) : (refusedBy r).name = r.name := rfl

theorem admission_answer (g : Gateway) (now : Instant) (path : String) (cost : UInt64) :
    (g.admission now path cost).1 = (g.registry.resolve path).service.answer now path cost := by
  unfold admission Service.answer
  dsimp only
  rw [reservation_resolve]
  cases ((g.registry.resolve path).service.reservation now cost).1 with
  | granted delay actAt => rfl
  | denied reason wait => rfl

theorem limiter_of_denied {s : Service} {now : Instant} {cost : UInt64} {reason : Denial} {wait : Duration}
    (h : (s.reservation now cost).1 = .denied reason wait) : (s.reservation now cost).2 = s.limiter := by
  unfold Service.reservation Limiter.reserveWithin at h ⊢
  dsimp only at h ⊢
  cases hproposal : s.limiter.bucket.propose s.limiter.limit s.limiter.burst now cost (.ofMillis s.maxWaitMs) with
  | granted delay next =>
    rw [hproposal] at h
    cases h
  | denied reason delay => rfl

@[simp] theorem config_admission (g : Gateway) (now : Instant) (path : String) (cost : UInt64) :
    (g.admission now path cost).2.config = g.config := by
  unfold admission
  dsimp only
  split <;> rfl

@[simp] theorem fallback_name_admission (g : Gateway) (now : Instant) (path : String) (cost : UInt64) :
    (g.admission now path cost).2.registry.fallback.name = g.registry.fallback.name := by
  unfold admission
  dsimp only
  split
  · exact g.registry.fallback_name_update path (name_admittedBy _)
  · exact g.registry.fallback_name_update path name_refusedBy

@[simp] theorem names_admission (g : Gateway) (now : Instant) (path : String) (cost : UInt64) :
    (g.admission now path cost).2.registry.names = g.registry.names := by
  unfold admission
  dsimp only
  split
  · exact g.registry.names_update path (name_admittedBy _)
  · exact g.registry.names_update path name_refusedBy

/-- Admission acts on the service in charge and on no other. -/
theorem service?_admission {g : Gateway} (hnodup : g.registry.names.Nodup) (now : Instant) (path : String)
    (cost : UInt64) (key : Option String) :
    (g.admission now path cost).2.service? key =
      if key = g.registry.keyOf path then (g.service? key).map (·.after now cost) else g.service? key := by
  have howner := Registry.get?_keyOf hnodup path
  unfold service? admission
  dsimp only
  rw [reservation_resolve]
  split
  · next h =>
    show ((g.registry.update path (admittedBy _)).get? key).map Route.service = _
    rw [g.registry.get?_update path (name_admittedBy _)]
    split
    · next hkey =>
      rw [hkey, howner]
      rfl
    · rfl
  · next reason wait h =>
    show ((g.registry.update path refusedBy).get? key).map Route.service = _
    rw [g.registry.get?_update path name_refusedBy]
    split
    · next hkey =>
      rw [hkey, howner]
      show some (g.registry.resolve path).service = some ((g.registry.resolve path).service.after now cost)
      unfold Service.after
      rw [limiter_of_denied h]
    · rfl

/-! ## Reloads -/

@[simp] theorem names_reload (g : Gateway) (now : Instant) (config : Config) :
    (g.reload now config).registry.names = config.routes.routes :=
  g.registry.names_reconcile now config

/-- The service of a key after a reload is decided by the one before. -/
theorem service?_reload {g g' : Gateway} {key : Option String} (h : g.service? key = g'.service? key)
    (now : Instant) (config : Config) :
    (g.reload now config).service? key = (g'.reload now config).service? key := by
  unfold service? at h ⊢
  show ((g.registry.reconcile now config).get? key).map Route.service =
    ((g'.registry.reconcile now config).get? key).map Route.service
  rw [g.registry.get?_reconcile, g'.registry.get?_reconcile]
  cases config.policy? key with
  | none => rfl
  | some policy =>
    cases hr : g.registry.get? key with
    | none =>
      rw [hr] at h
      rw [Option.map_eq_none_iff.1 h.symm]
    | some r =>
      rw [hr] at h
      obtain ⟨r', hr', hservice⟩ := Option.map_eq_some_iff.1 h.symm
      rw [hr']
      exact congrArg some (Route.service_retune hservice.symm now policy)

end Gateway

end Throttle
