import Throttle.Proofs.Gateway.Mirror
import Throttle.Proofs.Registry.ByteOrder
import Throttle.Server

/-!
# Runs of a server

What comes to a server is a request, a change in the directory of its configuration file, which may
make it load the file again, in vain or not, or a configuration that is put into force directly. None
of these lets the registry fall behind the configuration in force. Main statement:
`registry_mirrors_config`.
-/

set_option autoImplicit false

namespace Throttle.Server

/-! ## Events -/

inductive Event where
  | request (r : Http.Request)
  | file (event : FileEvent)
  | install (config : Config)

def step (s : Server) (now : Instant) : Event → Server
  | .request r => (s.request now r).2
  | .file event => (s.fileEvent now event).2
  | .install config => { s with gateway := s.gateway.reload now config }

def after (s : Server) (events : List (Instant × Event)) : Server :=
  events.foldl (fun s event => s.step event.1 event.2) s

/-! ## Runs -/

theorem mirrors_fileEvent {s : Server} (h : s.gateway.Mirrors) (now : Instant) (event : FileEvent) :
    (s.fileEvent now event).2.gateway.Mirrors := by
  rw [gateway_fileEvent]
  split
  · split
    · next config _ => exact h.reload now config
    · exact h
  · exact h

theorem mirrors_step {s : Server} (h : s.gateway.Mirrors) (now : Instant) (event : Event) :
    (s.step now event).gateway.Mirrors := by
  cases event with
  | request r => exact h.request now r
  | file event => exact mirrors_fileEvent h now event
  | install config => exact h.reload now config

theorem mirrors_after (events : List (Instant × Event)) {s : Server} (h : s.gateway.Mirrors) :
    (s.after events).gateway.Mirrors := by
  induction events generalizing s with
  | nil => exact h
  | cons first rest ih => exact ih (mirrors_step h first.1 first.2)

/-- From whatever configuration a server starts, and whatever requests and reloads come to it, its
configured routes are the keys of the configuration in force, each once and in the order of their
bytes. Every one has the limit, the burst and the longest wait of its policy, and so has the route
`*` of all other paths. -/
theorem registry_mirrors_config (start : Server) (config : Config) (events : List (Instant × Event)) :
    let g := (({ start with gateway := .ofConfig config } : Server).after events).gateway
    g.registry.names = g.config.routes.routes ∧
      g.registry.names.Pairwise (fun name other => utf8Bytes name < utf8Bytes other) ∧
      (∀ r ∈ g.registry.routes, ∃ policy, g.config.routes.get? r.name = some policy ∧
        r.limiter.limit = policy.limit ∧ r.limiter.burst = policy.burst ∧ r.maxWaitMs = policy.maxWaitMs) ∧
      g.registry.fallback.name = "*" ∧
      g.registry.fallback.limiter.limit = g.config.defaultPolicy.limit ∧
      g.registry.fallback.limiter.burst = g.config.defaultPolicy.burst ∧
      g.registry.fallback.maxWaitMs = g.config.defaultPolicy.maxWaitMs := by
  intro g
  have h : g.Mirrors := mirrors_after events (Gateway.mirrors_ofConfig config)
  have hdefault := h.fallback_follows
  refine ⟨h.names, ?_, ?_, h.fallback_name, hdefault.limit, hdefault.burst, hdefault.maxWaitMs⟩
  · have hordered : g.config.routes.routes.Pairwise (· < ·) := List.pairwise_map.2 g.config.routes.ascending
    rw [h.names]
    apply hordered.imp
    intro name other hlt
    exact utf8Bytes_lt_iff.2 hlt
  · intro r hmem
    obtain ⟨policy, hpolicy, hfollows⟩ := h.of_mem hmem
    exact ⟨policy, hpolicy, hfollows.limit, hfollows.burst, hfollows.maxWaitMs⟩

/-- A route is dropped, a load fails on a file that is gone, and the route comes back with another
policy after a request that was made in between. -/
theorem registry_mirrors_config_of_restored_route :
    let listener : Listener := ⟨"127.0.0.1", 8080⟩
    let config : Config := { listener, routes := .ofList [("/a", { burst := 2 }), ("/b", {})] }
    let without : Config := { listener, routes := .ofList [("/b", {})] }
    let policy : Policy := { ratePerSec := some (Binary64.ofNat 3), burst := 5, maxWaitMs := 250 }
    let restored : Config := { listener, routes := .ofList [("/b", {}), ("/a", policy)] }
    let start : Server := ⟨⟨.short #v[127, 0, 0, 1], 8080⟩, .ofConfig config, .empty, none, true, 0⟩
    let events : List (Instant × Event) := [
      ({ nanos := 0 }, .install without),
      ({ nanos := 1 }, .request ⟨.get, "/a/x", []⟩),
      ({ nanos := 2 }, .file .removed),
      ({ nanos := 1 }, .install restored)]
    let g := (({ start with gateway := .ofConfig config } : Server).after events).gateway
    let r := Route.ofPolicy "/a" policy
    r ∈ g.registry.routes ∧ ∃ policy, g.config.routes.get? r.name = some policy ∧
      r.limiter.limit = policy.limit ∧ r.limiter.burst = policy.burst ∧ r.maxWaitMs = policy.maxWaitMs := by
  intro listener config without policy restored start events g r
  have hmem : r ∈ g.registry.routes := by decide +kernel
  exact ⟨hmem, (registry_mirrors_config start config events).2.2.1 r hmem⟩

end Throttle.Server
