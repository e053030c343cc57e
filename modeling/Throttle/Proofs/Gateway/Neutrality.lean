import Throttle.Proofs.Gateway.Mirror

/-!
# Reloads that change nothing

A reload leaves a route alone whose policy has the same effect as before, with its balance, its last
update and its counters. So the configuration in force can be loaded again any number of times: the
gateway stays what it is, and no answer tells of it. Only the first reload of a configuration counts,
and its instant matters only where it sets a limit or a burst. Main statement: `reload_neutral`.
-/

set_option autoImplicit false

namespace Throttle
open Http

/-! ## Policies with the same effect -/

/-- The policies set the same limit, by whatever fields, the same burst and the same longest wait. -/
def Policy.SameEffect (p q : Policy) : Prop :=
  p.limit = q.limit ∧ p.burst = q.burst ∧ p.maxWaitMs = q.maxWaitMs

theorem Service.Follows.of_sameEffect {s : Service} {p q : Policy} (h : s.Follows p) (hsame : p.SameEffect q) :
    s.Follows q :=
  ⟨h.limit.trans hsame.1, h.burst.trans hsame.2.1, h.maxWaitMs.trans hsame.2.2⟩

/-- No route that stays gets another limit or another burst. -/
def Config.KeepsLimits (config next : Config) : Prop :=
  ∀ key p q, config.policy? key = some p → next.policy? key = some q → p.limit = q.limit ∧ p.burst = q.burst

namespace Gateway

variable {g : Gateway}

/-! ## One reload -/

/-- What a reload leaves alone is the whole route. -/
theorem Mirrors.get?_reload (h : g.Mirrors) (now : Instant) (next : Config) {key : Option String}
    {p q : Policy} (hp : g.config.policy? key = some p) (hq : next.policy? key = some q) (hsame : p.SameEffect q) :
    ∃ r, g.registry.get? key = some r ∧ (g.reload now next).registry.get? key = some r := by
  obtain ⟨r, hr, hfollows⟩ := h.get?_of_policy hp
  refine ⟨r, hr, ?_⟩
  show (g.registry.reconcile now next).get? key = some r
  rw [g.registry.get?_reconcile, hq, hr]
  exact congrArg some (Route.retune_of_follows (hfollows.of_sameEffect hsame) now)

/-- The configuration in force is loaded again in vain. -/
theorem Mirrors.reload_again (h : g.Mirrors) (now : Instant) : g.reload now g.config = g := by
  have hregistry : g.registry.reconcile now g.config = g.registry := by
    apply Registry.ext_get? h.nodup
    · rw [Registry.names_reconcile, h.names]
    · intro key
      cases hpolicy : g.config.policy? key with
      | none =>
        rw [g.registry.get?_reconcile, hpolicy, h.get?_eq_none hpolicy]
        rfl
      | some policy =>
        obtain ⟨r, hr, hagain⟩ := h.get?_reload now g.config hpolicy hpolicy ⟨rfl, rfl, rfl⟩
        rw [hr]
        exact hagain
  show { g with registry := g.registry.reconcile now g.config } = g
  rw [hregistry]

/-- A reload that settles no balance does the same at every instant. -/
theorem Mirrors.reload_at_any_instant (h : g.Mirrors) {next : Config} (hkeeps : g.config.KeepsLimits next)
    (now now' : Instant) : g.reload now' next = g.reload now next := by
  have hregistry : g.registry.reconcile now' next = g.registry.reconcile now next := by
    apply Registry.ext_get?
    · rw [Registry.names_reconcile]
      exact Registry.nodup_routes next
    · rw [Registry.names_reconcile, Registry.names_reconcile]
    · intro key
      rw [Registry.get?_reconcile, Registry.get?_reconcile]
      -- not by `rfl`, which would compute what each of the two reloads does to a balance
      cases hnext : next.policy? key with
      | none => simp only [Option.map_none]
      | some q =>
        cases hpolicy : g.config.policy? key with
        | none => simp only [h.get?_eq_none hpolicy, Option.map_some]
        | some p =>
          obtain ⟨r, hr, hfollows⟩ := h.get?_of_policy hpolicy
          obtain ⟨hlimit, hburst⟩ := hkeeps key p q hpolicy hnext
          have hretune : ∀ now, r.retune now q = { r with maxWaitMs := q.maxWaitMs } :=
            Route.retune_of_limits (hfollows.limit.trans hlimit) (hfollows.burst.trans hburst)
          simp only [hr, Option.map_some, hretune]
  show { g with config := next, registry := g.registry.reconcile now' next } = _
  rw [hregistry]
  rfl

/-! ## Answers -/

/-- The answers to the requests of a run, in their order. -/
def answers (g : Gateway) : List (Instant × Event) → List Response
  | [] => []
  | (now, event) :: rest => (g.step now event).1.toList ++ (g.step now event).2.answers rest

@[simp] theorem answers_cons (g : Gateway) (now : Instant) (event : Event) (rest : List (Instant × Event)) :
    g.answers ((now, event) :: rest) = (g.step now event).1.toList ++ (g.step now event).2.answers rest := rfl

theorem answers_append (earlier later : List (Instant × Event)) (g : Gateway) :
    g.answers (earlier ++ later) = g.answers earlier ++ (g.after earlier).answers later := by
  induction earlier generalizing g with
  | nil => rfl
  | cons first rest ih =>
    obtain ⟨now, event⟩ := first
    rw [List.cons_append, answers_cons, answers_cons, after_cons, ih, List.append_assoc]

/-! ## Repeated reloads -/

def Event.isRequest : Event → Bool
  | .request _ => true
  | .reload _ => false

def requestsOf (block : List (Instant × Event)) : List (Instant × Event) :=
  block.filter fun event => event.2.isRequest

/-- There is no reload in the block but of this configuration. -/
def Repeats (config : Config) (block : List (Instant × Event)) : Prop :=
  ∀ now other, (now, .reload other) ∈ block → other = config

/-- Among requests the reloads of the configuration in force can be left out. -/
theorem Mirrors.without_repeats (block : List (Instant × Event)) (h : g.Mirrors) (hblock : Repeats g.config block) :
    g.after block = g.after (requestsOf block) ∧ g.answers block = g.answers (requestsOf block) := by
  induction block generalizing g with
  | nil => exact ⟨rfl, rfl⟩
  | cons first rest ih =>
    obtain ⟨now, event⟩ := first
    have hrest : Repeats g.config rest := fun now other hmem => hblock now other (List.mem_cons_of_mem _ hmem)
    cases event with
    | request r =>
      have hconfig := config_request g now r
      obtain ⟨hafter, hanswers⟩ := ih (h.request now r) (hconfig.symm ▸ hrest)
      exact ⟨hafter, congrArg (List.cons (g.request now r).1) hanswers⟩
    | reload config =>
      have hsame : config = g.config := hblock now config List.mem_cons_self
      have hnothing : (g.step now (.reload config)).2 = g := by
        rw [hsame]
        exact h.reload_again now
      obtain ⟨hafter, hanswers⟩ := ih h hrest
      constructor
      · rw [after_cons, hnothing]
        exact hafter
      · rw [answers_cons, hnothing]
        exact hanswers

/-- After every run that starts from a configuration, a reload at whatever instant leaves each route
as it is, balance, last update and counters, whose policy has the same effect in the new configuration.
In place of the one reload there may be any number of reloads of that configuration, at whatever
instants among the requests up to the next other reload, and every request of the run is answered as
before. The first has to keep the instant of the one if it sets another limit or another burst. -/
theorem reload_neutral (start next : Config) (earlier : List (Instant × Event)) (now : Instant) :
    let g := (ofConfig start).after earlier
    (∀ key p q, g.config.policy? key = some p → next.policy? key = some q → p.SameEffect q →
      ∃ r, g.registry.get? key = some r ∧ (g.reload now next).registry.get? key = some r) ∧
    ∀ now' block later, now' = now ∨ g.config.KeepsLimits next → Repeats next block →
      (ofConfig start).answers (earlier ++ (now', .reload next) :: (block ++ later)) =
        (ofConfig start).answers (earlier ++ (now, .reload next) :: (requestsOf block ++ later)) := by
  intro g
  have h : g.Mirrors := mirrors_after start earlier
  constructor
  · intro key p q hp hq hsame
    exact h.get?_reload now next hp hq hsame
  · intro now' block later hinstant hblock
    have hmoved : g.reload now' next = g.reload now next := by
      rcases hinstant with rfl | hkeeps
      · rfl
      · exact h.reload_at_any_instant hkeeps now now'
    have hreloaded : (g.reload now next).Mirrors := h.reload now next
    obtain ⟨hafter, hanswers⟩ := hreloaded.without_repeats block hblock
    have hlater : (g.reload now' next).answers (block ++ later) =
        (g.reload now next).answers (requestsOf block ++ later) := by
      rw [hmoved, answers_append, answers_append, hafter, hanswers]
    rw [answers_append, answers_append, answers_cons, answers_cons]
    exact congrArg (fun rest => (ofConfig start).answers earlier ++ ([] ++ rest)) hlater

/-- A reload that is made later and twice more on a clock that goes back, in between two requests that
each take a token. -/
theorem reload_neutral_of_two_more :
    let listener : Listener := ⟨"127.0.0.1", 8080⟩
    let slow : Policy := { intervalMs := some 1000, burst := 3 }
    let same : Policy := { slow with ratePerSec := some (Binary64.ofNat 1) }
    let start : Config := { listener, routes := .ofList [("/a", slow), ("/b", {})] }
    let next : Config := { listener, routes := .ofList [("/a", same)] }
    let get (target : String) : Event := .request ⟨.get, target, []⟩
    let earlier : List (Instant × Event) := [({ nanos := 0 }, get "/a"), ({ nanos := 0 }, get "/b")]
    let now : Instant := { nanos := 300_000_000 }
    let moved : Instant := { nanos := 350_000_000 }
    let block : List (Instant × Event) := [
      ({ nanos := 400_000_000 }, get "/a"),
      ({ nanos := 200_000_000 }, .reload next),
      ({ nanos := 500_000_000 }, get "/a"),
      ({ nanos := 900_000_000 }, .reload next)]
    let later : List (Instant × Event) := [({ nanos := 600_000_000 }, get "/a"), ({ nanos := 600_000_000 }, get "/status")]
    let g := (ofConfig start).after earlier
    (∃ p q, g.config.policy? (some "/a") = some p ∧ next.policy? (some "/a") = some q ∧ p.SameEffect q) ∧
      (∃ r, g.registry.get? (some "/a") = some r ∧ (g.reload now next).registry.get? (some "/a") = some r) ∧
      g.config.KeepsLimits next ∧ Repeats next block ∧
      (ofConfig start).answers (earlier ++ (moved, .reload next) :: (block ++ later)) =
        (ofConfig start).answers (earlier ++ (now, .reload next) :: (requestsOf block ++ later)) := by
  intro listener slow same start next get earlier now moved block later g
  have hp : g.config.policy? (some "/a") = some slow := by decide +kernel
  have hq : next.policy? (some "/a") = some same := by decide +kernel
  have hlimit : slow.limit = same.limit := by decide +kernel
  have hsame : slow.SameEffect same := ⟨hlimit, rfl, rfl⟩
  have hkeeps : g.config.KeepsLimits next := by
    intro key p q hpolicy hnext
    cases key with
    | none =>
      have hdefault : g.config.defaultPolicy = next.defaultPolicy := by decide +kernel
      have hpolicy : g.config.defaultPolicy = p := Option.some.inj hpolicy
      have hnext : next.defaultPolicy = q := Option.some.inj hnext
      rw [← hpolicy, ← hnext, hdefault]
      exact ⟨rfl, rfl⟩
    | some name =>
      have hname : name ∈ next.routes.routes := (next.policy?_isSome_iff name).1 (by rw [hnext]; rfl)
      obtain rfl : name = "/a" := List.mem_singleton.1 hname
      rw [hp, Option.some.injEq] at hpolicy
      rw [hq, Option.some.injEq] at hnext
      rw [← hpolicy, ← hnext]
      exact ⟨hlimit, rfl⟩
  have hblock : Repeats next block := by
    intro instant other hmem
    simp only [block, List.mem_cons, List.not_mem_nil, Prod.mk.injEq] at hmem
    rcases hmem with ⟨_, h⟩ | ⟨_, h⟩ | ⟨_, h⟩ | ⟨_, h⟩ | h
    · cases h
    · cases h
      rfl
    · cases h
    · cases h
      rfl
    · exact h.elim
  have h := reload_neutral start next earlier now
  exact ⟨⟨slow, same, hp, hq, hsame⟩, h.1 (some "/a") slow same hp hq hsame, hkeeps, hblock,
    h.2 moved block later (.inr hkeeps) hblock⟩

/-- The first reload of a configuration with another limit cannot be moved: what the old rate earned
until then is credited, so that of ten tokens spent at the start five are back after five seconds, or
none. -/
theorem reload_instant_matters :
    let listener : Listener := ⟨"127.0.0.1", 8080⟩
    let start : Config := { listener, defaultPolicy := { ratePerSec := some (Binary64.ofNat 1), burst := 10 } }
    let next : Config := { listener, defaultPolicy := { ratePerSec := some 0, burst := 10 } }
    let spend (cost : String) : Event := .request ⟨.get, "/x", [("x-request-cost", cost.toUTF8)]⟩
    let run (now : Instant) : List (Instant × Event) := [
      ({ nanos := 0 }, spend "10"),
      (now, .reload next),
      ({ nanos := 5_000_000_000 }, spend "5")]
    ((ofConfig start).answers (run { nanos := 0 })).map (·.statusCode) = [200, 429] ∧
      ((ofConfig start).answers (run { nanos := 5_000_000_000 })).map (·.statusCode) = [200, 200] := by
  decide +kernel

end Gateway

end Throttle
