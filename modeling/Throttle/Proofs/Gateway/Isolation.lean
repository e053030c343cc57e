import Throttle.Proofs.Gateway.Run

/-!
# Routes do not disturb each other

A request leaves no trace on a route that it was not resolved to, and none anywhere if it was refused
or cost nothing: taking such requests out of a run changes no answer of the route. Two gateways with
the same names and the same service at a key cannot be told apart through that key, and every event
keeps them so. Main statement: `isolation`.
-/

set_option autoImplicit false

namespace Throttle.Gateway
open Http

variable {key : Option String}

/-! ## Requests of a key -/

/-- A request comes to admission and is resolved to the route of a key. -/
def Reaches (g : Gateway) (key : Option String) (r : Request) : Prop :=
  ∃ path, admissionPath? r = some path ∧ g.registry.keyOf path = key

instance (g : Gateway) (key : Option String) (r : Request) : Decidable (g.Reaches key r) :=
  decidable_of_iff ((admissionPath? r).any (g.registry.keyOf · = key)) (by
    unfold Reaches
    cases admissionPath? r <;> simp)

/-- What can be seen of an event through a key: the answer, if it was a request of that key. -/
def seen (g : Gateway) (key : Option String) (now : Instant) : Event → Option Response
  | .request r => if g.Reaches key r then some (g.request now r).1 else none
  | .reload _ => none

/-- A request that was refused, that cost nothing or that is none of the key's. -/
def Negligible (g : Gateway) (key : Option String) (now : Instant) : Event → Prop
  | .request r => (g.request now r).1.statusCode = 429 ∨ r.headers.cost = 0 ∨ ¬ g.Reaches key r
  | .reload _ => False

instance (g : Gateway) (key : Option String) (now : Instant) :
    (event : Event) → Decidable (g.Negligible key now event)
  | .request _ => inferInstanceAs (Decidable (_ ∨ _ ∨ _))
  | .reload _ => inferInstanceAs (Decidable False)

/-! ## Requests without a trace -/

theorem after_of_refused {s : Service} {now : Instant} {path : String} {cost : UInt64}
    (h : (s.answer now path cost).statusCode = 429) : s.after now cost = s := by
  unfold Service.answer at h
  unfold Service.after
  split at h
  · cases h
  · next hdenied => rw [limiter_of_denied hdenied]

theorem after_of_free (s : Service) (now : Instant) : s.after now 0 = s := rfl

/-! ## Agreement at a key -/

/-- The same routes, each with a name of its own, and the same service at a key. -/
structure Agree (key : Option String) (g g' : Gateway) : Prop where
  nodup : g.registry.names.Nodup
  names : g.registry.names = g'.registry.names
  service : g.service? key = g'.service? key

theorem Agree.keyOf {g g' : Gateway} (h : Agree key g g') (path : String) :
    g.registry.keyOf path = g'.registry.keyOf path := by
  rw [Registry.keyOf_eq_ownerName, Registry.keyOf_eq_ownerName, h.names]

theorem Agree.reaches {g g' : Gateway} (h : Agree key g g') (r : Request) :
    g.Reaches key r ↔ g'.Reaches key r := by
  unfold Reaches
  simp only [h.keyOf]

theorem agree_refl {g : Gateway} (h : g.registry.names.Nodup) : Agree key g g :=
  ⟨h, rfl, rfl⟩

theorem service?_keyOf {g : Gateway} (h : g.registry.names.Nodup) (path : String) :
    g.service? (g.registry.keyOf path) = some (g.registry.resolve path).service := by
  unfold service?
  rw [Registry.get?_keyOf h]
  rfl

theorem Agree.seen {g g' : Gateway} (h : Agree key g g') (now : Instant) (event : Event) :
    g.seen key now event = g'.seen key now event := by
  cases event with
  | reload config => rfl
  | request r =>
    have hnodup' : g'.registry.names.Nodup := h.names ▸ h.nodup
    unfold Gateway.seen
    simp only [← h.reaches r]
    split
    · next hreach =>
      obtain ⟨path, hpath, hkey⟩ := hreach
      have hsame := h.service
      rw [← hkey, service?_keyOf h.nodup, h.keyOf, service?_keyOf hnodup', Option.some.injEq] at hsame
      rw [request_of_admission hpath, request_of_admission hpath, admission_answer, admission_answer, hsame]
    · rfl

theorem Agree.step {g g' : Gateway} (h : Agree key g g') (now : Instant) (event : Event) :
    Agree key (g.step now event).2 (g'.step now event).2 := by
  have hnodup' : g'.registry.names.Nodup := h.names ▸ h.nodup
  cases event with
  | reload config =>
    refine ⟨?_, ?_, ?_⟩
    · show (g.reload now config).registry.names.Nodup
      simp [Registry.nodup_routes]
    · show (g.reload now config).registry.names = (g'.reload now config).registry.names
      simp
    · exact service?_reload h.service now config
  | request r =>
    show Agree key (g.request now r).2 (g'.request now r).2
    cases hpath : admissionPath? r with
    | none =>
      rw [request_of_no_admission hpath, request_of_no_admission hpath]
      exact h
    | some path =>
      rw [request_of_admission hpath, request_of_admission hpath]
      refine ⟨?_, ?_, ?_⟩
      · simpa using h.nodup
      · simpa using h.names
      · rw [service?_admission h.nodup, service?_admission hnodup', h.keyOf, h.service]

theorem Agree.skip {g g' : Gateway} (h : Agree key g g') {now : Instant} {event : Event}
    (hskip : g.Negligible key now event) : Agree key (g.step now event).2 g' := by
  cases event with
  | reload config => exact hskip.elim
  | request r =>
    show Agree key (g.request now r).2 g'
    cases hpath : admissionPath? r with
    | none =>
      rw [request_of_no_admission hpath]
      exact h
    | some path =>
      rw [request_of_admission hpath]
      refine ⟨?_, ?_, ?_⟩
      · simpa using h.nodup
      · simpa using h.names
      · rw [service?_admission h.nodup, ← h.service]
        split
        · next hkey =>
          subst hkey
          have hsame : (g.registry.resolve path).service.after now r.headers.cost =
              (g.registry.resolve path).service := by
            rcases hskip with hrefused | hfree | hnot
            · rw [request_of_admission hpath, admission_answer] at hrefused
              exact after_of_refused hrefused
            · rw [hfree]
              exact after_of_free _ now
            · exact absurd ⟨path, hpath, rfl⟩ hnot
          rw [service?_keyOf h.nodup, Option.map_some, hsame]
        · rfl

/-! ## Runs with marked events -/

/-- A run in which every event is marked as kept or not. -/
abbrev Script := List (Bool × Instant × Event)

def Script.events (script : Script) : List (Instant × Event) := script.map (·.2)

def Script.kept (script : Script) : Script := script.filter (·.1)

/-- What is seen through a key of the kept events, when all events of the script take place. -/
def seenOfKept (key : Option String) : Gateway → Script → List (Option Response)
  | _, [] => []
  | g, (kept, now, event) :: rest =>
    if kept then g.seen key now event :: seenOfKept key (g.step now event).2 rest
    else seenOfKept key (g.step now event).2 rest

/-- Every event that is not kept is negligible when its turn comes. -/
def Droppable (key : Option String) : Gateway → Script → Prop
  | _, [] => True
  | g, (kept, now, event) :: rest =>
    (kept = true ∨ g.Negligible key now event) ∧ Droppable key (g.step now event).2 rest

def decidableDroppable (key : Option String) :
    (g : Gateway) → (script : Script) → Decidable (Droppable key g script)
  | _, [] => .isTrue trivial
  | g, (_, now, event) :: rest =>
    @instDecidableAnd _ _ inferInstance (decidableDroppable key (g.step now event).2 rest)

instance (key : Option String) (g : Gateway) (script : Script) : Decidable (Droppable key g script) :=
  decidableDroppable key g script

theorem agree_kept (script : Script) {g g' : Gateway} (h : Agree key g g') (hdrop : Droppable key g script) :
    seenOfKept key g script = seenOfKept key g' script.kept ∧
      Agree key (g.after script.events) (g'.after script.kept.events) := by
  induction script generalizing g g' with
  | nil => exact ⟨rfl, h⟩
  | cons marked rest ih =>
    obtain ⟨kept, now, event⟩ := marked
    obtain ⟨hfirst, hrest⟩ := hdrop
    cases kept with
    | true =>
      obtain ⟨hseen, hend⟩ := ih (h.step now event) hrest
      refine ⟨?_, hend⟩
      show g.seen key now event :: _ = g'.seen key now event :: _
      rw [h.seen now event, hseen]
      rfl
    | false =>
      have hskip : g.Negligible key now event := hfirst.resolve_left Bool.false_ne_true
      exact ih (h.skip hskip) hrest

/-- Whatever refused, free or foreign requests are taken out of a run that starts from a configuration,
every other request of a route has the same answer, and the route has the same limiter at the end. -/
theorem isolation (config : Config) (key : Option String) (script : Script)
    (h : Droppable key (ofConfig config) script) :
    seenOfKept key (ofConfig config) script = seenOfKept key (ofConfig config) script.kept ∧
      (((ofConfig config).after script.events).registry.get? key).map (·.limiter) =
        (((ofConfig config).after script.kept.events).registry.get? key).map (·.limiter) := by
  have hnodup : (ofConfig config).registry.names.Nodup := by
    show (Registry.ofConfig config).names.Nodup
    rw [Registry.names_ofConfig]
    exact Registry.nodup_routes config
  obtain ⟨hseen, hend⟩ := agree_kept script (agree_refl hnodup) h
  refine ⟨hseen, ?_⟩
  have hservice := congrArg (Option.map (·.limiter)) hend.service
  unfold service? at hservice
  rw [Option.map_map, Option.map_map] at hservice
  exact hservice

/-- A refused request and one of another route are taken out of a run on the route of `/a`. -/
theorem isolation_of_two_routes :
    let config : Config :=
      { listener := ⟨"127.0.0.1", 8080⟩, routes := .ofList [("/a", { ratePerSec := some (Binary64.ofNat 1) })] }
    let get (target : String) : Event := .request ⟨.get, target, []⟩
    let script : Script := [
      (true, { nanos := 0 }, get "/a/first"),
      (false, { nanos := 0 }, get "/a/refused"),
      (false, { nanos := 0 }, get "/b"),
      (true, { nanos := 1_000_000_000 }, get "/a/second")]
    Droppable (some "/a") (ofConfig config) script ∧
      seenOfKept (some "/a") (ofConfig config) script = seenOfKept (some "/a") (ofConfig config) script.kept := by
  intro config get script
  have hdrop : Droppable (some "/a") (ofConfig config) script := by decide +kernel
  exact ⟨hdrop, (isolation config (some "/a") script hdrop).1⟩

end Throttle.Gateway
