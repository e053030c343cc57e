import Throttle.Registry

/-!
# Looking up routes

A route is known by its key: its name, or nothing for the route of all other paths. Which key owns a
path depends on the names alone, and each way of changing a registry acts on one key at a time: this
is what `get?_update` and `get?_reconcile` say.
-/

set_option autoImplicit false

namespace Throttle

/-! ## Policies by key -/

/-- The policy that a configuration sets for a key. -/
def Config.policy? (config : Config) : Option String → Option Policy
  | some name => config.routes.get? name
  | none => some config.defaultPolicy

theorem nodup_of_ascending {α : Type} {entries : List (String × α)} (h : Ascending entries) :
    (entries.map (·.1)).Nodup := by
  unfold List.Nodup
  rw [List.pairwise_map]
  exact List.Pairwise.imp (fun hlt => String.ne_of_lt hlt) h

theorem Config.policy?_isSome_iff (config : Config) (name : String) :
    (config.policy? (some name)).isSome = true ↔ name ∈ config.routes.routes := by
  show (config.routes.entries.lookup name).isSome = true ↔ name ∈ config.routes.entries.map (·.1)
  rw [List.lookup_isSome_iff, List.mem_map]
  constructor
  · rintro ⟨entry, hmem, hname⟩
    exact ⟨entry, hmem, (beq_iff_eq.1 hname).symm⟩
  · rintro ⟨entry, hmem, rfl⟩
    exact ⟨entry, hmem, beq_self_eq_true _⟩

namespace Registry

def names (reg : Registry) : List String := reg.routes.map (·.name)

/-- The route of a key, if the registry has one. -/
def get? (reg : Registry) : Option String → Option Route
  | some name => reg.routes.find? (·.name = name)
  | none => some reg.fallback

def keyOf (reg : Registry) (path : String) : Option String := (owner? reg.routes path).map (·.name)

/-! ## Owners -/

def longerName (s t : String) : String := if t.utf8ByteSize < s.utf8ByteSize then s else t

theorem name_longer (r s : Route) : (longer r s).name = longerName r.name s.name := by
  unfold longer longerName
  split <;> rfl

/-- The longest of the names that own a path. -/
def ownerName? (names : List String) (path : String) : Option String :=
  (names.filter (ownsPath · path)).foldl
    (fun best name => some (match best with
      | none => name
      | some b => longerName b name))
    none

theorem map_name_longest (routes : List Route) (best : Option Route) :
    (routes.foldl (fun best r => some (match best with
      | none => r
      | some b => longer b r)) best).map (·.name) =
    (routes.map (·.name)).foldl (fun best name => some (match best with
      | none => name
      | some b => longerName b name)) (best.map (·.name)) := by
  induction routes generalizing best with
  | nil => rfl
  | cons r rest ih =>
    rw [List.foldl_cons, ih, List.map_cons, List.foldl_cons]
    cases best with
    | none => rfl
    | some b =>
      simp only [Option.map_some, name_longer]

/-- The names alone decide which route owns a path. -/
theorem keyOf_eq_ownerName (reg : Registry) (path : String) :
    reg.keyOf path = ownerName? reg.names path := by
  unfold keyOf owner? ownerName? names
  rw [List.filter_map]
  exact map_name_longest _ none

theorem mem_of_longest {routes : List Route} {best : Option Route} {r : Route}
    (h : routes.foldl (fun best r => some (match best with
      | none => r
      | some b => longer b r)) best = some r) : r ∈ routes ∨ best = some r := by
  induction routes generalizing best with
  | nil => exact .inr h
  | cons first rest ih =>
    rcases ih h with hmem | hbest
    · exact .inl (List.mem_cons_of_mem _ hmem)
    · rw [Option.some.injEq] at hbest
      cases best with
      | none => exact .inl (hbest ▸ List.mem_cons_self ..)
      | some b =>
        dsimp only at hbest
        unfold longer at hbest
        split at hbest
        · exact .inr (congrArg some hbest)
        · exact .inl (hbest ▸ List.mem_cons_self ..)

theorem mem_of_owner {routes : List Route} {path : String} {r : Route} (h : owner? routes path = some r) :
    r ∈ routes := by
  rcases mem_of_longest h with hmem | hnone
  · exact (List.mem_filter.1 hmem).1
  · cases hnone

theorem find?_name {routes : List Route} (hnodup : (routes.map (·.name)).Nodup) {r : Route}
    (hmem : r ∈ routes) : routes.find? (·.name = r.name) = some r := by
  induction routes with
  | nil => cases hmem
  | cons first rest ih =>
    rw [List.map_cons, List.nodup_cons] at hnodup
    obtain ⟨hfirst, hrest⟩ := hnodup
    rcases List.mem_cons.1 hmem with rfl | hmem
    · rw [List.find?_cons_of_pos (by simp)]
    · have hne : first.name ≠ r.name := by
        intro heq
        exact hfirst (heq ▸ List.mem_map_of_mem hmem)
      rw [List.find?_cons_of_neg (by simpa using hne)]
      exact ih hrest hmem

theorem get?_keyOf {reg : Registry} (hnodup : reg.names.Nodup) (path : String) :
    reg.get? (reg.keyOf path) = some (reg.resolve path) := by
  unfold keyOf resolve
  cases h : owner? reg.routes path with
  | none => rfl
  | some r => exact find?_name hnodup (mem_of_owner h)

/-- Routes with names of their own are known by the names, in their order, and by what is found under
each name. -/
theorem routes_eq_map_names {reg : Registry} (hnodup : reg.names.Nodup) (default : Route) :
    reg.routes = reg.names.map fun name => (reg.routes.find? (·.name = name)).getD default := by
  have hself : ∀ r ∈ reg.routes, (reg.routes.find? (·.name = r.name)).getD default = r := by
    intro r hmem
    rw [find?_name hnodup hmem]
    rfl
  unfold names
  rw [List.map_map]
  exact (List.map_id reg.routes).symm.trans (List.map_congr_left fun r hmem => (hself r hmem).symm)

theorem ext_get? {reg reg' : Registry} (hnodup : reg.names.Nodup) (hnames : reg'.names = reg.names)
    (h : ∀ key, reg'.get? key = reg.get? key) : reg' = reg := by
  have hroutes : reg'.routes = reg.routes := by
    rw [routes_eq_map_names hnodup reg.fallback, routes_eq_map_names (hnames ▸ hnodup) reg.fallback, hnames]
    apply List.map_congr_left
    intro name _
    exact congrArg (Option.getD · reg.fallback) (h (some name))
  have hfallback : reg'.fallback = reg.fallback := Option.some.inj (h none)
  cases reg
  cases reg'
  cases hroutes
  cases hfallback
  rfl

theorem get?_eq_none_of_not_mem {reg : Registry} {name : String} (h : name ∉ reg.names) :
    reg.get? (some name) = none := by
  show reg.routes.find? _ = none
  rw [List.find?_eq_none]
  intro r hmem hname
  apply h
  rw [← of_decide_eq_true hname]
  exact List.mem_map_of_mem hmem

theorem get?_isSome_iff {reg : Registry} {name : String} : (reg.get? (some name)).isSome = true ↔ name ∈ reg.names := by
  constructor
  · intro h
    refine Classical.byContradiction fun hnot => ?_
    rw [get?_eq_none_of_not_mem hnot] at h
    cases h
  · intro h
    obtain ⟨r, hr, hname⟩ := List.mem_map.1 h
    exact List.find?_isSome.2 ⟨r, hr, by simpa using hname⟩

/-! ## Updates -/

variable (reg : Registry) {change : Route → Route}

theorem fallback_name_update (path : String) (hname : ∀ r, (change r).name = r.name) :
    (reg.update path change).fallback.name = reg.fallback.name := by
  unfold update
  split
  · rfl
  · exact hname reg.fallback

theorem find?_map_of_name (routes : List Route) (name : String) (hname : ∀ r, (change r).name = r.name) :
    (routes.map change).find? (·.name = name) = (routes.find? (·.name = name)).map change := by
  rw [List.find?_map]
  congr 2
  funext r
  rw [Function.comp_apply, hname]

theorem names_update (path : String) (hname : ∀ r, (change r).name = r.name) :
    (reg.update path change).names = reg.names := by
  unfold update
  split
  · unfold names
    rw [List.map_map]
    apply List.map_congr_left
    intro s _
    rw [Function.comp_apply]
    split
    · exact hname s
    · rfl
  · rfl

/-- An update changes the route that owns the path and no other. -/
theorem get?_update (path : String) (hname : ∀ r, (change r).name = r.name) (key : Option String) :
    (reg.update path change).get? key =
      if key = reg.keyOf path then (reg.get? key).map change else reg.get? key := by
  unfold update keyOf
  cases owner? reg.routes path with
  | none =>
    cases key with
    | none => rfl
    | some name => rfl
  | some owner =>
    cases key with
    | none => rfl
    | some name =>
      -- every route of the owner's name is changed, and the name is the first thing compared
      have hguarded : ∀ r : Route, (if r.name = owner.name then change r else r).name = r.name := by
        intro r
        split
        · exact hname r
        · rfl
      have hfind := find?_map_of_name reg.routes name hguarded
      show List.find? _ (reg.routes.map _) = if some name = some owner.name then
        (reg.routes.find? (·.name = name)).map change else reg.routes.find? (·.name = name)
      rw [hfind]
      cases hr : reg.routes.find? (·.name = name) with
      | none => simp
      | some r =>
        have hrname : r.name = name := by simpa using List.find?_some hr
        simp [hrname, apply_ite some]

/-! ## Configurations -/

theorem find?_map_entries {f : String → Policy → Route} (hname : ∀ name policy, (f name policy).name = name)
    (entries : List (String × Policy)) (name : String) :
    (entries.map fun entry => f entry.1 entry.2).find? (·.name = name) =
      (entries.lookup name).map (f name) := by
  induction entries with
  | nil => rfl
  | cons entry rest ih =>
    obtain ⟨route, policy⟩ := entry
    by_cases h : route = name
    · subst h
      rw [List.map_cons, List.find?_cons_of_pos (by simpa using hname route policy), List.lookup_cons_self]
      rfl
    · rw [List.map_cons, List.find?_cons_of_neg (by simpa [hname] using h), ih,
        RouteTable.lookup_cons_eq, if_neg (Ne.symm h)]

/-- The route of a name after a reload: what becomes of the one in service, or a new one. -/
def successor (reg : Registry) (now : Instant) (name : String) (policy : Policy) : Route :=
  match reg.routes.find? (·.name = name) with
  | some r => r.retune now policy
  | none => .ofPolicy name policy

theorem name_successor (now : Instant) (name : String) (policy : Policy) :
    (reg.successor now name policy).name = name := by
  unfold successor
  split
  · next r hr =>
    have hname : r.name = name := by simpa using List.find?_some hr
    exact hname
  · rfl

@[simp] theorem names_ofConfig (config : Config) : (ofConfig config).names = config.routes.routes := by
  unfold ofConfig names RouteTable.routes
  rw [List.map_map]
  rfl

@[simp] theorem names_reconcile (now : Instant) (config : Config) :
    (reg.reconcile now config).names = config.routes.routes := by
  unfold reconcile names RouteTable.routes
  rw [List.map_map]
  apply List.map_congr_left
  intro entry _
  exact reg.name_successor now entry.1 entry.2

theorem nodup_routes (config : Config) : config.routes.routes.Nodup :=
  nodup_of_ascending config.routes.ascending

theorem get?_ofConfig (config : Config) (key : Option String) :
    (ofConfig config).get? key = (config.policy? key).map (Route.ofPolicy (key.getD fallbackName)) := by
  cases key with
  | none => rfl
  | some name => exact find?_map_entries (f := Route.ofPolicy) (fun _ _ => rfl) config.routes.entries name

/-- A new configuration retunes the routes that it keeps and starts the others anew. -/
theorem get?_reconcile (now : Instant) (config : Config) (key : Option String) :
    (reg.reconcile now config).get? key =
      (config.policy? key).map fun policy =>
        match reg.get? key with
        | some r => r.retune now policy
        | none => Route.ofPolicy (key.getD fallbackName) policy := by
  cases key with
  | none => rfl
  | some name => exact find?_map_entries (reg.name_successor now) config.routes.entries name

end Registry

end Throttle
