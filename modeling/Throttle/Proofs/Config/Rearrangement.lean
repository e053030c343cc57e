import Throttle.Proofs.Config.Outcome
import Throttle.Registry

/-!
# The order of entries and unknown keys

Two trees are the same configuration if they differ in the order of the entries of their mappings and in
entries with unknown keys. A field is decided by the entries of its name and a table is known by its entries,
so both trees are decoded to the same configuration, or neither to any. Main statement: `decode_rearranged`.
-/

set_option autoImplicit false

namespace Throttle.Config
open Yaml (Document Node)

variable {α : Type}

/-! ## Rearranged mappings -/

/-- From one list of entries to another: neighbours change places, entries with unknown keys come and go, and the
values under each key are alike. -/
inductive Rearranged (known : String → Prop) (Alike : String → Node → Node → Prop) :
    List (Node × Node) → List (Node × Node) → Prop where
  | nil : Rearranged known Alike [] []
  | entry {key value value' : Node} {entries entries' : List (Node × Node)}
    (hvalue : ∀ name, text? key = some name → Alike name value value') (h : Rearranged known Alike entries entries') :
    Rearranged known Alike ((key, value) :: entries) ((key, value') :: entries')
  | swap (entry entry' : Node × Node) (entries : List (Node × Node)) :
    Rearranged known Alike (entry :: entry' :: entries) (entry' :: entry :: entries)
  | added {s : Yaml.Scalar} (hs : ¬ known s.text) (value : Node) {entries entries' : List (Node × Node)}
    (h : Rearranged known Alike entries entries') : Rearranged known Alike entries ((.scalar s, value) :: entries')
  | removed {s : Yaml.Scalar} (hs : ¬ known s.text) (value : Node) {entries entries' : List (Node × Node)}
    (h : Rearranged known Alike entries entries') : Rearranged known Alike ((.scalar s, value) :: entries) entries'
  | trans {entries entries' entries'' : List (Node × Node)} (h : Rearranged known Alike entries entries')
    (h' : Rearranged known Alike entries' entries'') : Rearranged known Alike entries entries''

/-- Trees that are equal, or mappings that are rearranged. -/
inductive AlikeMappings (known : String → Prop) (Alike : String → Node → Node → Prop) : Node → Node → Prop where
  | same (node : Node) : AlikeMappings known Alike node node
  | mapping {entries entries' : List (Node × Node)} (h : Rearranged known Alike entries entries') :
    AlikeMappings known Alike (.mapping entries) (.mapping entries')

def AlikePolicies : Node → Node → Prop :=
  AlikeMappings (· ∈ ["rate_per_sec", "interval_ms", "burst", "max_wait_ms"]) fun _ value value' => value = value'

def AlikeListeners : Node → Node → Prop :=
  AlikeMappings (· ∈ ["bind_addr", "port"]) fun _ value value' => value = value'

/-- Every key of the routes counts, and no two have the same text. -/
inductive AlikeRoutes : Node → Node → Prop where
  | same (node : Node) : AlikeRoutes node node
  | mapping {entries entries' : List (Node × Node)} (hkeys : (entries.map fun entry => text? entry.1).Nodup)
    (h : Rearranged (fun _ => True) (fun _ => AlikePolicies) entries entries') :
    AlikeRoutes (.mapping entries) (.mapping entries')

/-- What is alike depends on the name of the section. -/
structure AlikeSections (name : String) (value value' : Node) : Prop where
  listener : name = "server" → AlikeListeners value value'
  defaultPolicy : name = "default_limit" → AlikePolicies value value'
  routes : name = "routes" → AlikeRoutes value value'

def AlikeConfigs : Node → Node → Prop :=
  AlikeMappings (· ∈ ["server", "default_limit", "routes"]) AlikeSections

variable {known : String → Prop} {Alike : String → Node → Node → Prop} {entries entries' : List (Node × Node)}

theorem Rearranged.of_perm (hAlike : ∀ name value, Alike name value value) (h : entries.Perm entries') :
    Rearranged known Alike entries entries' := by
  induction h with
  | nil => exact .nil
  | cons entry h ih => exact .entry (fun name _ => hAlike name entry.2) ih
  | swap entry entry' rest => exact .swap entry' entry rest
  | trans h h' ih ih' => exact ih.trans ih'

/-! ## Fields -/

theorem bind_once?_twice {β : Type} (earlier value value' : Option α) (next : Option α → Option β) :
    ((once? earlier value).bind fun a => (once? a value').bind next) = none := by
  cases earlier with
  | some a => rfl
  | none => cases value <;> rfl

theorem text?_scalar (s : Yaml.Scalar) : text? (.scalar s) = some s.text := rfl

/-- Entries of other names are passed over, and two entries of the name are too many in either order. -/
theorem field?_swap (name : String) (read : Node → Option α) (earlier : Option α) (entry entry' : Node × Node)
    (rest : List (Node × Node)) :
    field? name read earlier (entry :: entry' :: rest) = field? name read earlier (entry' :: entry :: rest) := by
  obtain ⟨key, value⟩ := entry
  obtain ⟨key', value'⟩ := entry'
  simp only [field?_cons]
  -- a key without a name fails wherever it stands
  cases text? key with
  | none => cases text? key' <;> simp
  | some k =>
    cases text? key' with
    | none => simp
    | some k' =>
      simp only [Option.bind_some]
      by_cases hk : k = name
      · by_cases hk' : k' = name
        · simp only [if_pos hk, if_pos hk', bind_once?_twice]
        · simp only [if_pos hk, if_neg hk']
      · by_cases hk' : k' = name
        · simp only [if_neg hk, if_pos hk']
        · simp only [if_neg hk, if_neg hk']

theorem Rearranged.field?_eq (h : Rearranged known Alike entries entries') {name : String} (hname : known name)
    {read : Node → Option α} (hread : ∀ value value', Alike name value value' → read value = read value')
    (earlier : Option α) : field? name read earlier entries = field? name read earlier entries' := by
  have hskip : ∀ {s : Yaml.Scalar}, ¬ known s.text → ∀ value rest earlier,
      field? name read earlier ((.scalar s, value) :: rest) = field? name read earlier rest := by
    intro s hs value rest earlier
    have hne : s.text ≠ name := by
      rintro rfl
      exact hs hname
    rw [field?_cons, text?_scalar, Option.bind_some, if_neg hne]
  induction h generalizing earlier with
  | nil => rfl
  | @entry key value value' rest rest' hvalue h ih =>
    rw [field?_cons, field?_cons]
    cases hkey : text? key with
    | none => rfl
    | some k =>
      simp only [Option.bind_some, ih]
      by_cases hk : k = name
      · subst hk
        rw [hread value value' (hvalue k hkey)]
      · rw [if_neg hk, if_neg hk]
  | swap entry entry' rest => exact field?_swap name read earlier entry entry' rest
  | added hs value h ih => rw [hskip hs, ih]
  | removed hs value h ih => rw [hskip hs, ih]
  | trans h h' ih ih' => rw [ih, ih']

/-! ## Policies and the listener -/

/-- In a mapping of scalars the values are the same. -/
theorem Rearranged.field?_eq_of_same (h : Rearranged known (fun _ value value' => value = value') entries entries')
    {name : String} (hname : known name) (read : Node → Option α) (earlier : Option α) :
    field? name read earlier entries = field? name read earlier entries' :=
  h.field?_eq hname (fun _ _ heq => congrArg read heq) earlier

theorem AlikePolicies.policyOf?_eq {node node' : Node} (h : AlikePolicies node node') :
    policyOf? node = policyOf? node' := by
  cases h with
  | same => rfl
  | @mapping entries entries' h =>
    show (policyFields? {} entries).map _ = (policyFields? {} entries').map _
    unfold policyFields?
    rw [h.field?_eq_of_same (by simp), h.field?_eq_of_same (by simp), h.field?_eq_of_same (by simp),
      h.field?_eq_of_same (by simp)]

theorem AlikeListeners.listenerOf?_eq {node node' : Node} (h : AlikeListeners node node') :
    listenerOf? node = listenerOf? node' := by
  cases h with
  | same => rfl
  | @mapping entries entries' h =>
    show (listenerFields? {} entries).bind _ = (listenerFields? {} entries').bind _
    unfold listenerFields?
    rw [h.field?_eq_of_same (by simp), h.field?_eq_of_same (by simp)]

/-! ## Routes -/

theorem routesFrom?_cons (routes : RouteTable Policy) (key value : Node) (rest : List (Node × Node)) :
    routesFrom? routes ((key, value) :: rest) = (text? key).bind fun route => (policyOf? value).bind fun policy =>
      routesFrom? (routes.insert route policy) rest := by
  unfold routesFrom?
  rw [fields?_cons]
  simp only [Option.bind_map, Function.comp_def]

theorem Rearranged.keys_perm (h : Rearranged (fun _ => True) Alike entries entries') :
    (entries.map fun entry => text? entry.1).Perm (entries'.map fun entry => text? entry.1) := by
  induction h with
  | nil => exact .nil
  | entry hvalue h ih => exact .cons _ ih
  | swap entry entry' rest => exact .swap _ _ _
  | added hs value h ih => exact absurd trivial hs
  | removed hs value h ih => exact absurd trivial hs
  | trans h h' ih ih' => exact ih.trans ih'

theorem Rearranged.routesFrom?_eq (h : Rearranged (fun _ => True) (fun _ => AlikePolicies) entries entries')
    (hkeys : (entries.map fun entry => text? entry.1).Nodup) (routes : RouteTable Policy) :
    routesFrom? routes entries = routesFrom? routes entries' := by
  induction h generalizing routes with
  | nil => rfl
  | @entry key value value' rest rest' hvalue h ih =>
    rw [routesFrom?_cons, routesFrom?_cons]
    cases hkey : text? key with
    | none => rfl
    | some route =>
      simp only [Option.bind_some, (hvalue route hkey).policyOf?_eq, ih (List.nodup_cons.1 hkeys).2]
  | swap entry entry' rest =>
    obtain ⟨key, value⟩ := entry
    obtain ⟨key', value'⟩ := entry'
    -- in either order both policies have to be read, and the two insertions do not meet
    have hne : text? key ≠ text? key' := by
      simp only [List.map_cons, List.nodup_cons, List.mem_cons, not_or] at hkeys
      exact hkeys.1.1
    simp only [routesFrom?_cons]
    cases hkey : text? key with
    | none => cases text? key' <;> cases policyOf? value' <;> simp
    | some route =>
      cases hkey' : text? key' with
      | none => cases policyOf? value <;> simp
      | some route' =>
        have hroute : route ≠ route' := by
          rintro rfl
          exact hne (hkey.trans hkey'.symm)
        cases policyOf? value <;> cases policyOf? value' <;> simp [RouteTable.insert_comm _ hroute]
  | added hs value h ih => exact absurd trivial hs
  | removed hs value h ih => exact absurd trivial hs
  | trans h h' ih ih' => rw [ih hkeys, ih' (h.keys_perm.nodup_iff.1 hkeys)]

theorem AlikeRoutes.routesOf?_eq {node node' : Node} (h : AlikeRoutes node node') : routesOf? node = routesOf? node' := by
  cases h with
  | same => rfl
  | mapping hkeys h => exact h.routesFrom?_eq hkeys .empty

/-! ## The whole -/

theorem AlikeConfigs.configOf?_eq {node node' : Node} (h : AlikeConfigs node node') :
    configOf? node = configOf? node' := by
  cases h with
  | same => rfl
  | @mapping entries entries' h =>
    show (configFields? {} entries).bind _ = (configFields? {} entries').bind _
    unfold configFields?
    rw [h.field?_eq (by simp) fun _ _ hvalue => (hvalue.listener rfl).listenerOf?_eq,
      h.field?_eq (by simp) fun _ _ hvalue => (hvalue.defaultPolicy rfl).policyOf?_eq,
      h.field?_eq (by simp) fun _ _ hvalue => (hvalue.routes rfl).routesOf?_eq]

theorem decode_eq_ok_iff {doc : Document} (hroot : doc.root.Resolved) {config : Config} :
    decode doc = .ok config ↔ configOf? doc.root = some config := by
  rw [← toOption_decode hroot]
  cases decode doc with
  | error e => simp [Except.toOption]
  | ok read => simp [Except.toOption]

/-- Trees that differ in nothing but the order of entries and unknown keys are both decoded, or neither is, and to
the same configuration, so that the registry has the same routes in the same order. -/
theorem decode_rearranged {doc doc' : Document} (hroot : doc.root.Resolved) (hroot' : doc'.root.Resolved)
    (h : AlikeConfigs doc.root doc'.root) :
    (∀ config, decode doc = .ok config ↔ decode doc' = .ok config) ∧
      ((∃ e, decode doc = .error e) ↔ ∃ e, decode doc' = .error e) ∧
      ∀ config config', decode doc = .ok config → decode doc' = .ok config' →
        Registry.ofConfig config = Registry.ofConfig config' := by
  have hsame : ∀ config, decode doc = .ok config ↔ decode doc' = .ok config := by
    intro config
    rw [decode_eq_ok_iff hroot, decode_eq_ok_iff hroot', h.configOf?_eq]
  refine ⟨hsame, ?_, ?_⟩
  · have hfails : ∀ {d : Document}, (∃ e, decode d = .error e) ↔ ∀ config, decode d ≠ .ok config := by
      intro d
      cases decode d with
      | error e => simp
      | ok config => simp
    rw [hfails, hfails]
    exact forall_congr' fun config => not_congr (hsame config)
  · intro config config' hdoc hdoc'
    rw [hsame] at hdoc
    cases hdoc.symm.trans hdoc'
    rfl

/-- The sections and the routes in another order, with a comment in a policy and a note beside the sections. -/
theorem decode_rearranged_of_notes :
    let word (text : String) : Node := .scalar ⟨text, .plain, none⟩
    let address := (word "bind_addr", word "localhost")
    let port := (word "port", word "80")
    let burst := (word "burst", word "2")
    let comment := (word "comment", word "small")
    let note := (word "note", Node.sequence [word "x"])
    let doc : Document := ⟨.mapping [(word "server", .mapping [address, port]),
      (word "routes", .mapping [(word "/b", .mapping [burst]), (word "/a", .mapping [])])], []⟩
    let doc' : Document := ⟨.mapping [note,
      (word "routes", .mapping [(word "/a", .mapping []), (word "/b", .mapping [comment, burst])]),
      (word "server", .mapping [port, address])], []⟩
    doc.root.Resolved ∧ doc'.root.Resolved ∧ AlikeConfigs doc.root doc'.root ∧
      ∃ config, decode doc = .ok config ∧ decode doc' = .ok config ∧ config.routes.routes = ["/a", "/b"] := by
  intro word address port burst comment note doc doc'
  have hword : ∀ text, (word text).Resolved := fun text => .scalar _
  have hnote : (Node.sequence [word "x"]).Resolved := .sequence (by simp [hword])
  have hroot : doc.root.Resolved := by
    simp [doc, address, port, burst, Yaml.Node.resolved_mapping_iff, hword]
  have hroot' : doc'.root.Resolved := by
    simp [doc', note, address, port, burst, comment, Yaml.Node.resolved_mapping_iff, hword, hnote]
  have hserver : AlikeListeners (.mapping [address, port]) (.mapping [port, address]) :=
    .mapping (.of_perm (fun _ _ => rfl) (.swap _ _ _))
  have hpolicy : AlikePolicies (.mapping [burst]) (.mapping [comment, burst]) :=
    .mapping (.added (by decide) _ (.entry (fun _ _ => rfl) .nil))
  have hroutes : AlikeRoutes (.mapping [(word "/b", .mapping [burst]), (word "/a", .mapping [])])
      (.mapping [(word "/a", .mapping []), (word "/b", .mapping [comment, burst])]) :=
    .mapping (by decide) (.trans (.swap _ _ _) (.entry (fun _ _ => .same _) (.entry (fun _ _ => hpolicy) .nil)))
  have halike : AlikeConfigs doc.root doc'.root := by
    refine .mapping (.trans (.swap _ _ _) (.added (by decide) _ (.entry ?_ (.entry ?_ .nil))))
    · rintro _ ⟨⟩
      exact ⟨fun h => absurd h (by decide), fun h => absurd h (by decide), fun _ => hroutes⟩
    · rintro _ ⟨⟩
      exact ⟨fun _ => hserver, fun h => absurd h (by decide), fun h => absurd h (by decide)⟩
  have hreads : ((decode doc).toOption.map (·.routes.routes)) = some ["/a", "/b"] := by decide +kernel
  cases hdecode : decode doc with
  | error e =>
    rw [hdecode] at hreads
    cases hreads
  | ok config =>
    rw [hdecode] at hreads
    exact ⟨hroot, hroot', halike, config, rfl, ((decode_rearranged hroot hroot' halike).1 config).1 hdecode,
      Option.some.inj hreads⟩

end Throttle.Config
