import Throttle.Config.Decoding

/-!
# What a tree without aliases reads as

Decoding as a partial function of the tree alone: there are no aliases to follow, and which error comes
first does not matter. Each field of a mapping is decided by the entries of its name and by nothing else.
Main statement: `toOption_decode`.
-/

set_option autoImplicit false

namespace Throttle

/-- No alias is in the tree. -/
inductive Yaml.Node.Resolved : Yaml.Node → Prop where
  | scalar (s : Yaml.Scalar) : Resolved (.scalar s)
  | sequence {items : List Yaml.Node} (h : ∀ item ∈ items, Resolved item) : Resolved (.sequence items)
  | mapping {entries : List (Yaml.Node × Yaml.Node)} (hkeys : ∀ entry ∈ entries, Resolved entry.1)
    (hvalues : ∀ entry ∈ entries, Resolved entry.2) : Resolved (.mapping entries)

theorem Yaml.Node.resolved_mapping_iff {entries : List (Yaml.Node × Yaml.Node)} :
    (Yaml.Node.mapping entries).Resolved ↔ ∀ entry ∈ entries, entry.1.Resolved ∧ entry.2.Resolved := by
  constructor
  · intro h
    cases h with
    | mapping hkeys hvalues => exact fun entry hentry => ⟨hkeys entry hentry, hvalues entry hentry⟩
  · exact fun h => .mapping (fun entry hentry => (h entry hentry).1) fun entry hentry => (h entry hentry).2

namespace Config
open Yaml (Document Node)

variable {α β δ : Type}

/-! ## Outcomes -/

/-- However many aliases may be followed, the outcome is the same and none of them is followed. -/
def Yields (m : Decoded α) (outcome : Option α) : Prop :=
  ∀ left, (m.run left).toOption = outcome.map (·, left)

theorem yields_pure (a : α) : Yields (pure a) (some a) :=
  fun _ => rfl

theorem yields_throw (e : DecodeError) : Yields (throw e : Decoded α) none :=
  fun _ => rfl

theorem Yields.bind {m : Decoded α} {outcome : Option α} (h : Yields m outcome) {f : α → Decoded β}
    {next : α → Option β} (hf : ∀ a, outcome = some a → Yields (f a) (next a)) :
    Yields (m >>= f) (outcome.bind next) := by
  intro left
  have hleft := h left
  rw [StateT.run_bind]
  cases hm : m.run left with
  | error e =>
    rw [hm] at hleft
    cases outcome with
    | none => rfl
    | some a => cases hleft
  | ok result =>
    rw [hm] at hleft
    cases outcome with
    | none => cases hleft
    | some a =>
      cases hleft
      exact hf a rfl left

theorem Yields.andPure {m : Decoded α} {outcome : Option α} (h : Yields m outcome) (f : α → β) :
    Yields (m >>= fun a => pure (f a)) (outcome.map f) := by
  rw [Option.map_eq_bind]
  exact h.bind fun a _ => yields_pure (f a)

theorem Yields.map {m : Decoded α} {outcome : Option α} (h : Yields m outcome) (f : α → β) :
    Yields (f <$> m) (outcome.map f) := by
  rw [map_eq_pure_bind]
  exact h.andPure f

theorem yields_of_option {m : Decoded α} {outcome : Option α} (hsome : ∀ a, outcome = some a → m = pure a)
    (hnone : outcome = none → ∃ e, m = throw e) : Yields m outcome := by
  cases outcome with
  | none =>
    obtain ⟨e, rfl⟩ := hnone rfl
    exact yields_throw e
  | some a =>
    rw [hsome a rfl]
    exact yields_pure a

/-! ## Scalars -/

def scalar? : Node → Option Yaml.Scalar
  | .scalar s => some s
  | _ => none

def text? (node : Node) : Option String := (scalar? node).map (·.text)

def uint64? (node : Node) : Option UInt64 := (scalar? node).bind fun s => s.unsigned?.bind Numeral.word64?

def uint16? (node : Node) : Option UInt16 := (uint64? node).bind fun n => Numeral.word16? n.toNat

def int64? (node : Node) : Option Int64 := (scalar? node).bind fun s => s.integer?.bind Numeral.signed64?

def real? (node : Node) : Option Binary64 := (scalar? node).bind (·.real?)

def optional? (read : Node → Option α) : Node → Option (Option α)
  | .scalar s =>
    match s.isNothing with
    | .ok true => some none
    | .ok false => (read (.scalar s)).map some
    | .error _ => none
  | node => (read node).map some

variable {doc : Document} {path : List String} {expected : String} {node : Node}

theorem yields_scalar (hnode : node.Resolved) {read : Yaml.Scalar → Decoded α} {next : Yaml.Scalar → Option α}
    (hread : ∀ s, Yields (read s) (next s)) :
    Yields (decodeScalar doc path expected read node) ((scalar? node).bind next) := by
  cases hnode with
  | scalar s => exact hread s
  | sequence h => exact yields_throw _
  | mapping hkeys hvalues => exact yields_throw _

theorem yields_text (hnode : node.Resolved) : Yields (decodeText doc path expected node) (text? node) := by
  rw [text?, Option.map_eq_bind]
  exact yields_scalar hnode fun s => yields_pure s.text

theorem yields_uint64 (hnode : node.Resolved) : Yields (decodeUInt64 doc path expected node) (uint64? node) :=
  yields_scalar hnode fun _ => yields_of_option (fun a h => by rw [h]) fun h => ⟨_, by rw [h]; rfl⟩

theorem yields_uint16 (hnode : node.Resolved) : Yields (decodeUInt16 doc path expected node) (uint16? node) :=
  (yields_uint64 hnode).bind fun _ _ => yields_of_option (fun a h => by rw [h]) fun h => ⟨_, by rw [h]; rfl⟩

theorem yields_int64 (hnode : node.Resolved) : Yields (decodeInt64 doc path node) (int64? node) :=
  yields_scalar hnode fun _ => yields_of_option (fun a h => by rw [h]) fun h => ⟨_, by rw [h]; rfl⟩

theorem yields_real (hnode : node.Resolved) : Yields (decodeReal doc path node) (real? node) :=
  yields_scalar hnode fun _ => yields_of_option (fun a h => by rw [h]) fun h => ⟨_, by rw [h]; rfl⟩

theorem yields_optional (hnode : node.Resolved) {decode : Node → Decoded α} {read : Node → Option α}
    (hdecode : Yields (decode node) (read node)) :
    Yields (decodeOptional doc path decode node) (optional? read node) := by
  cases hnode with
  | scalar s =>
    show Yields (match s.isNothing with
      | .ok true => pure none
      | .ok false => some <$> decode (.scalar s)
      | .error m => mismatchAt path m) _
    unfold optional?
    dsimp only
    split
    · exact yields_pure none
    · exact hdecode.map some
    · exact yields_throw _
  | sequence h => exact hdecode.map some
  | mapping hkeys hvalues => exact hdecode.map some

/-! ## Mappings -/

def entries? : Node → Option (List (Node × Node))
  | .mapping entries => some entries
  | .scalar s => if s.isPlain && s.text.isEmpty then some [] else none
  | _ => none

/-- The value of a field with the one that came before it, which there may not be. -/
def once? (earlier value : Option α) : Option (Option α) :=
  if earlier.isSome then none else value.map some

/-- The fields read so far with those in a list of entries, one after the other. -/
def fields? (put : δ → String → Node → Option δ) (start : δ) (entries : List (Node × Node)) : Option δ :=
  entries.foldlM (fun fields entry => (text? entry.1).bind fun name => put fields name entry.2) start

/-- A field of a list of entries that came before it or not. Only the entries of its name are looked at, once all
keys have names. -/
def field? (name : String) (read : Node → Option α) (earlier : Option α) (entries : List (Node × Node)) :
    Option (Option α) :=
  fields? (fun earlier key value => if key = name then once? earlier (read value) else some earlier) earlier entries

theorem fields?_cons (put : δ → String → Node → Option δ) (start : δ) (key value : Node) (rest : List (Node × Node)) :
    fields? put start ((key, value) :: rest) =
      (text? key).bind fun name => (put start name value).bind fun fields => fields? put fields rest := by
  show Option.bind (Option.bind _ _) _ = _
  rw [Option.bind_assoc]
  rfl

theorem entries_resolved (hnode : node.Resolved) {entries : List (Node × Node)} (h : entries? node = some entries) :
    ∀ entry ∈ entries, entry.1.Resolved ∧ entry.2.Resolved := by
  cases hnode with
  | scalar s =>
    rw [entries?] at h
    split at h
    · cases h
      exact fun entry hentry => absurd hentry List.not_mem_nil
    · cases h
  | sequence hitems => cases h
  | mapping hkeys hvalues =>
    cases h
    exact Yaml.Node.resolved_mapping_iff.1 (.mapping hkeys hvalues)

theorem yields_entries (hnode : node.Resolved) :
    Yields (decodeEntries doc path expected node) (entries? node) := by
  cases hnode with
  | scalar s =>
    show Yields (if s.isPlain && s.text.isEmpty then pure [] else mismatchAt path (s.mismatch expected)) _
    rw [entries?]
    split
    · exact yields_pure []
    · exact yields_throw _
  | sequence h => exact yields_throw _
  | mapping hkeys hvalues => exact yields_pure _

theorem yields_key (hnode : node.Resolved) :
    Yields (decodeKey doc path expected node) ((text? node).map fun name => (name, name)) := by
  rw [Option.map_eq_bind]
  refine (yields_text hnode).bind fun name _ => ?_
  cases hnode with
  | scalar s => exact yields_pure _
  | sequence h => exact yields_pure _
  | mapping hkeys hvalues => exact yields_pure _

theorem yields_field {name : String} {earlier : Option α} {decode : Decoded α} {value : Option α}
    (h : Yields decode value) : Yields (decodeField path name earlier decode) (once? earlier value) := by
  unfold decodeField once?
  split
  · exact yields_throw _
  · exact h.map some

theorem yields_foldlM {step : δ → Node × Node → Decoded δ} {next : δ → Node × Node → Option δ}
    {entries : List (Node × Node)} (h : ∀ entry ∈ entries, ∀ fields, Yields (step fields entry) (next fields entry))
    (start : δ) : Yields (entries.foldlM step start) (entries.foldlM next start) := by
  induction entries generalizing start with
  | nil => exact yields_pure start
  | cons entry rest ih =>
    rw [List.foldlM_cons, List.foldlM_cons]
    exact (h entry List.mem_cons_self start).bind fun fields _ =>
      ih (fun e he => h e (List.mem_cons_of_mem entry he)) fields

/-- A step that reads the name of a key first. -/
theorem yields_step (hnode : node.Resolved) {f : String × String → Decoded β} {next : String → Option β}
    (hf : ∀ name, Yields (f (name, name)) (next name)) :
    Yields (decodeKey doc path expected node >>= f) ((text? node).bind next) := by
  have hkey : Yields (decodeKey doc path expected node) _ := yields_key hnode
  have h : Yields (decodeKey doc path expected node >>= f) (Option.bind _ fun key : String × String => next key.1) :=
    hkey.bind fun key hkey => by
      obtain ⟨name, _, rfl⟩ := Option.map_eq_some_iff.1 hkey
      exact hf name
  rwa [Option.bind_map] at h

theorem yields_fields {put : δ → String → List String → Node → Decoded δ} {next : δ → String → Node → Option δ}
    (hput : ∀ fields name place value, value.Resolved → Yields (put fields name place value) (next fields name value))
    (hnode : node.Resolved) (start : δ) :
    Yields (decodeFields doc path expected put start node)
      ((entries? node).bind fun entries => fields? next start entries) := by
  refine (yields_entries hnode).bind fun entries hentries => yields_foldlM (fun entry hentry fields => ?_) start
  obtain ⟨hkey, hvalue⟩ := entries_resolved hnode hentries entry hentry
  exact yields_step hkey fun name => hput fields name _ entry.2 hvalue

theorem field?_cons (name : String) (read : Node → Option α) (earlier : Option α) (key value : Node)
    (rest : List (Node × Node)) :
    field? name read earlier ((key, value) :: rest) = (text? key).bind fun k =>
      if k = name then (once? earlier (read value)).bind fun a => field? name read a rest
      else field? name read earlier rest := by
  unfold field?
  rw [fields?_cons]
  congr 1
  funext k
  split <;> rfl

/-! ## Policies -/

def putPolicy? (f : PolicyFields) (name : String) (value : Node) : Option PolicyFields :=
  match name with
  | "rate_per_sec" => (once? f.ratePerSec (optional? real? value)).map fun rate => { f with ratePerSec := rate }
  | "interval_ms" =>
    (once? f.intervalMs (optional? int64? value)).map fun interval => { f with intervalMs := interval }
  | "burst" => (once? f.burst (uint64? value)).map fun burst => { f with burst }
  | "max_wait_ms" => (once? f.maxWaitMs (uint64? value)).map fun maxWait => { f with maxWaitMs := maxWait }
  | _ => some f

/-- The fields of a policy, each from the entries of its name. -/
def policyFields? (f : PolicyFields) (entries : List (Node × Node)) : Option PolicyFields :=
  (field? "rate_per_sec" (optional? real?) f.ratePerSec entries).bind fun ratePerSec =>
  (field? "interval_ms" (optional? int64?) f.intervalMs entries).bind fun intervalMs =>
  (field? "burst" uint64? f.burst entries).bind fun burst =>
  (field? "max_wait_ms" uint64? f.maxWaitMs entries).map fun maxWaitMs => ⟨ratePerSec, intervalMs, burst, maxWaitMs⟩

def policyOf? (node : Node) : Option Policy :=
  (entries? node).bind fun entries => (policyFields? {} entries).map (·.toPolicy)

theorem fields?_policy (f : PolicyFields) (entries : List (Node × Node)) :
    fields? putPolicy? f entries = policyFields? f entries := by
  induction entries generalizing f with
  | nil => rfl
  | cons entry rest ih =>
    obtain ⟨key, value⟩ := entry
    rw [fields?_cons]
    unfold policyFields?
    simp only [field?_cons]
    cases text? key with
    | none => rfl
    | some name =>
      simp only [Option.bind_some, ih]
      unfold putPolicy?
      -- only the field of that name sees the entry, and if it fails all do
      split
      · cases once? f.ratePerSec (optional? real? value) <;> simp [policyFields?]
      · cases once? f.intervalMs (optional? int64? value) <;> simp [policyFields?]
      · cases once? f.burst (uint64? value) <;> simp [policyFields?]
      · cases once? f.maxWaitMs (uint64? value) <;> simp [policyFields?]
      · next hrate hinterval hburst hmaxWait =>
        simp only [Option.bind_some, if_neg hrate, if_neg hinterval, if_neg hburst, if_neg hmaxWait]
        rfl

theorem yields_putPolicy (doc : Document) (path : List String) (f : PolicyFields) (name : String) (place : List String)
    (value : Node) (h : value.Resolved) :
    Yields (putPolicyField doc path f name place value) (putPolicy? f name value) := by
  unfold putPolicyField
  split
  · exact (yields_field (yields_optional h (yields_real h))).andPure _
  · exact (yields_field (yields_optional h (yields_int64 h))).andPure _
  · exact (yields_field (yields_uint64 h)).andPure _
  · exact (yields_field (yields_uint64 h)).andPure _
  · simp only [putPolicy?]
    exact yields_pure f

theorem yields_policy (hnode : node.Resolved) : Yields (decodePolicy doc path node) (policyOf? node) := by
  have hfields : Yields (decodeFields doc path "struct LimitConfig" (putPolicyField doc path) {} node)
      ((entries? node).bind fun entries => fields? putPolicy? {} entries) :=
    yields_fields (yields_putPolicy doc path) hnode {}
  have h := hfields.andPure PolicyFields.toPolicy
  rw [Option.map_bind] at h
  simp only [fields?_policy] at h
  exact h

/-! ## Routes -/

def routesFrom? (start : RouteTable Policy) (entries : List (Node × Node)) : Option (RouteTable Policy) :=
  fields? (fun routes route value => (policyOf? value).map (routes.insert route ·)) start entries

def routesOf? (node : Node) : Option (RouteTable Policy) :=
  (entries? node).bind (routesFrom? .empty)

theorem yields_routes (hnode : node.Resolved) : Yields (decodeRoutes doc path node) (routesOf? node) := by
  refine (yields_entries hnode).bind fun entries hentries => yields_foldlM (fun entry hentry routes => ?_) _
  obtain ⟨hkey, hvalue⟩ := entries_resolved hnode hentries entry hentry
  exact yields_step hkey fun route => (yields_policy hvalue).map (routes.insert route ·)

/-! ## The listener -/

def putListener? (f : ListenerFields) (name : String) (value : Node) : Option ListenerFields :=
  match name with
  | "bind_addr" => (once? f.bindAddr (text? value)).map fun bindAddr => { f with bindAddr }
  | "port" => (once? f.port (uint16? value)).map fun port => { f with port }
  | _ => some f

def listenerFields? (f : ListenerFields) (entries : List (Node × Node)) : Option ListenerFields :=
  (field? "bind_addr" text? f.bindAddr entries).bind fun bindAddr =>
  (field? "port" uint16? f.port entries).map fun port => ⟨bindAddr, port⟩

/-- Both fields have to be there. -/
def listenerOf? (node : Node) : Option Listener :=
  (entries? node).bind fun entries => (listenerFields? {} entries).bind fun fields =>
    fields.bindAddr.bind fun bindAddr => fields.port.map fun port => ⟨bindAddr, port⟩

theorem fields?_listener (f : ListenerFields) (entries : List (Node × Node)) :
    fields? putListener? f entries = listenerFields? f entries := by
  induction entries generalizing f with
  | nil => rfl
  | cons entry rest ih =>
    obtain ⟨key, value⟩ := entry
    rw [fields?_cons]
    unfold listenerFields?
    simp only [field?_cons]
    cases text? key with
    | none => rfl
    | some name =>
      simp only [Option.bind_some, ih]
      unfold putListener?
      split
      · cases once? f.bindAddr (text? value) <;> simp [listenerFields?]
      · cases once? f.port (uint16? value) <;> simp [listenerFields?]
      · next hbindAddr hport =>
        simp only [Option.bind_some, if_neg hbindAddr, if_neg hport]
        rfl

theorem yields_putListener (doc : Document) (path : List String) (f : ListenerFields) (name : String) (place : List String)
    (value : Node) (h : value.Resolved) :
    Yields (putListenerField doc path f name place value) (putListener? f name value) := by
  unfold putListenerField
  split
  · exact (yields_field (yields_text h)).andPure _
  · exact (yields_field (yields_uint16 h)).andPure _
  · simp only [putListener?]
    exact yields_pure f

theorem yields_required (path : List String) (name : String) (value : Option α) :
    Yields (requireField path name value) value := by
  unfold requireField
  cases value with
  | none => exact yields_throw _
  | some a => exact yields_pure a

theorem yields_listener (hnode : node.Resolved) : Yields (decodeListener doc path node) (listenerOf? node) := by
  have hfields : Yields (decodeFields doc path "struct ServerConfig" (putListenerField doc path) {} node)
      ((entries? node).bind fun entries => fields? putListener? {} entries) :=
    yields_fields (yields_putListener doc path) hnode {}
  have h := hfields.bind fun fields _ => (yields_required path "bind_addr" fields.bindAddr).bind fun bindAddr _ =>
    (yields_required path "port" fields.port).map fun port => (⟨bindAddr, port⟩ : Listener)
  rw [Option.bind_assoc] at h
  simp only [fields?_listener] at h
  exact h

/-! ## The whole -/

def putConfig? (f : ConfigFields) (name : String) (value : Node) : Option ConfigFields :=
  match name with
  | "server" => (once? f.listener (listenerOf? value)).map fun listener => { f with listener }
  | "default_limit" => (once? f.defaultPolicy (policyOf? value)).map fun defaultPolicy => { f with defaultPolicy }
  | "routes" => (once? f.routes (routesOf? value)).map fun routes => { f with routes }
  | _ => some f

def configFields? (f : ConfigFields) (entries : List (Node × Node)) : Option ConfigFields :=
  (field? "server" listenerOf? f.listener entries).bind fun listener =>
  (field? "default_limit" policyOf? f.defaultPolicy entries).bind fun defaultPolicy =>
  (field? "routes" routesOf? f.routes entries).map fun routes => ⟨listener, defaultPolicy, routes⟩

/-- The listener has to be there; without a default there is no limit, and without routes none. -/
def configOf? (node : Node) : Option Config :=
  (entries? node).bind fun entries => (configFields? {} entries).bind fun fields =>
    fields.listener.map fun listener =>
      { listener, defaultPolicy := fields.defaultPolicy.getD {}, routes := fields.routes.getD .empty }

theorem fields?_config (f : ConfigFields) (entries : List (Node × Node)) :
    fields? putConfig? f entries = configFields? f entries := by
  induction entries generalizing f with
  | nil => rfl
  | cons entry rest ih =>
    obtain ⟨key, value⟩ := entry
    rw [fields?_cons]
    unfold configFields?
    simp only [field?_cons]
    cases text? key with
    | none => rfl
    | some name =>
      simp only [Option.bind_some, ih]
      unfold putConfig?
      split
      · cases once? f.listener (listenerOf? value) <;> simp [configFields?]
      · cases once? f.defaultPolicy (policyOf? value) <;> simp [configFields?]
      · cases once? f.routes (routesOf? value) <;> simp [configFields?]
      · next hlistener hdefault hroutes =>
        simp only [Option.bind_some, if_neg hlistener, if_neg hdefault, if_neg hroutes]
        rfl

theorem yields_putConfig (doc : Document) (path : List String) (f : ConfigFields) (name : String) (place : List String)
    (value : Node) (h : value.Resolved) :
    Yields (putConfigField doc path f name place value) (putConfig? f name value) := by
  unfold putConfigField
  split
  · exact (yields_field (yields_listener h)).andPure _
  · exact (yields_field (yields_policy h)).andPure _
  · exact (yields_field (yields_routes h)).andPure _
  · simp only [putConfig?]
    exact yields_pure f

theorem yields_config (hroot : doc.root.Resolved) : Yields (decodeConfig doc) (configOf? doc.root) := by
  have hfields : Yields (decodeFields doc [] "struct Config" (putConfigField doc []) {} doc.root)
      ((entries? doc.root).bind fun entries => fields? putConfig? {} entries) :=
    yields_fields (yields_putConfig doc []) hroot {}
  have h := hfields.bind fun fields _ => (yields_required [] "server" fields.listener).map fun listener =>
    ({ listener, defaultPolicy := fields.defaultPolicy.getD {}, routes := fields.routes.getD .empty } : Config)
  rw [Option.bind_assoc] at h
  simp only [fields?_config] at h
  exact h

/-- A tree without aliases is decoded to what it reads as. -/
theorem toOption_decode (hroot : doc.root.Resolved) : (decode doc).toOption = configOf? doc.root := by
  have h := yields_config hroot doc.aliasLimit
  show Except.toOption (StateT.run' (decodeConfig doc) doc.aliasLimit) = _
  rw [StateT.run'_eq]
  cases hrun : (decodeConfig doc).run doc.aliasLimit with
  | error e =>
    rw [hrun] at h
    cases hconfig : configOf? doc.root with
    | none => rfl
    | some config =>
      rw [hconfig] at h
      cases h
  | ok result =>
    rw [hrun] at h
    cases hconfig : configOf? doc.root with
    | none =>
      rw [hconfig] at h
      cases h
    | some config =>
      rw [hconfig] at h
      cases h
      rfl

end Config

end Throttle
