import Throttle.Proofs.Registry.Lookup

/-!
# The longest prefix that owns a path

Which prefixes own a path is said of the strings themselves, and agrees with what is computed. Two of them
that are equally long are one, so among routes with names of their own the longest owner of a path is unique,
and depends on the routes only as a set. Main statement: `resolve_longest`.
-/

set_option autoImplicit false

namespace Throttle

/-! ## Prefixes that own a path -/

/-- A name owns the path that it is, and every path that goes on after it where a slash ends the name or
begins the rest. -/
def Owns (name path : String) : Prop :=
  path = name ∨ ∃ rest, path = name ++ rest ∧ ((∃ stem, name = stem ++ "/") ∨ ∃ tail, rest = "/" ++ tail)

theorem ends_with_slash_iff {s : String} : s.toList.getLast? = some '/' ↔ ∃ stem, s = stem ++ "/" := by
  rw [List.getLast?_eq_some_iff]
  constructor
  · rintro ⟨stem, h⟩
    exact ⟨String.ofList stem, by simp [← String.toList_inj, h]⟩
  · rintro ⟨stem, rfl⟩
    exact ⟨stem.toList, String.toList_append⟩

theorem starts_with_slash_iff {s : String} : s.toList.head? = some '/' ↔ ∃ tail, s = "/" ++ tail := by
  rw [List.head?_eq_some_iff]
  constructor
  · rintro ⟨tail, h⟩
    exact ⟨String.ofList tail, by simp [← String.toList_inj, h]⟩
  · rintro ⟨tail, rfl⟩
    exact ⟨tail.toList, String.toList_append⟩

theorem exists_append_of_ownsPath {name path : String} (h : ownsPath name path = true) : ∃ rest, path = name ++ rest := by
  unfold ownsPath at h
  rw [Bool.and_eq_true, List.isPrefixOf_iff_prefix] at h
  obtain ⟨⟨rest, hrest⟩, _⟩ := h
  exact ⟨String.ofList rest, by rw [← String.toList_inj, String.toList_append, String.toList_ofList, hrest]⟩

theorem ownsPath_append_iff {name rest : String} :
    ownsPath name (name ++ rest) = true ↔
      rest = "" ∨ (∃ stem, name = stem ++ "/") ∨ ∃ tail, rest = "/" ++ tail := by
  unfold ownsPath
  rw [← ends_with_slash_iff, ← starts_with_slash_iff]
  simp [String.toList_append, or_assoc]

theorem ownsPath_iff {name path : String} : ownsPath name path = true ↔ Owns name path := by
  constructor
  · intro h
    obtain ⟨rest, rfl⟩ := exists_append_of_ownsPath h
    rcases ownsPath_append_iff.1 h with hempty | hslash
    · exact .inl (by rw [hempty, String.append_empty])
    · exact .inr ⟨rest, rfl, hslash⟩
  · rintro (rfl | ⟨rest, rfl, hslash⟩)
    · have hself : ownsPath path (path ++ "") = true := ownsPath_append_iff.2 (.inl rfl)
      rwa [String.append_empty] at hself
    · exact ownsPath_append_iff.2 (.inr hslash)

instance (name path : String) : Decidable (Owns name path) := decidable_of_iff _ ownsPath_iff

theorem eq_of_toList_append {s t : String} {rest : List Char} (h : t.toList = s.toList ++ rest)
    (hsize : s.utf8ByteSize = t.utf8ByteSize) : s = t := by
  have ht : t = s ++ String.ofList rest := by
    rw [← String.toList_inj, String.toList_append, String.toList_ofList, h]
  rw [ht, String.utf8ByteSize_append] at hsize
  have hnothing : String.ofList rest = "" := String.utf8ByteSize_eq_zero_iff.1 (by omega)
  rw [ht, hnothing, String.append_empty]

/-- Owners of one path that are equally long are the same prefix of it. -/
theorem Owns.eq_of_size_eq {s t path : String} (hs : Owns s path) (ht : Owns t path)
    (hsize : s.utf8ByteSize = t.utf8ByteSize) : s = t := by
  obtain ⟨u, hu⟩ := exists_append_of_ownsPath (ownsPath_iff.2 hs)
  obtain ⟨v, hv⟩ := exists_append_of_ownsPath (ownsPath_iff.2 ht)
  have hsame : s.toList ++ u.toList = t.toList ++ v.toList := by
    rw [← String.toList_append, ← String.toList_append, ← hu, hv]
  rcases List.append_eq_append_iff.1 hsame with ⟨rest, hlonger, _⟩ | ⟨rest, hlonger, _⟩
  · exact eq_of_toList_append hlonger hsize
  · exact (eq_of_toList_append hlonger hsize.symm).symm

/-! ## The longest owner -/

/-- A route that owns a path, and is longer than every other of the routes that does. -/
structure LongestOwner (routes : List Route) (path : String) (r : Route) : Prop where
  mem : r ∈ routes
  owns : Owns r.name path
  longest : ∀ s ∈ routes, Owns s.name path → s ≠ r → s.name.utf8ByteSize < r.name.utf8ByteSize

theorem LongestOwner.unique {routes : List Route} {path : String} {r s : Route} (hr : LongestOwner routes path r)
    (hs : LongestOwner routes path s) : r = s := by
  by_cases hne : r = s
  · exact hne
  · have hlt := hr.longest s hs.mem hs.owns (Ne.symm hne)
    have hgt := hs.longest r hr.mem hr.owns hne
    omega

theorem size_le_longer (r s : Route) :
    r.name.utf8ByteSize ≤ (longer r s).name.utf8ByteSize ∧ s.name.utf8ByteSize ≤ (longer r s).name.utf8ByteSize := by
  unfold longer
  split <;> omega

namespace Registry

variable {routes : List Route} {path : String} {r s : Route}

theorem size_le_longest {best : Option Route}
    (h : routes.foldl (fun best r => some (match best with
      | none => r
      | some b => longer b r)) best = some r) :
    (∀ b, best = some b → b.name.utf8ByteSize ≤ r.name.utf8ByteSize) ∧
      ∀ s ∈ routes, s.name.utf8ByteSize ≤ r.name.utf8ByteSize := by
  induction routes generalizing best with
  | nil =>
    refine ⟨fun b hb => ?_, fun s hs => nomatch hs⟩
    cases Option.some.inj (hb.symm.trans h)
    exact Nat.le_refl _
  | cons first rest ih =>
    -- the choice from `best` and `first` is what the rest is compared with
    obtain ⟨hbest, hrest⟩ := ih h
    have hchosen := hbest _ rfl
    cases best with
    | none => exact ⟨fun b hb => (nomatch hb), List.forall_mem_cons.2 ⟨hchosen, hrest⟩⟩
    | some b =>
      obtain ⟨hleft, hright⟩ := size_le_longer b first
      refine ⟨fun b' hb => ?_, List.forall_mem_cons.2 ⟨Nat.le_trans hright hchosen, hrest⟩⟩
      cases hb
      exact Nat.le_trans hleft hchosen

theorem owns_of_owner (h : owner? routes path = some r) : Owns r.name path := by
  rcases mem_of_longest h with hmem | hnone
  · exact ownsPath_iff.1 (List.mem_filter.1 hmem).2
  · cases hnone

theorem size_le_of_owner (h : owner? routes path = some r) (hmem : s ∈ routes) (howns : Owns s.name path) :
    s.name.utf8ByteSize ≤ r.name.utf8ByteSize :=
  (size_le_longest h).2 s (List.mem_filter.2 ⟨hmem, ownsPath_iff.2 howns⟩)

theorem longest_eq_none_iff {best : Option Route} :
    routes.foldl (fun best r => some (match best with
      | none => r
      | some b => longer b r)) best = none ↔ routes = [] ∧ best = none := by
  induction routes generalizing best with
  | nil => simp
  | cons first rest ih =>
    rw [List.foldl_cons, ih]
    simp

theorem owner_eq_none_iff : owner? routes path = none ↔ ∀ r ∈ routes, ¬ Owns r.name path := by
  refine longest_eq_none_iff.trans ?_
  simp [List.filter_eq_nil_iff, ← ownsPath_iff]

/-- Routes with names of their own are equal if their names are. -/
theorem eq_of_name_eq (hnodup : (routes.map (·.name)).Nodup) (hr : r ∈ routes) (hs : s ∈ routes) (h : r.name = s.name) :
    r = s := by
  have hfound := find?_name hnodup hr
  rw [h, find?_name hnodup hs] at hfound
  exact (Option.some.inj hfound).symm

theorem longestOwner_of_owner (hnodup : (routes.map (·.name)).Nodup) (h : owner? routes path = some r) :
    LongestOwner routes path r := by
  have hmem := mem_of_owner h
  have howns := owns_of_owner h
  refine ⟨hmem, howns, fun s hs hsowns hne => Nat.lt_of_le_of_ne (size_le_of_owner h hs hsowns) fun hsize => hne ?_⟩
  exact eq_of_name_eq hnodup hs hmem (hsowns.eq_of_size_eq howns hsize)

theorem owner_congr {others : List Route} (hnodup : (routes.map (·.name)).Nodup)
    (h : ∀ r, Owns r.name path → (r ∈ others ↔ r ∈ routes)) : owner? others path = owner? routes path := by
  cases hothers : owner? others path with
  | none =>
    rw [owner_eq_none_iff] at hothers
    exact (owner_eq_none_iff.2 fun r hr howns => hothers r ((h r howns).2 hr) howns).symm
  | some r =>
    have howns := owns_of_owner hothers
    have hmem := (h r howns).1 (mem_of_owner hothers)
    cases hroutes : owner? routes path with
    | none => exact absurd howns (owner_eq_none_iff.1 hroutes r hmem)
    | some s =>
      -- each of the two is among the routes that the other is the longest of
      have hsowns := owns_of_owner hroutes
      have hle := size_le_of_owner hothers ((h s hsowns).2 (mem_of_owner hroutes)) hsowns
      have hge := size_le_of_owner hroutes hmem howns
      have hname := howns.eq_of_size_eq hsowns (Nat.le_antisymm hge hle)
      rw [eq_of_name_eq hnodup hmem (mem_of_owner hroutes) hname]

/-! ## Resolution -/

/-- In every registry whose routes have names of their own, and for every path. If some route owns the path,
it resolves to the one route that owns it and is longer than all others that do, counted in bytes; otherwise
it resolves to the fallback. The order of the routes is of no account, and one route more makes a difference
to the paths that it owns, and to no other. -/
theorem resolve_longest (reg : Registry) (hnodup : reg.names.Nodup) (path : String) :
    ((∃ r ∈ reg.routes, Owns r.name path) →
        LongestOwner reg.routes path (reg.resolve path) ∧
          ∀ r, LongestOwner reg.routes path r → r = reg.resolve path) ∧
      ((∀ r ∈ reg.routes, ¬ Owns r.name path) → reg.resolve path = reg.fallback) ∧
      (∀ routes : List Route, routes.Perm reg.routes → { reg with routes }.resolve path = reg.resolve path) ∧
      ∀ (q : Route) (routes : List Route), routes.Perm (q :: reg.routes) →
        { reg with routes }.resolve path ≠ reg.resolve path → Owns q.name path := by
  have hresolve : ∀ routes : List Route, (∀ r, Owns r.name path → (r ∈ routes ↔ r ∈ reg.routes)) →
      { reg with routes }.resolve path = reg.resolve path := by
    intro routes hsame
    unfold resolve
    rw [owner_congr hnodup hsame]
  refine ⟨fun ⟨r, hmem, howns⟩ => ?_, fun hnone => ?_, fun routes hperm => ?_, fun q routes hperm hdiffers => ?_⟩
  · cases h : owner? reg.routes path with
    | none => exact absurd howns (owner_eq_none_iff.1 h r hmem)
    | some owner =>
      have hresolved : reg.resolve path = owner := by
        unfold resolve
        rw [h]
        rfl
      have hlongest := longestOwner_of_owner hnodup h
      rw [hresolved]
      exact ⟨hlongest, fun r hr => hr.unique hlongest⟩
  · unfold resolve
    rw [owner_eq_none_iff.2 hnone]
    rfl
  · exact hresolve routes fun r _ => hperm.mem_iff
  · refine Decidable.by_contra fun hnot => hdiffers (hresolve routes fun r howns => ?_)
    rw [hperm.mem_iff, List.mem_cons]
    refine or_iff_right ?_
    rintro rfl
    exact hnot howns

/-- Of nested prefixes the longest has the path; a longer one that ends inside a segment does not own it. -/
theorem resolve_longest_of_nested :
    let route (name : String) : Route := .ofPolicy name {}
    let reg : Registry := ⟨[route "/api", route "/api/ü/", route "/api/ü/ab", route ""], route fallbackName⟩
    let path := "/api/ü/abc"
    reg.names.Nodup ∧
      ((∃ r ∈ reg.routes, Owns r.name path) ∧ LongestOwner reg.routes path (route "/api/ü/") ∧
        route "/api/ü/" = reg.resolve path) ∧
      ((∀ r ∈ reg.routes, ¬ Owns r.name "api") ∧ reg.resolve "api" = route fallbackName) ∧
      (reg.routes.reverse.Perm reg.routes ∧
        { reg with routes := reg.routes.reverse }.resolve path = reg.resolve path) ∧
      { reg with routes := route path :: reg.routes }.resolve path ≠ reg.resolve path ∧ Owns path path := by
  intro route reg path
  have hnodup : reg.names.Nodup := by decide +kernel
  have howned : ∃ r ∈ reg.routes, Owns r.name path := by decide +kernel
  have hnone : ∀ r ∈ reg.routes, ¬ Owns r.name "api" := by decide +kernel
  have hlongest : LongestOwner reg.routes path (route "/api/ü/") :=
    ⟨by decide +kernel, by decide +kernel, by decide +kernel⟩
  have hdiffers : { reg with routes := route path :: reg.routes }.resolve path ≠ reg.resolve path := by decide +kernel
  obtain ⟨hresolved, _, horder, hmore⟩ := resolve_longest reg hnodup path
  exact ⟨hnodup, ⟨howned, hlongest, (hresolved howned).2 _ hlongest⟩,
    ⟨hnone, (resolve_longest reg hnodup "api").2.1 hnone⟩,
    ⟨reg.routes.reverse_perm, horder _ reg.routes.reverse_perm⟩, hdiffers,
    hmore (route path) _ (List.Perm.refl _) hdiffers⟩

end Registry

end Throttle
