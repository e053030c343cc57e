/-!
# Tables of routes

One entry for each route prefix, in the order of the prefixes by code point, which is the order of
their bytes as well. Main statements: `get?_insert` says what an insertion changes, and `ext_get?`
that a table is known by its entries alone, not by the order in which they came.
-/

set_option autoImplicit false

namespace Throttle

variable {α : Type}

/-! ## Lists in order -/

/-- The first components of a list of pairs are in strictly ascending order. -/
def Ascending (entries : List (String × α)) : Prop :=
  entries.Pairwise (·.1 < ·.1)

/-- Puts an entry into its place, or in place of the one with the same prefix. -/
def insertEntry (route : String) (a : α) : List (String × α) → List (String × α)
  | [] => [(route, a)]
  | entry :: rest =>
    if route < entry.1 then (route, a) :: entry :: rest
    else if route = entry.1 then (route, a) :: rest
    else entry :: insertEntry route a rest

theorem mem_insertEntry {route : String} {a : α} {entries : List (String × α)}
    {entry : String × α} (h : entry ∈ insertEntry route a entries) :
    entry = (route, a) ∨ entry ∈ entries := by
  induction entries with
  | nil => exact Or.inl (List.mem_singleton.1 h)
  | cons first rest ih =>
    unfold insertEntry at h
    split at h
    · exact List.mem_cons.1 h
    · split at h
      · rcases List.mem_cons.1 h with rfl | h
        · exact Or.inl rfl
        · exact Or.inr (List.mem_cons_of_mem _ h)
      · rcases List.mem_cons.1 h with rfl | h
        · exact Or.inr List.mem_cons_self
        · rcases ih h with h | h
          · exact Or.inl h
          · exact Or.inr (List.mem_cons_of_mem _ h)

theorem lt_of_not_lt_of_ne {s t : String} (h : ¬ s < t) (hne : s ≠ t) : t < s := by
  rw [String.not_lt] at h
  rcases String.le_total s t with hle | hle
  · exact absurd (String.le_antisymm hle h) hne
  · apply String.not_le.1
    intro hst
    exact hne (String.le_antisymm hst hle)

theorem ascending_insertEntry {route : String} {a : α} {entries : List (String × α)}
    (h : Ascending entries) : Ascending (insertEntry route a entries) := by
  induction entries with
  | nil => exact List.pairwise_singleton _ _
  | cons first rest ih =>
    obtain ⟨hfirst, hrest⟩ := List.pairwise_cons.1 h
    unfold insertEntry
    split
    · next hlt =>
      refine List.pairwise_cons.2 ⟨fun entry hmem => ?_, h⟩
      rcases List.mem_cons.1 hmem with rfl | hmem
      · exact hlt
      · exact String.lt_trans hlt (hfirst entry hmem)
    · next hlt =>
      split
      · next heq =>
        refine List.pairwise_cons.2 ⟨fun entry hmem => ?_, hrest⟩
        rw [heq]
        exact hfirst entry hmem
      · next hne =>
        refine List.pairwise_cons.2 ⟨fun entry hmem => ?_, ih hrest⟩
        rcases mem_insertEntry hmem with rfl | hmem
        · exact lt_of_not_lt_of_ne hlt hne
        · exact hfirst entry hmem

/-! ## Tables -/

structure RouteTable (α : Type) where
  entries : List (String × α)
  ascending : Ascending entries

namespace RouteTable

instance [DecidableEq α] : DecidableEq (RouteTable α) := fun t u =>
  if h : t.entries = u.entries then
    isTrue (by cases t; cases u; cases h; rfl)
  else isFalse fun e => h (e ▸ rfl)

def empty : RouteTable α := ⟨[], List.Pairwise.nil⟩

def get? (t : RouteTable α) (route : String) : Option α :=
  t.entries.lookup route

/-- Adds an entry; an earlier one of the same prefix is lost. -/
def insert (t : RouteTable α) (route : String) (a : α) : RouteTable α :=
  ⟨insertEntry route a t.entries, ascending_insertEntry t.ascending⟩

def routes (t : RouteTable α) : List String := t.entries.map (·.1)

def size (t : RouteTable α) : Nat := t.entries.length

def ofList (entries : List (String × α)) : RouteTable α :=
  entries.foldl (fun t entry => t.insert entry.1 entry.2) empty

theorem lookup_cons_eq (route key : String) (a : α) (entries : List (String × α)) :
    ((key, a) :: entries).lookup route = if route = key then some a else entries.lookup route := by
  rw [List.lookup_cons]
  by_cases h : route = key
  · simp [h]
  · rw [if_neg h, beq_false_of_ne h]

theorem lookup_insertEntry (route other : String) (a : α) (entries : List (String × α)) :
    (insertEntry other a entries).lookup route =
      if route = other then some a else entries.lookup route := by
  induction entries with
  | nil => exact lookup_cons_eq route other a []
  | cons first rest ih =>
    obtain ⟨key, value⟩ := first
    unfold insertEntry
    split
    · exact lookup_cons_eq route other a ((key, value) :: rest)
    · split
      · next heq =>
        rw [lookup_cons_eq, lookup_cons_eq, ← show other = key from heq]
        by_cases hr : route = other
        · rw [if_pos hr, if_pos hr]
        · rw [if_neg hr, if_neg hr, if_neg hr]
      · next hne =>
        rw [lookup_cons_eq, lookup_cons_eq, ih]
        by_cases hk : route = key
        · rw [if_pos hk, if_pos hk, if_neg (by rw [hk]; exact Ne.symm hne)]
        · rw [if_neg hk, if_neg hk]

@[simp] theorem get?_insert (t : RouteTable α) (route other : String) (a : α) :
    (t.insert other a).get? route = if route = other then some a else t.get? route :=
  lookup_insertEntry route other a t.entries

theorem lookup_eq_none_of_forall_lt {route : String} {entries : List (String × α)}
    (h : ∀ entry ∈ entries, route < entry.1) : entries.lookup route = none := by
  induction entries with
  | nil => rfl
  | cons first rest ih =>
    have hne : (route == first.1) = false := by
      simpa using String.ne_of_lt (h first List.mem_cons_self)
    rw [List.lookup_cons, hne]
    exact ih fun entry hmem => h entry (List.mem_cons_of_mem _ hmem)

/-- A prefix that has an entry is not before the first of the list. -/
theorem head_le_of_lookup {key route : String} {a b : α} {rest : List (String × α)}
    (h : Ascending ((key, a) :: rest)) (hroute : ((key, a) :: rest).lookup route = some b) : key ≤ route := by
  rw [← String.not_lt]
  intro hbefore
  have hnone : ((key, a) :: rest).lookup route = none := by
    refine lookup_eq_none_of_forall_lt fun entry hmem => ?_
    rcases List.mem_cons.1 hmem with rfl | hmem
    · exact hbefore
    · exact String.lt_trans hbefore ((List.pairwise_cons.1 h).1 entry hmem)
  rw [hnone] at hroute
  cases hroute

theorem head_eq_of_lookup {entry entry' : String × α} {rest rest' : List (String × α)}
    (h : Ascending (entry :: rest)) (h' : Ascending (entry' :: rest'))
    (hsame : ∀ route, (entry :: rest).lookup route = (entry' :: rest').lookup route) : entry = entry' := by
  obtain ⟨key, a⟩ := entry
  obtain ⟨key', a'⟩ := entry'
  have hfound : ((key', a') :: rest').lookup key = some a := (hsame key).symm.trans List.lookup_cons_self
  have hfound' : ((key, a) :: rest).lookup key' = some a' := (hsame key').trans List.lookup_cons_self
  have hkey : key = key' := String.le_antisymm (head_le_of_lookup h hfound') (head_le_of_lookup h' hfound)
  subst hkey
  rw [List.lookup_cons_self] at hfound
  rw [Option.some.inj hfound]

theorem entries_eq_of_lookup {entries others : List (String × α)} (h : Ascending entries)
    (h' : Ascending others) (hsame : ∀ route, entries.lookup route = others.lookup route) :
    entries = others := by
  induction entries generalizing others with
  | nil =>
    cases others with
    | nil => rfl
    | cons first rest => exact absurd ((hsame first.1).trans List.lookup_cons_self) (by simp)
  | cons first rest ih =>
    cases others with
    | nil => exact absurd (List.lookup_cons_self.symm.trans (hsame first.1)) (by simp)
    | cons first' rest' =>
      have hfirst : first = first' := head_eq_of_lookup h h' hsame
      subst hfirst
      obtain ⟨hbefore, hrest⟩ := List.pairwise_cons.1 h
      obtain ⟨hbefore', hrest'⟩ := List.pairwise_cons.1 h'
      congr 1
      refine ih hrest hrest' fun route => ?_
      by_cases hroute : route = first.1
      · subst hroute
        rw [lookup_eq_none_of_forall_lt hbefore, lookup_eq_none_of_forall_lt hbefore']
      · have hlater := hsame route
        rwa [lookup_cons_eq, lookup_cons_eq, if_neg hroute, if_neg hroute] at hlater

theorem ext_get? {t u : RouteTable α} (h : ∀ route, t.get? route = u.get? route) : t = u := by
  have := entries_eq_of_lookup t.ascending u.ascending h
  cases t
  cases u
  cases this
  rfl

/-- Entries of different prefixes may come in either order. -/
theorem insert_comm (t : RouteTable α) {route other : String} (h : route ≠ other) (a b : α) :
    (t.insert route a).insert other b = (t.insert other b).insert route a := by
  apply ext_get?
  intro name
  simp only [get?_insert]
  by_cases hname : name = route
  · rw [if_pos hname, if_pos hname, if_neg (by rw [hname]; exact h)]
  · rw [if_neg hname, if_neg hname]

end RouteTable

end Throttle
