import Mathlib.Algebra.BigOperators.Group.Finset.Basic
import Mathlib.Algebra.BigOperators.Group.Finset.Piecewise
import Mathlib.Data.UInt
import Throttle.Proofs.Registry.Lookup

/-!
# What all routes handled

The counters of all routes add up key by key, as long as every route has a name of its own. An update
that counts one request adds one to the sum, and a new configuration that drops no route leaves it as
it is: main statements `sum_handled_update` and `sum_handled_reconcile`.
-/

set_option autoImplicit false

namespace Throttle

/-- The requests that the route counted, modulo 2^64. -/
def Route.handled (r : Route) : UInt64 := r.admitted + r.rejected

@[simp] theorem Route.handled_ofPolicy (name : String) (policy : Policy) : (ofPolicy name policy).handled = 0 := rfl

@[simp] theorem Route.handled_retune (r : Route) (now : Instant) (policy : Policy) :
    (r.retune now policy).handled = r.handled := rfl

namespace Registry

variable {reg : Registry}

/-- The keys of all routes. -/
def keys (reg : Registry) : Finset (Option String) := insert none (reg.names.map some).toFinset

def handledBy (reg : Registry) (key : Option String) : UInt64 := ((reg.get? key).map Route.handled).getD 0

theorem mem_keys_iff {key : Option String} : key ∈ reg.keys ↔ (reg.get? key).isSome = true := by
  cases key with
  | none => simp [keys, get?]
  | some name =>
    rw [get?_isSome_iff]
    simp [keys]

theorem handledBy_of_not_mem {key : Option String} (h : key ∉ reg.keys) : reg.handledBy key = 0 := by
  rw [mem_keys_iff, Option.not_isSome_iff_eq_none] at h
  simp [handledBy, h]

theorem sum_handled_eq (hnodup : reg.names.Nodup) :
    (reg.all.map Route.handled).sum = ∑ key ∈ reg.keys, reg.handledBy key := by
  have hsome : (reg.names.map some).Nodup := hnodup.map (Option.some_injective String)
  have hroutes : (reg.names.map some).map reg.handledBy = reg.routes.map Route.handled := by
    unfold names
    rw [List.map_map, List.map_map]
    apply List.map_congr_left
    intro r hmem
    have hfound : reg.get? (some r.name) = some r := find?_name hnodup hmem
    simp [handledBy, hfound]
  have hfallback : reg.handledBy none = reg.fallback.handled := rfl
  unfold keys all
  rw [Finset.sum_insert (by simp), List.sum_toFinset _ hsome, hroutes, hfallback, List.map_append, List.sum_append]
  simp [add_comm]

/-! ## Updates -/

theorem keys_update (path : String) {change : Route → Route} (hname : ∀ r, (change r).name = r.name) :
    (reg.update path change).keys = reg.keys := by
  unfold keys
  rw [reg.names_update path hname]

theorem sum_handled_update (hnodup : reg.names.Nodup) (path : String) {change : Route → Route}
    (hname : ∀ r, (change r).name = r.name) (hcount : ∀ r, (change r).handled = r.handled + 1) :
    ((reg.update path change).all.map Route.handled).sum = (reg.all.map Route.handled).sum + 1 := by
  have howner := get?_keyOf hnodup path
  have hkey : reg.keyOf path ∈ reg.keys := by simp [mem_keys_iff, howner]
  have hstep : ∀ key, (reg.update path change).handledBy key =
      reg.handledBy key + if key = reg.keyOf path then 1 else 0 := by
    intro key
    unfold handledBy
    rw [reg.get?_update path hname]
    by_cases h : key = reg.keyOf path
    · simp [h, howner, hcount]
    · simp [h]
  rw [sum_handled_eq (by rwa [reg.names_update path hname]), sum_handled_eq hnodup, keys_update path hname]
  simp [hstep, Finset.sum_add_distrib, hkey]

/-! ## New configurations -/

/-- A route that comes in has counted nothing. -/
theorem sum_handled_reconcile (hnodup : reg.names.Nodup) (now : Instant) (config : Config)
    (hkept : reg.names ⊆ config.routes.routes) :
    ((reg.reconcile now config).all.map Route.handled).sum = (reg.all.map Route.handled).sum := by
  have hkeys : reg.keys ⊆ (reg.reconcile now config).keys := by
    unfold keys
    rw [names_reconcile]
    apply Finset.insert_subset_insert
    intro key hmem
    simp only [List.mem_toFinset, List.mem_map] at hmem ⊢
    obtain ⟨name, hname, rfl⟩ := hmem
    exact ⟨name, hkept hname, rfl⟩
  have hsame : ∀ key ∈ (reg.reconcile now config).keys, (reg.reconcile now config).handledBy key = reg.handledBy key := by
    intro key hmem
    rw [mem_keys_iff, get?_reconcile] at hmem
    unfold handledBy
    rw [get?_reconcile]
    cases hpolicy : config.policy? key with
    | none => simp [hpolicy] at hmem
    | some policy => cases reg.get? key <;> simp
  rw [sum_handled_eq (by simpa using nodup_routes config), sum_handled_eq hnodup, Finset.sum_congr rfl hsame]
  exact (Finset.sum_subset hkeys fun key _ hnot => handledBy_of_not_mem hnot).symm

end Registry

end Throttle
