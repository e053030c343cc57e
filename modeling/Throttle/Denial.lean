/-!
# Why a request was refused

The two reasons, what a client is told about each, and the table of the last refusal of every route.
Main statement: `last?_record`, a recorded refusal replaces that of its own route and no other.
-/

set_option autoImplicit false

namespace Throttle

/-! ## Reasons -/

inductive Denial where
  | exceedsBurst
  | exhausted
  deriving DecidableEq, Repr

namespace Denial

def code : Denial → Nat
  | exceedsBurst => 1
  | exhausted => 2

def name : Denial → String
  | exceedsBurst => "exceeds_burst"
  | exhausted => "exhausted"

def message : Denial → String
  | exceedsBurst => "Request cost exceeds burst; it can never be admitted"
  | exhausted => "Rate limited; try later"

def isTransient : Denial → Bool
  | exceedsBurst => false
  | exhausted => true

end Denial

/-! ## The last refusal of each route -/

structure DenialTable where
  entries : List (String × Denial)
  deriving DecidableEq

namespace DenialTable

def empty : DenialTable := ⟨[]⟩

def last? (table : DenialTable) (route : String) : Option Denial :=
  table.entries.lookup route

def record (table : DenialTable) (route : String) (reason : Denial) : DenialTable :=
  ⟨(route, reason) :: table.entries.filter (·.1 != route)⟩

/-- The name of the last reason, or a dash. -/
def describe (table : DenialTable) (route : String) : String :=
  match table.last? route with
  | some reason => reason.name
  | none => "-"

theorem lookup_filter_bne {entries : List (String × Denial)} {route other : String}
    (h : route ≠ other) :
    (entries.filter (·.1 != other)).lookup route = entries.lookup route := by
  induction entries with
  | nil => rfl
  | cons entry rest ih =>
    obtain ⟨key, reason⟩ := entry
    by_cases hkey : key = other
    · subst hkey
      have hne : (route == key) = false := by simpa using h
      simp [List.lookup_cons, hne, ih]
    · have hkeep : (key != other) = true := by simpa using hkey
      simp only [List.filter_cons, hkeep, if_true, List.lookup_cons, ih]

@[simp] theorem last?_record (table : DenialTable) (route other : String) (reason : Denial) :
    (table.record other reason).last? route =
      if route = other then some reason else table.last? route := by
  unfold record last?
  by_cases h : route = other
  · subst h
    simp
  · have hne : (route == other) = false := by simpa using h
    rw [if_neg h, List.lookup_cons, hne]
    exact lookup_filter_bne h

end DenialTable

end Throttle
