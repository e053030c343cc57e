import Throttle.Binary64.Basic

/-!
# Instants and durations

A duration is a whole number of nanoseconds below 2^64 seconds, and an instant one within 2^63
seconds of the clock's zero, before or after it. Both ranges are part of the types, so an addition
may have no result and a difference always has one.

Main statements: `nanos_since` and `add?_eq_some_iff` say what the two operations do to the
nanoseconds.
-/

set_option autoImplicit false

namespace Throttle

/-! ## Durations -/

/-- A span of time in nanoseconds. -/
structure Duration where
  nanos : Nat
  inRange : nanos < 18_446_744_073_709_551_616_000_000_000 := by decide
  deriving DecidableEq

namespace Duration

instance : LT Duration := ⟨fun d e => d.nanos < e.nanos⟩
instance : LE Duration := ⟨fun d e => d.nanos ≤ e.nanos⟩

instance (d e : Duration) : Decidable (d < e) := inferInstanceAs (Decidable (d.nanos < e.nanos))
instance (d e : Duration) : Decidable (d ≤ e) := inferInstanceAs (Decidable (d.nanos ≤ e.nanos))

theorem lt_iff {d e : Duration} : d < e ↔ d.nanos < e.nanos := Iff.rfl

theorem le_iff {d e : Duration} : d ≤ e ↔ d.nanos ≤ e.nanos := Iff.rfl

theorem ext_nanos {d e : Duration} (h : d.nanos = e.nanos) : d = e := by
  cases d
  cases e
  cases h
  rfl

def zero : Duration := { nanos := 0 }

/-- The longest duration. As a wait it means that no wait would be enough, and as a bound on a
wait that any wait will do. -/
def forever : Duration := { nanos := 18_446_744_073_709_551_615_999_999_999 }

theorem le_forever (d : Duration) : d ≤ forever :=
  Nat.le_sub_one_of_lt d.inRange

/-- A number of nanoseconds, if it is in range. -/
def ofNanos? (n : Nat) : Option Duration :=
  if h : n < 18_446_744_073_709_551_616_000_000_000 then some ⟨n, h⟩ else none

def ofWholeSeconds (s : UInt64) : Duration where
  nanos := s.toNat * 1_000_000_000
  inRange := by
    have := s.toNat_lt
    omega

def ofMillis (ms : UInt64) : Duration where
  nanos := ms.toNat * 1_000_000
  inRange := by
    have := ms.toNat_lt
    omega

def ofMicros (us : UInt64) : Duration where
  nanos := us.toNat * 1_000
  inRange := by
    have := us.toNat_lt
    omega

/-- Whole seconds. -/
def seconds (d : Duration) : Nat := d.nanos / 1_000_000_000

/-- Nanoseconds beyond the whole seconds. -/
def subsecNanos (d : Duration) : Nat := d.nanos % 1_000_000_000

/-- Whole milliseconds, the rest cut off. -/
def wholeMillis (d : Duration) : Nat := d.nanos / 1_000_000

/-- The least number of milliseconds that is no shorter. -/
def ceilMillis (d : Duration) : Nat := (d.nanos + 999_999) / 1_000_000

/-- A number of seconds: whole seconds and fraction are each rounded, and so is their sum. -/
def toSeconds (d : Duration) : Binary64 :=
  Binary64.ofNat d.seconds + Binary64.ofNat d.subsecNanos / Binary64.ofNat 1_000_000_000

/-- The whole number of nanoseconds nearest to a number of seconds, of two equally near ones the
even one; none for the not-a-number, for a negative number and out of range. -/
def ofSeconds? (x : Binary64) : Option Duration :=
  match x with
  | .nan => none
  | .infinity _ => none
  | .negZero => some zero
  | .finite q _ => if q < 0 then none else ofNanos? (nearestInt (q * 1_000_000_000)).toNat

end Duration

/-! ## Instants -/

/-- A reading of the clock in nanoseconds from its zero. -/
structure Instant where
  nanos : Int
  notBefore : -9_223_372_036_854_775_808_000_000_000 ≤ nanos := by decide
  notAfter : nanos < 9_223_372_036_854_775_808_000_000_000 := by decide
  deriving DecidableEq

namespace Instant

instance : LT Instant := ⟨fun s t => s.nanos < t.nanos⟩
instance : LE Instant := ⟨fun s t => s.nanos ≤ t.nanos⟩

instance (s t : Instant) : Decidable (s < t) := inferInstanceAs (Decidable (s.nanos < t.nanos))
instance (s t : Instant) : Decidable (s ≤ t) := inferInstanceAs (Decidable (s.nanos ≤ t.nanos))

theorem lt_iff {s t : Instant} : s < t ↔ s.nanos < t.nanos := Iff.rfl

theorem le_iff {s t : Instant} : s ≤ t ↔ s.nanos ≤ t.nanos := Iff.rfl

theorem ext_nanos {s t : Instant} (h : s.nanos = t.nanos) : s = t := by
  cases s
  cases t
  cases h
  rfl

/-- A number of nanoseconds from the clock's zero, if it is in range. -/
def ofNanos? (n : Int) : Option Instant :=
  if h : -9_223_372_036_854_775_808_000_000_000 ≤ n ∧ n < 9_223_372_036_854_775_808_000_000_000 then some ⟨n, h.1, h.2⟩ else none

/-- The earliest instant. -/
def earliest : Instant := { nanos := -9_223_372_036_854_775_808_000_000_000 }

/-- Whole seconds from the clock's zero, toward the past. -/
def seconds (t : Instant) : Int := t.nanos / 1_000_000_000

/-- Nanoseconds beyond the whole seconds. -/
def subsecNanos (t : Instant) : Nat := (t.nanos % 1_000_000_000).toNat

/-- The later of two instants. -/
protected def max (s t : Instant) : Instant := if s ≤ t then t else s

theorem le_max_left (s t : Instant) : s ≤ Instant.max s t := by
  unfold Instant.max
  split
  · assumption
  · exact Int.le_refl _

theorem le_max_right (s t : Instant) : t ≤ Instant.max s t := by
  unfold Instant.max
  split
  · exact Int.le_refl _
  · next h => exact Int.le_of_lt (Int.not_le.1 h)

/-- The instant `d` after `t`, unless the clock's range ends before. -/
def add? (t : Instant) (d : Duration) : Option Instant :=
  ofNanos? (t.nanos + d.nanos)

/-- How long `t` is after `s`; nothing if it is before. -/
def since (t s : Instant) : Duration where
  nanos := (t.nanos - s.nanos).toNat
  inRange := by
    have h1 := t.notAfter
    have h2 := s.notBefore
    omega

@[simp] theorem nanos_since (t s : Instant) : (t.since s).nanos = (t.nanos - s.nanos).toNat := rfl

theorem add?_eq_some_iff {t u : Instant} {d : Duration} :
    t.add? d = some u ↔ u.nanos = t.nanos + d.nanos := by
  unfold add? ofNanos?
  split
  · rw [Option.some.injEq]
    constructor
    · rintro rfl
      rfl
    · intro h
      exact ext_nanos h.symm
  · next h =>
    refine ⟨fun h' => by simp at h', fun h' => absurd ?_ h⟩
    rw [← h']
    exact ⟨u.notBefore, u.notAfter⟩

theorem since_of_add? {t u : Instant} {d : Duration} (h : t.add? d = some u) : u.since t = d := by
  apply Duration.ext_nanos
  rw [nanos_since, add?_eq_some_iff.1 h]
  omega

end Instant

end Throttle
