import Throttle.Bucket
import Throttle.Proofs.Limit.Conversion

/-!
# Instants of a bucket

The seconds from one instant to another as a rational, and how they run from a bucket's last update
to the instant from which it counts. The instants are in no order.
-/

set_option autoImplicit false

namespace Throttle

/-! ## Elapsed time -/

/-- The exact number of seconds from one instant to another. -/
def Instant.elapsed (s t : Instant) : ℚ := ((t.nanos - s.nanos : ℤ) : ℚ) / 1_000_000_000

@[simp] theorem Instant.elapsed_self (s : Instant) : s.elapsed s = 0 := by
  unfold elapsed
  rw [Int.sub_self, Int.cast_zero, zero_div]

theorem Instant.elapsed_add (s t u : Instant) : s.elapsed t + t.elapsed u = s.elapsed u := by
  unfold elapsed
  rw [← add_div, ← Int.cast_add]
  congr 2
  omega

theorem Instant.elapsed_of_add? {t u : Instant} {d : Duration} (h : t.add? d = some u) :
    t.elapsed u = d.exactSeconds := by
  have hnanos := Instant.add?_eq_some_iff.1 h
  unfold elapsed Duration.exactSeconds
  rw [show u.nanos - t.nanos = (d.nanos : ℤ) by omega, Int.cast_natCast]

theorem Instant.exactSeconds_since (s t : Instant) : (t.since s).exactSeconds = s.elapsed (.max s t) := by
  have hmax : (Instant.max s t).nanos - s.nanos = ((t.nanos - s.nanos).toNat : ℤ) := by
    unfold Instant.max
    split
    · next h =>
      rw [Instant.le_iff] at h
      omega
    · next h =>
      rw [Instant.le_iff] at h
      omega
  unfold elapsed Duration.exactSeconds
  rw [hmax, nanos_since, Int.cast_natCast]

/-! ## Sums of an instant and a span -/

theorem Instant.lt_of_lt_of_add? {s t u : Instant} {d : Duration} (hs : s < t) (h : t.add? d = some u) : s < u := by
  have hnanos := Instant.add?_eq_some_iff.1 h
  rw [Instant.lt_iff] at hs ⊢
  omega

theorem Instant.le_of_add? {t u : Instant} {d : Duration} (h : t.add? d = some u) : t ≤ u := by
  have hnanos := Instant.add?_eq_some_iff.1 h
  rw [Instant.le_iff]
  omega

@[simp] theorem Instant.add?_zero (t : Instant) : t.add? .zero = some t :=
  Instant.add?_eq_some_iff.2 (Int.add_zero _).symm

theorem Instant.max_eq_left {s t : Instant} (h : t ≤ s) : Instant.max s t = s := by
  unfold Instant.max
  split
  · next hle =>
    rw [Instant.le_iff] at h hle
    exact Instant.ext_nanos (by omega)
  · rfl

theorem Instant.max_eq_right {s t : Instant} (h : s ≤ t) : Instant.max s t = t := if_pos h

theorem Instant.since_of_le {s t : Instant} (h : t ≤ s) : t.since s = .zero := by
  apply Duration.ext_nanos
  rw [Instant.le_iff] at h
  show (t.nanos - s.nanos).toNat = 0
  omega

/-- Between two instants the clock knows every number of nanoseconds. -/
theorem Instant.exists_nanos_eq {s t : Instant} {n : ℤ} (hs : s.nanos ≤ n) (ht : n ≤ t.nanos) :
    ∃ u : Instant, u.nanos = n := by
  have hlow := s.notBefore
  have hhigh := t.notAfter
  exact ⟨⟨n, by omega, by omega⟩, rfl⟩

theorem Instant.add?_of_le {t due : Instant} {d : Duration} (h : t.nanos + d.nanos ≤ due.nanos) :
    ∃ u, t.add? d = some u := by
  obtain ⟨u, hu⟩ := Instant.exists_nanos_eq (show t.nanos ≤ t.nanos + d.nanos by omega) h
  exact ⟨u, Instant.add?_eq_some_iff.2 hu⟩

theorem Instant.add?_since {s t : Instant} (h : s ≤ t) : s.add? (t.since s) = some t := by
  rw [Instant.le_iff] at h
  rw [Instant.add?_eq_some_iff, Instant.nanos_since]
  omega

/-- From no instant after the earliest one is another so far that the time between them is cut off. -/
theorem Instant.since_lt_forever {s : Instant} (hs : Instant.earliest < s) (t : Instant) : t.since s < .forever := by
  have hend := t.notAfter
  have hearliest : Instant.earliest.nanos = -9_223_372_036_854_775_808_000_000_000 := rfl
  have hforever := Duration.nanos_forever
  rw [Instant.lt_iff] at hs
  rw [Duration.lt_iff, Instant.nanos_since]
  omega

/-- No wait that ends at an instant is cut off when it starts after the earliest one. -/
theorem Instant.lt_forever_of_add? {s t : Instant} {d : Duration} (hs : Instant.earliest < s)
    (h : s.add? d = some t) : d < .forever := by
  rw [← Instant.since_of_add? h]
  exact Instant.since_lt_forever hs t

/-! ## The instant from which a bucket counts -/

namespace Bucket

theorem le_base (b : Bucket) (now : Instant) : now ≤ b.base now := by
  unfold base
  split
  · exact Int.le_refl _
  · exact Instant.le_max_right _ now

theorem base_le {b : Bucket} {now t : Instant} (hnow : now ≤ t) (hlast : ∀ last, b.last = some last → last ≤ t) :
    b.base now ≤ t := by
  unfold base
  split
  · exact hnow
  · next last h =>
    unfold Instant.max
    split
    · exact hnow
    · exact hlast last h

theorem base_nanos {b : Bucket} {last : Instant} (h : b.last = some last) (now : Instant) :
    (b.base now).nanos = last.nanos + (b.idle now).nanos := by
  unfold base idle Instant.max
  rw [h]
  dsimp only
  rw [Instant.nanos_since]
  split
  · next hle =>
    rw [Instant.le_iff] at hle
    omega
  · next hle =>
    rw [Instant.le_iff] at hle
    omega

theorem idle_base (tokens : Binary64) (b : Bucket) (now : Instant) :
    (⟨tokens, some (b.base now)⟩ : Bucket).idle now = .zero :=
  Instant.since_of_le (b.le_base now)

end Bucket

end Throttle
