import Roster.Proofs.Time.Timestamp
import Roster.Record

/-!
# Spans on a clock

Spans from an instant grow with the clock, leap seconds apart.
-/

namespace Roster
namespace Instant

theorem le_iff {a b : Instant} : a ≤ b ↔
    a.day < b.day ∨
      a.day = b.day ∧ (a.second < b.second ∨ a.second = b.second ∧ a.nano ≤ b.nano) := by
  change (Ordering.then _ _).isLE = true ↔ _
  rw [Ordering.isLE_then_iff_or, Ordering.isLE_then_iff_or, Nat.isLE_compare, Int.compare_eq_lt,
    Int.compare_eq_eq, Nat.compare_eq_lt, Nat.compare_eq_eq]

theorem le_refl (a : Instant) : a ≤ a :=
  le_iff.mpr (by omega)

theorem le_trans {a b c : Instant} (hab : a ≤ b) (hbc : b ≤ c) : a ≤ c := by
  rw [le_iff] at hab hbc ⊢
  omega

theorem nano_lt_of_not_leap {a : Instant} (h : a.isLeapSecond = false) :
    a.nano < nanosPerSecond := by
  unfold isLeapSecond at h
  simpa using h

theorem since_eq {a t : Instant} (ha : a.isLeapSecond = false) (ht : t.isLeapSecond = false) :
    a.since t = ((a.day - t.day) * secondsPerDay + ((a.second : Int) - t.second)) * nanosPerSecond +
      ((a.nano : Int) - t.nano) := by
  have hleap : a.leapBetween t = 0 := by
    unfold leapBetween
    rw [ha, ht]
    simp
  unfold since
  rw [hleap, Int.add_zero]

theorem since_self (t : Instant) : t.since t = 0 := by
  unfold since leapBetween
  rw [if_neg (Nat.lt_irrefl _), if_neg (Nat.lt_irrefl _)]
  omega

/-- What is read of an instant is never over before the instant itself. -/
theorem since_written_le (t : Instant) : t.since t.written ≤ 0 := by
  rcases t.written_cases with ⟨_, hself⟩ | ⟨_, hnano, _, hday, hsecond, hrest⟩
  · rw [hself, since_self]
  · have hleap : t.isLeapSecond = true := decide_eq_true hnano
    have hbetween : t.leapBetween t.written = -1 := by
      unfold leapBetween
      rw [if_neg (by omega), if_pos (by omega), if_pos hleap]
    unfold since
    rw [hbetween, hday, hsecond, hrest]
    unfold nanosPerSecond at hnano ⊢
    unfold secondsPerDay
    omega

theorem since_mono {a b t : Instant} (h : a ≤ b) (ha : a.isLeapSecond = false)
    (hb : b.isLeapSecond = false) (ht : t.isLeapSecond = false) : a.since t ≤ b.since t := by
  have hsecond := a.second_lt
  have hnano := nano_lt_of_not_leap ha
  rw [since_eq ha ht, since_eq hb ht]
  rw [le_iff] at h
  unfold nanosPerSecond at hnano ⊢
  unfold secondsPerDay
  omega

end Instant

theorem Sighting.isExpired_mono {s : Sighting} {a b : Instant} {window : Int} (h : a ≤ b)
    (ha : a.isLeapSecond = false) (hb : b.isLeapSecond = false)
    (hs : s.refreshedAt.isLeapSecond = false) (hexpired : s.isExpired a window = true) :
    s.isExpired b window = true := by
  have hmono := Instant.since_mono h ha hb hs
  unfold isExpired at hexpired ⊢
  rw [decide_eq_true_iff] at hexpired ⊢
  omega

end Roster
