import Roster.Proofs.Time.Elapsed
import Roster.Proofs.Time.Timestamp

/-!
# Whole milliseconds

A count of milliseconds stands for one instant, which shows no leap second; any instant outside leap
seconds is brought back from its milliseconds as far as they tell it.

Across a leap second, the count of milliseconds goes back while the clock does not.
-/

namespace Roster
namespace Instant

def floorMillis (t : Instant) : Instant where
  day := t.day
  second := t.second
  nano := t.nano / 1000000 * 1000000
  firstDay_le := t.firstDay_le
  le_lastDay := t.le_lastDay
  second_lt := t.second_lt
  nano_lt := Nat.lt_of_le_of_lt (Nat.div_mul_le_self _ _) t.nano_lt

theorem ofMillis?_millis {t : Instant} (h : t.isLeapSecond = false) :
    ofMillis? t.millis = some t.floorMillis := by
  have hnano := nano_lt_of_not_leap h
  have hlt := t.second_lt
  unfold nanosPerSecond at hnano
  have hday : t.millis / 86400000 = t.day := by
    unfold millis secondsPerDay
    omega
  have hin : (t.millis % 86400000).toNat = t.second * 1000 + t.nano / 1000000 := by
    unfold millis secondsPerDay
    omega
  have hsecond : (t.second * 1000 + t.nano / 1000000) / 1000 = t.second := by omega
  have hfraction : (t.second * 1000 + t.nano / 1000000) % 1000 * 1000000 =
      t.nano / 1000000 * 1000000 := by omega
  unfold ofMillis?
  dsimp only
  rw [hday, hin, hsecond, hfraction]
  exact Timestamp.ofParts?_eq t.floorMillis

theorem ofMillis?_eq_some {ms : Int} {t : Instant} (h : ofMillis? ms = some t) :
    t.millis = ms ∧ t.isLeapSecond = false ∧ t.nano % 1000000 = 0 := by
  unfold ofMillis? ofParts? at h
  dsimp only at h
  split at h
  · cases h
    unfold millis isLeapSecond nanosPerSecond secondsPerDay
    dsimp only
    refine ⟨by omega, decide_eq_false (by omega), by omega⟩
  · cases h

theorem exists_ofMillis? {ms : Int} (hfirst : Calendar.firstDay * 86400000 ≤ ms)
    (hlast : ms < (Calendar.lastDay + 1) * 86400000) : exists t, ofMillis? ms = some t := by
  unfold ofMillis? ofParts?
  dsimp only
  rw [dif_pos]
  · exact ⟨_, rfl⟩
  · exact ⟨by omega, by omega, by omega, by omega⟩

theorem tdiv_nanosPerSecond (n : Nat) :
    ((n : Int) * 1000000).tdiv nanosPerSecond = (n / 1000 : Nat) := by
  unfold nanosPerSecond
  rw [Int.tdiv_eq_ediv_of_nonneg (by omega)]
  omega

theorem tmod_nanosPerSecond (n : Nat) :
    ((n : Int) * 1000000).tmod nanosPerSecond = (n % 1000 * 1000000 : Nat) := by
  unfold nanosPerSecond
  rw [Int.tmod_eq_emod_of_nonneg (by omega)]
  omega

theorem addMillis?_eq {t : Instant} (hleap : t.isLeapSecond = false) (hwhole : t.nano % 1000000 = 0)
    (n : Nat) : t.addMillis? n = ofMillis? (t.millis + n) := by
  have hnano := nano_lt_of_not_leap hleap
  have hsecond := t.second_lt
  unfold nanosPerSecond at hnano
  unfold addMillis? add? shift? ofMillis?
  dsimp only
  rw [hleap, tdiv_nanosPerSecond, tmod_nanosPerSecond, if_neg Bool.false_ne_true]
  unfold millis nanosPerSecond secondsPerDay
  congr 1
  · omega
  · omega
  · omega

theorem since_eq_millis {a t : Instant} (ha : a.isLeapSecond = false) (ht : t.isLeapSecond = false)
    (hwhole : a.nano % 1000000 = 0) (hwhole' : t.nano % 1000000 = 0) :
    a.since t = (a.millis - t.millis) * 1000000 := by
  rw [since_eq ha ht]
  unfold millis nanosPerSecond secondsPerDay
  omega

/-!
# Leaving an instant behind
-/

/-- Milliseconds, with two thousand of them to each second, so that those of a leap second have a
place after the others. -/
def ticks (t : Instant) : Int :=
  (t.day * secondsPerDay + t.second) * 2000 + (t.nano / 1000000 : Nat)

theorem ticks_le {s t : Instant} (h : s ≤ t) : s.ticks ≤ t.ticks := by
  have hsecond := s.second_lt
  have hnano := s.nano_lt
  rw [le_iff] at h
  unfold ticks secondsPerDay
  omega

/-- Outside leap seconds, milliseconds do not go back with the clock. -/
theorem millis_le {s t : Instant} (hleap : s.isLeapSecond = false) (h : s ≤ t) :
    s.millis ≤ t.millis := by
  have hsecond := s.second_lt
  have hnano := nano_lt_of_not_leap hleap
  rw [le_iff] at h
  unfold nanosPerSecond at hnano
  unfold millis secondsPerDay
  omega

theorem millis_lt {s t : Instant} (hleap : s.isLeapSecond = false) (h : s.ticks < t.ticks) :
    s.millis < t.millis := by
  have hnano := nano_lt_of_not_leap hleap
  have hnano' := t.nano_lt
  unfold nanosPerSecond at hnano
  unfold ticks secondsPerDay at h
  unfold millis secondsPerDay
  omega

theorem ticks_of_ofParts? {t : Instant} {day : Int} {second nano : Nat}
    (h : ofParts? day second nano = some t) :
    t.ticks = (day * secondsPerDay + second) * 2000 + (nano / 1000000 : Nat) := by
  unfold ofParts? at h
  split at h
  · cases h
    rfl
  · cases h

theorem ticks_of_shift? {t : Instant} {day second nano seconds nanos : Int}
    (h : shift? day second nano seconds nanos = some t) :
    t.ticks = (day * secondsPerDay + second + seconds + (nano + nanos) / nanosPerSecond) * 2000 +
      (nano + nanos) % nanosPerSecond / 1000000 := by
  rw [ticks_of_ofParts? h]
  unfold nanosPerSecond secondsPerDay
  omega

/-- An instant is left behind in any number of milliseconds, also in a leap second. -/
theorem ticks_lt_of_addMillis? {s t : Instant} {n : Nat} (hn : 1 ≤ n)
    (h : s.addMillis? n = some t) : s.ticks < t.ticks := by
  have hnano := s.nano_lt
  unfold addMillis? add? at h
  dsimp only at h
  rw [tdiv_nanosPerSecond, tmod_nanosPerSecond] at h
  cases hleap : s.isLeapSecond with
  | true =>
      have hfraction := of_decide_eq_true hleap
      rw [hleap, if_pos rfl] at h
      split at h
      · rw [ticks_of_shift? h]
        unfold ticks nanosPerSecond secondsPerDay at *
        omega
      · split at h
        · omega
        · rw [ticks_of_ofParts? h]
          unfold ticks nanosPerSecond secondsPerDay at *
          omega
  | false =>
      have hfraction := nano_lt_of_not_leap hleap
      rw [hleap, if_neg Bool.false_ne_true] at h
      rw [ticks_of_shift? h]
      unfold ticks nanosPerSecond secondsPerDay at *
      omega

theorem ticks_lt_of_since {s t : Instant} (hle : s ≤ t) (h : 1000000 ≤ t.since s) :
    s.ticks < t.ticks := by
  have hsecond := s.second_lt
  have hnano := s.nano_lt
  rw [le_iff] at hle
  unfold since leapBetween nanosPerSecond secondsPerDay at h
  unfold ticks secondsPerDay
  omega

end Instant
end Roster
