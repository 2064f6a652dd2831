import Mathlib.Algebra.Order.Ring.Nat
import Roster.Backoff

/-!
# Bounds of a backoff delay

A delay is its step and a jitter of whole milliseconds up to the first step.  Multiplication stops at
the longest duration there is, but the cap is below that, so the step is what unbounded arithmetic
gives; and two periods of a configuration are far from the longest duration, so their sum exists.
-/

namespace Roster
namespace Duration

theorem eq_of_nanos {a b : Duration} (h : a.nanos = b.nanos) : a = b := by
  rcases a with ⟨nanos⟩
  rcases b with ⟨_⟩
  exact congrArg mk h

theorem nanos_min (a b : Duration) : (a.min b).nanos = Nat.min a.nanos b.nanos := by
  unfold Duration.min
  split
  · exact (Nat.min_eq_left ‹_›).symm
  · exact (Nat.min_eq_right (Nat.le_of_not_le ‹_›)).symm

theorem millis_ofMillis (n : Nat) : (ofMillis n).millis = n :=
  Nat.mul_div_cancel n (by decide)

theorem ofMillis_mono {a b : Nat} (h : a ≤ b) : (ofMillis a).nanos ≤ (ofMillis b).nanos :=
  Nat.mul_le_mul_right _ h

theorem ofMillis_add (a b : Nat) :
    (ofMillis (a + b)).nanos = (ofMillis a).nanos + (ofMillis b).nanos :=
  Nat.add_mul _ _ _

theorem add?_ofMillis {a b : Nat} (ha : a < 2 ^ 64) (hb : b < 2 ^ 64) :
    (ofMillis a).add? (ofMillis b) = some (ofMillis (a + b)) := by
  unfold add? ofMillis
  rw [if_pos]
  · rw [Nat.add_mul]
  · unfold limit nanosPerSecond nanosPerMilli
    dsimp only
    omega

end Duration

namespace Backoff

/-!
# Steps
-/

def stepMillis (attempt base cap : Nat) : Nat :=
  min (base * 2 ^ min (max attempt 1 - 1) 16) cap

/-- The cap hides where the multiplication stops. -/
theorem step_ofMillis (attempt base : Nat) {cap : Nat} (hcap : cap < 2 ^ 64) :
    step attempt (.ofMillis base) (.ofMillis cap) = .ofMillis (stepMillis attempt base cap) := by
  have hlimit : (Duration.ofMillis cap).nanos ≤ Duration.limit.nanos := by
    unfold Duration.ofMillis Duration.limit Duration.nanosPerSecond Duration.nanosPerMilli
    dsimp only
    omega
  have hattempt : attempt - 1 = max attempt 1 - 1 := by omega
  have hscaled : base * Duration.nanosPerMilli * 2 ^ min (attempt - 1) 16 =
      base * 2 ^ min (attempt - 1) 16 * Duration.nanosPerMilli := Nat.mul_right_comm _ _ _
  refine Duration.eq_of_nanos ?_
  calc (step attempt (.ofMillis base) (.ofMillis cap)).nanos
      = min (min (base * Duration.nanosPerMilli * 2 ^ min (attempt - 1) 16) Duration.limit.nanos)
          (Duration.ofMillis cap).nanos := by
        unfold step Duration.scale
        rw [Duration.nanos_min, Duration.nanos_min, Nat.one_shiftLeft]
        rfl
    _ = min (base * 2 ^ min (attempt - 1) 16 * Duration.nanosPerMilli)
          (cap * Duration.nanosPerMilli) := by
        rw [Nat.min_assoc, Nat.min_eq_right hlimit, hscaled]
        rfl
    _ = stepMillis attempt base cap * Duration.nanosPerMilli := by
        unfold stepMillis
        rw [Nat.mul_min_mul_right, ← hattempt]

theorem stepMillis_le (attempt base cap : Nat) : stepMillis attempt base cap ≤ cap :=
  Nat.min_le_right _ _

theorem stepMillis_mono {attempt attempt' : Nat} (h : attempt ≤ attempt') (base cap : Nat) :
    stepMillis attempt base cap ≤ stepMillis attempt' base cap := by
  have hdoublings : min (max attempt 1 - 1) 16 ≤ min (max attempt' 1 - 1) 16 := by omega
  have hpower := Nat.pow_le_pow_right (by decide : 0 < 2) hdoublings
  exact min_le_min_right cap (Nat.mul_le_mul_left base hpower)

theorem stepMillis_zero (attempt cap : Nat) : stepMillis attempt 0 cap = 0 := by
  unfold stepMillis
  rw [Nat.zero_mul, Nat.zero_min]

/-- After the seventeenth attempt the step no longer doubles. -/
theorem stepMillis_min (attempt base cap : Nat) :
    stepMillis (min attempt 17) base cap = stepMillis attempt base cap := by
  have hdoublings : min (max (min attempt 17) 1 - 1) 16 = min (max attempt 1 - 1) 16 := by omega
  unfold stepMillis
  rw [hdoublings]

/-!
# Jitter
-/

theorem draw_lt {range : Nat} (hrange : 0 < range) (words : List UInt64) :
    (draw range words).1 < range := by
  induction words with
  | nil => exact hrange
  | cons w rest ih =>
      unfold draw
      dsimp only
      split
      · refine Nat.div_lt_of_lt_mul ?_
        exact Nat.mul_lt_mul_of_pos_right w.toNat_lt hrange
      · exact ih

theorem jitter_le (bound : Nat) (words : List UInt64) : (jitter bound words).1 ≤ bound := by
  unfold jitter
  split
  · exact Nat.zero_le _
  · split
    · -- All words are outcomes.
      rename_i hfull
      have hword := (words.headD 0).toNat_lt
      unfold wordRange at hfull
      dsimp only
      omega
    · exact Nat.le_of_lt_succ (draw_lt (Nat.succ_pos bound) words)

/-!
# Delays
-/

theorem delay?_eq {attempt : Nat} {base cap : Duration} {words : List UInt64} {millis used : Nat}
    (h : jitter (base.millis % wordRange) words = (millis, used)) :
    delay? attempt base cap words =
      ((step attempt base cap).add? (.ofMillis millis)).map fun duration => ⟨duration, used⟩ := by
  unfold delay?
  rw [h]
  dsimp only
  cases (step attempt base cap).add? (.ofMillis millis) with
  | none => rfl
  | some duration => rfl

theorem delay?_ofMillis (attempt : Nat) {base cap : Nat} (hbase : base < 2 ^ 64)
    (hcap : cap < 2 ^ 64) (words : List UInt64) :
    delay? attempt (.ofMillis base) (.ofMillis cap) words =
      some ⟨.ofMillis (stepMillis attempt base cap + (jitter base words).1),
        (jitter base words).2⟩ := by
  have hstep := Nat.lt_of_le_of_lt (stepMillis_le attempt base cap) hcap
  have hjitter := Nat.lt_of_le_of_lt (jitter_le base words) hbase
  have hdrawn : jitter ((Duration.ofMillis base).millis % wordRange) words =
      ((jitter base words).1, (jitter base words).2) := by
    have hwhole : base % wordRange = base := Nat.mod_eq_of_lt hbase
    rw [Duration.millis_ofMillis, hwhole]
  rw [delay?_eq hdrawn, step_ofMillis attempt base hcap, Duration.add?_ofMillis hstep hjitter,
    Option.map_some]

/-- Any two periods that 64-bit numbers of milliseconds give make a delay after every attempt,
whatever words are drawn.  It is a step, which grows up to the seventeenth attempt but not beyond the
cap, and whole milliseconds of jitter, at most the first step.  Without a first step there is neither a
delay nor a draw. -/
theorem delay_bounded (base cap : UInt64) :
    let first : Duration := .ofMillis base.toNat
    let most : Duration := .ofMillis cap.toNat
    (forall (attempt : Nat) (words : List UInt64), exists delay jitter,
      delay? attempt first most words = some delay ∧
        (step attempt first most).nanos ≤ delay.duration.nanos ∧
        delay.duration.nanos ≤ (step attempt first most).nanos + first.nanos ∧
        delay.duration.nanos =
          (step attempt first most).nanos + (Duration.ofMillis jitter).nanos ∧
        jitter ≤ base.toNat ∧
        (base = 0 -> delay.duration.nanos = 0 ∧ delay.wordsUsed = 0)) ∧
      (forall attempt, step attempt first most =
        .ofMillis (min (base.toNat * 2 ^ min (max attempt 1 - 1) 16) cap.toNat)) ∧
      (Monotone fun attempt => (step attempt first most).nanos) ∧
      (forall attempt, step (min attempt 17) first most = step attempt first most) ∧
      forall attempt, (step attempt first most).nanos ≤ most.nanos := by
  have hstep (attempt : Nat) := step_ofMillis attempt base.toNat cap.toNat_lt
  refine ⟨fun attempt words => ?_, hstep, fun attempt attempt' h => ?_, fun attempt => ?_,
    fun attempt => ?_⟩
  · have hjitter := jitter_le base.toNat words
    refine ⟨_, (jitter base.toNat words).1, delay?_ofMillis attempt base.toNat_lt cap.toNat_lt words,
      ?_, ?_, ?_, hjitter, ?_⟩
    · rw [hstep, Duration.ofMillis_add]
      exact Nat.le_add_right _ _
    · rw [hstep, Duration.ofMillis_add]
      exact Nat.add_le_add_left (Duration.ofMillis_mono hjitter) _
    · rw [hstep, Duration.ofMillis_add]
    · rintro rfl
      change (Duration.ofMillis (stepMillis attempt 0 cap.toNat + 0)).nanos = 0 ∧ 0 = 0
      rw [stepMillis_zero]
      exact ⟨rfl, rfl⟩
  · dsimp only
    rw [hstep, hstep]
    exact Duration.ofMillis_mono (stepMillis_mono h base.toNat cap.toNat)
  · rw [hstep, hstep, stepMillis_min]
  · rw [hstep]
    exact Duration.ofMillis_mono (stepMillis_le attempt base.toNat cap.toNat)

end Backoff
end Roster
