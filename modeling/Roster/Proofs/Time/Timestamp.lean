import Roster.Proofs.Text.Digits
import Roster.Proofs.Time.Calendar
import Roster.Time.Timestamp

/-!
# Reading timestamps back

The reader of timestamps is more lenient than the writer, so the written form is followed field
by field: each field is read whole, because what comes after it is no digit or because the field
is full.
-/

namespace Roster
namespace Timestamp
open Text

/-!
# Numbers and fields
-/

theorem number_append {limit : Option Nat} {ds rest : List Char}
    (hsplit : leadingDigits limit (ds ++ rest) = (ds, rest)) (hne : ds ≠ [])
    (hvalue : value ds ≤ fieldLimit) :
    number limit (ds ++ rest) = .ok (value ds, rest) := by
  cases ds with
  | nil => exact absurd rfl hne
  | cons c ds =>
      unfold number
      rw [hsplit]
      simp only [List.cons_append, if_pos hvalue]

theorem number_padded {w n : Nat} (hw : 0 < w) (hlt : n < 10 ^ w) (hlimit : n ≤ fieldLimit)
    (rest : List Char) : number (some w) (padded w n ++ rest) = .ok (n, rest) := by
  have hlen := length_padded_of_lt hlt
  have hsplit : leadingDigits (some w) (padded w n ++ rest) = (padded w n, rest) :=
    leadingDigits_append (some w) (allDigits_padded w n)
      (fun k hk => by cases hk; exact Nat.le_of_eq hlen) (Or.inl (by rw [hlen]))
  have hnum := number_append hsplit (padded_ne_nil hw n) (by rwa [value_padded])
  rwa [value_padded] at hnum

theorem field_padded {lo hi n : Nat} (hlo : lo ≤ n) (hhi : n ≤ hi) (hlt : n < 100)
    (rest : List Char) : field lo hi (padded 2 n ++ rest) = .ok (n, rest) := by
  have hnum := number_padded (w := 2) (by decide) hlt (by unfold fieldLimit; omega) rest
  have htrim := trimStart_append_of_allDigits (allDigits_padded 2 n)
    (padded_ne_nil (by decide) n) rest
  simp [field, htrim, hnum, bind, Except.bind, hlo, hhi, pure, Except.pure]

theorem separator_cons (sep : Char) (h : isBlank sep = false) (rest : List Char) :
    separator sep (sep :: rest) = .ok rest := by
  simp [separator, trimStart, h]

/-!
# Years

A year without a sign has four digits; a sign goes before any other.
-/

theorem year_of_allDigits {ds : List Char} (h : AllDigits ds) (hne : ds ≠ [])
    (rest : List Char) :
    year (ds ++ rest) = (number (some 4) (ds ++ rest)).map fun (n, r) => ((n : Int), r) := by
  cases ds with
  | nil => exact absurd rfl hne
  | cons c ds =>
      have hdigit := h c List.mem_cons_self
      have hminus : c ≠ '-' := by
        intro hc
        rw [hc] at hdigit
        exact absurd hdigit (by decide)
      have hplus : c ≠ '+' := by
        intro hc
        rw [hc] at hdigit
        exact absurd hdigit (by decide)
      unfold year
      rw [trimStart_append_of_allDigits h hne, List.cons_append]
      split
      · rename_i heq
        injection heq with hc _
        exact absurd hc hminus
      · rename_i heq
        injection heq with hc _
        exact absurd hc hplus
      · rfl

theorem year_yearText {y : Int} (h : y.natAbs ≤ fieldLimit) {rest : List Char}
    (hrest : forall c, rest.head? = some c -> isDigit c = false) :
    year (yearText y ++ rest) = .ok (y, rest) := by
  have hdigits := allDigits_padded 4 y.natAbs
  have hne := padded_ne_nil (w := 4) (by decide) y.natAbs
  have hsigned : number none (padded 4 y.natAbs ++ rest) = .ok (y.natAbs, rest) := by
    have hsplit := leadingDigits_append none hdigits (fun k hk => by cases hk) (Or.inr hrest)
    have hnum := number_append hsplit hne (by rwa [value_padded])
    rwa [value_padded] at hnum
  unfold yearText
  by_cases hshort : 0 ≤ y ∧ y ≤ 9999
  · have hnat : y.toNat = y.natAbs := by omega
    have hnum := number_padded (w := 4) (n := y.natAbs) (by decide) (by omega) h rest
    rw [if_pos hshort, hnat, year_of_allDigits hdigits hne, hnum]
    simp only [Except.map, Except.ok.injEq, Prod.mk.injEq, and_true]
    omega
  · rw [if_neg hshort]
    by_cases hneg : y < 0
    · have htrim : trimStart ('-' :: (padded 4 y.natAbs ++ rest)) =
          '-' :: (padded 4 y.natAbs ++ rest) := by
        simp [trimStart, isBlank]
      rw [if_pos hneg, List.cons_append]
      unfold year
      rw [htrim]
      simp only [hsigned, Except.map, Except.ok.injEq, Prod.mk.injEq, and_true]
      omega
    · have htrim : trimStart ('+' :: (padded 4 y.natAbs ++ rest)) =
          '+' :: (padded 4 y.natAbs ++ rest) := by
        simp [trimStart, isBlank]
      rw [if_neg hneg, List.cons_append]
      unfold year
      rw [htrim]
      simp only [hsigned, Except.map, Except.ok.injEq, Prod.mk.injEq, and_true]
      omega

/-!
# Fractions
-/

theorem fraction_lowDigits {w n : Nat} (hw : 0 < w) (hw9 : w ≤ 9) (hlt : n < 10 ^ w)
    {rest : List Char} (hrest : forall c, rest.head? = some c -> isDigit c = false) :
    fraction ('.' :: (lowDigits w n ++ rest)) = .ok (n * 10 ^ (9 - w), rest) := by
  have hlen := length_lowDigits w n
  have hne : lowDigits w n ≠ [] := by
    intro h
    rw [h] at hlen
    simp at hlen
    omega
  have hvalue : value (lowDigits w n) = n := by
    rw [value_lowDigits, Nat.mod_eq_of_lt hlt]
  have hpow : 10 ^ w ≤ 10 ^ 9 := Nat.pow_le_pow_right (by decide) hw9
  have hsplit := leadingDigits_append (some 9) (allDigits_lowDigits w n)
    (fun k hk => by cases hk; omega) (Or.inr hrest)
  have hnum := number_append hsplit hne (by rw [hvalue]; unfold fieldLimit; omega)
  have hdrop : rest.dropWhile isDigit = rest := by
    cases rest with
    | nil => rfl
    | cons c rest => simp [hrest c rfl]
  simp [fraction, hnum, hvalue, hlen, hdrop, bind, Except.bind, pure, Except.pure]

theorem fraction_fractionText {nano : Nat} (h : nano < 1000000000) {rest : List Char}
    (hrest : forall c, rest.head? = some c -> isDigit c = false ∧ c ≠ '.') :
    fraction (fractionText nano ++ rest) = .ok (nano, rest) := by
  have hstop : forall c, rest.head? = some c -> isDigit c = false := fun c hc => (hrest c hc).1
  unfold fractionText
  split
  · rename_i hzero
    rw [hzero, List.nil_append]
    unfold fraction
    split
    · exact absurd rfl (hrest '.' rfl).2
    · rfl
  · split
    · rw [List.cons_append, fraction_lowDigits (by decide) (by decide) (by omega) hstop]
      congr 2
      omega
    · split
      · rw [List.cons_append, fraction_lowDigits (by decide) (by decide) (by omega) hstop]
        congr 2
        omega
      · rw [List.cons_append, fraction_lowDigits (by decide) (by decide) (by omega) hstop]
        simp

end Timestamp

/-!
# Leap seconds inside a minute

The text of a leap second is second 60, so only the last second of a minute is followed by one.
After any other second it is written as the next second.
-/

namespace Instant

def written (t : Instant) : Instant :=
  if h : nanosPerSecond ≤ t.nano ∧ t.second % 60 ≠ 59 then
    { t with
      second := t.second + 1
      nano := t.nano - nanosPerSecond
      second_lt := by
        have hsecond := t.second_lt
        omega
      nano_lt := Nat.lt_of_le_of_lt (Nat.sub_le _ _) t.nano_lt }
  else t

/-- A leap second has a text of its own at the end of a minute only. -/
def HasText (t : Instant) : Prop :=
  t.isLeapSecond = true → t.second % 60 = 59

instance (t : Instant) : Decidable t.HasText :=
  inferInstanceAs (Decidable (_ → _))

theorem hasText_of_not_leap {t : Instant} (h : t.isLeapSecond = false) : t.HasText := by
  intro hleap
  rw [h] at hleap
  cases hleap

theorem written_cases (t : Instant) :
    t.HasText ∧ t.written = t ∨
      ¬t.HasText ∧ nanosPerSecond ≤ t.nano ∧ t.second % 60 ≠ 59 ∧ t.written.day = t.day ∧
        t.written.second = t.second + 1 ∧ t.written.nano = t.nano - nanosPerSecond := by
  unfold HasText isLeapSecond written
  by_cases h : nanosPerSecond ≤ t.nano ∧ t.second % 60 ≠ 59
  · rw [dif_pos h]
    refine Or.inr ⟨fun hends => h.2 (hends (decide_eq_true h.1)), h.1, h.2, rfl, rfl, rfl⟩
  · rw [dif_neg h]
    refine Or.inl ⟨fun hleap => ?_, rfl⟩
    exact Classical.byContradiction fun hends => h ⟨of_decide_eq_true hleap, hends⟩

theorem written_eq_self {t : Instant} : t.written = t ↔ t.HasText := by
  rcases t.written_cases with ⟨htext, hself⟩ | ⟨htext, _, _, _, hsecond, _⟩
  · exact ⟨fun _ => htext, fun _ => hself⟩
  · refine ⟨fun hself => ?_, fun h => absurd h htext⟩
    rw [hself] at hsecond
    omega

theorem hasText_written (t : Instant) : t.written.HasText := by
  rcases t.written_cases with ⟨htext, hself⟩ | ⟨_, _, _, _, _, hnano⟩
  · rwa [hself]
  · have hlt := t.nano_lt
    apply hasText_of_not_leap
    unfold isLeapSecond
    rw [hnano]
    apply decide_eq_false
    unfold nanosPerSecond
    omega

end Instant

namespace Timestamp
open Text

theorem write_written (t : Instant) : write t.written = write t := by
  rcases t.written_cases with ⟨_, hself⟩ | ⟨_, hnano, hends, hday, hsecond, hrest⟩
  · rw [hself]
  · have hlt := t.nano_lt
    unfold Instant.nanosPerSecond at hnano hrest
    have hhour : (t.second + 1) / 3600 = t.second / 3600 := by omega
    have hminute : (t.second + 1) / 60 = t.second / 60 := by omega
    have hfield : (t.second + 1) % 60 + (t.nano - 1000000000) / 1000000000 =
        t.second % 60 + t.nano / 1000000000 := by omega
    have hfraction : (t.nano - 1000000000) % 1000000000 = t.nano % 1000000000 := by omega
    unfold write body timeText Instant.nanosPerSecond
    rw [hday, hsecond, hrest, hhour, hminute, hfield, hfraction]

/-!
# Whole timestamps
-/

theorem ofParts?_eq (t : Instant) : Instant.ofParts? t.day t.second t.nano = some t := by
  unfold Instant.ofParts?
  rw [dif_pos ⟨t.firstDay_le, t.le_lastDay, t.second_lt, t.nano_lt⟩]

theorem resolve_utc {t : Instant} (htext : t.HasText) :
    resolve (Calendar.ofDayNumber t.day) (t.second / 3600) (t.second / 60 % 60)
      (t.second % 60 + t.nano / Instant.nanosPerSecond) (t.nano % Instant.nanosPerSecond) 0 =
      .ok t := by
  have hyear := Calendar.year_ofDayNumber_bounds t.firstDay_le t.le_lastDay
  have hexists := Calendar.exists_ofDayNumber t.day
  have hsecond := t.second_lt
  have hnano := t.nano_lt
  have hleap : 1000000000 ≤ t.nano -> t.second % 60 = 59 := fun h =>
    htext (decide_eq_true h)
  have hin : yearExists (Calendar.ofDayNumber t.day).year = true := by
    simp [yearExists, hyear.1, hyear.2]
  have hparts : (if t.second % 60 + t.nano / Instant.nanosPerSecond = 60 then
        (59, t.nano % Instant.nanosPerSecond + Instant.nanosPerSecond)
      else (t.second % 60 + t.nano / Instant.nanosPerSecond, t.nano % Instant.nanosPerSecond)) =
      (t.second % 60, t.nano) := by
    unfold Instant.nanosPerSecond
    split
    · congr 1 <;> omega
    · congr 1 <;> omega
  have htotal : ((t.second / 3600 * 3600 + t.second / 60 % 60 * 60 + t.second % 60 : Nat) : Int) -
      0 * 60 = t.second := by
    omega
  unfold resolve
  simp only [hexists, hin, and_self, not_true_eq_false, if_false, hparts, bind, Except.bind,
    pure, Except.pure, Int.natAbs_zero, Nat.reduceLeDiff]
  rw [htotal, Calendar.dayNumber_ofDayNumber]
  have hday : (t.second : Int) / Instant.secondsPerDay = 0 := by
    unfold Instant.secondsPerDay
    omega
  have hrest : ((t.second : Int) % Instant.secondsPerDay).toNat = t.second := by
    unfold Instant.secondsPerDay
    omega
  rw [hday, hrest, Int.add_zero, ofParts?_eq]

theorem read_write_of_hasText {t : Instant} (htext : t.HasText) : read (write t) = .ok t := by
  have hyear := Calendar.year_ofDayNumber_bounds t.firstDay_le t.le_lastDay
  obtain ⟨hmonth, hmonth', hday, hday'⟩ := Calendar.exists_ofDayNumber t.day
  have hutc := resolve_utc htext
  have hsecond := t.second_lt
  have hnano := t.nano_lt
  have hdays : Calendar.daysInMonth (Calendar.ofDayNumber t.day).year
      (Calendar.ofDayNumber t.day).month ≤ 31 := Calendar.daysInMonth_le _ _
  have hlast : t.second % 60 + t.nano / Instant.nanosPerSecond ≤ 60 := by
    unfold Instant.nanosPerSecond
    omega
  have hfrac : t.nano % Instant.nanosPerSecond < 1000000000 := Nat.mod_lt _ (by decide)
  have hreach : yearInReach (Calendar.ofDayNumber t.day).year = true := by
    simp [yearInReach]
    omega
  have hyearRead : forall rest, year (yearText (Calendar.ofDayNumber t.day).year ++ '-' :: rest) =
      .ok ((Calendar.ofDayNumber t.day).year, '-' :: rest) := by
    intro rest
    refine year_yearText (by unfold fieldLimit; omega) ?_
    intro c hc
    cases hc
    decide
  have hfraction : fraction (fractionText (t.nano % Instant.nanosPerSecond) ++ ['Z']) =
      .ok (t.nano % Instant.nanosPerSecond, ['Z']) := by
    refine fraction_fractionText hfrac ?_
    intro c hc
    cases hc
    decide
  have hmark : forall rest, dateEnd ('T' :: rest) = .ok rest := fun rest => by simp [dateEnd]
  have hoffset : offset (trimStart ['Z']) = .ok (0, []) := by decide
  have hend : (trimStart ([] : List Char)).isEmpty = true := by decide
  unfold read write body dateText timeText
  simp only [List.append_assoc, List.cons_append, bind, Except.bind, hyearRead, hreach,
    Bool.not_true, Bool.false_eq_true, if_false, separator_cons '-' (by decide),
    separator_cons ':' (by decide), hmark,
    field_padded hmonth hmonth' (by omega), field_padded hday (by omega : _ ≤ 31) (by omega),
    field_padded (Nat.zero_le _) (by omega : t.second / 3600 ≤ 23) (by omega),
    field_padded (Nat.zero_le _) (by omega : t.second / 60 % 60 ≤ 59) (by omega),
    field_padded (Nat.zero_le _) hlast (by omega), hfraction, hoffset, hend, hutc]

/-- Every instant with a text of its own is read back from it, to the nanosecond. -/
theorem read_write (t : Instant) : read (write t) = .ok t.written := by
  rw [← write_written t]
  exact read_write_of_hasText t.hasText_written

theorem length_fractionText_le (nano : Nat) : (fractionText nano).length ≤ 10 := by
  unfold fractionText
  split
  · decide
  · split
    · simp
    · split <;> simp

theorem length_write_le (t : Instant) : (write t).length ≤ 64 := by
  have hyear := Calendar.year_ofDayNumber_bounds t.firstDay_le t.le_lastDay
  obtain ⟨_, hmonth, _, hday⟩ := Calendar.exists_ofDayNumber t.day
  have hdays : Calendar.daysInMonth (Calendar.ofDayNumber t.day).year
      (Calendar.ofDayNumber t.day).month ≤ 31 := Calendar.daysInMonth_le _ _
  have hsecond := t.second_lt
  have hnano := t.nano_lt
  have hlast : t.second % 60 + t.nano / Instant.nanosPerSecond ≤ 60 := by
    unfold Instant.nanosPerSecond
    omega
  have hyearText : (yearText (Calendar.ofDayNumber t.day).year).length ≤ 9 := by
    unfold yearText
    split
    · have hlen := length_padded_le (w := 4) (k := 8)
        (n := (Calendar.ofDayNumber t.day).year.toNat) (by decide) (by decide) (by omega)
      omega
    · have hlen := length_padded_le (w := 4) (k := 8)
        (n := (Calendar.ofDayNumber t.day).year.natAbs) (by decide) (by decide) (by omega)
      rw [List.length_cons]
      omega
  have hfield : forall n, n < 100 -> (padded 2 n).length ≤ 2 := fun n hn =>
    length_padded_le (by decide) (by decide) hn
  have hmonthText := hfield (Calendar.ofDayNumber t.day).month (by omega)
  have hdayText := hfield (Calendar.ofDayNumber t.day).day (by omega)
  have hhourText := hfield (t.second / 3600) (by omega)
  have hminuteText := hfield (t.second / 60 % 60) (by omega)
  have hsecondText := hfield _ (Nat.lt_of_le_of_lt hlast (by decide))
  have hfraction := length_fractionText_le (t.nano % Instant.nanosPerSecond)
  unfold write body dateText timeText
  simp only [List.length_append, List.length_cons, List.length_nil]
  omega

end Timestamp
end Roster
