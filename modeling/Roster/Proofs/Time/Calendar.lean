import Mathlib.Tactic.IntervalCases
import Roster.Time.Calendar

/-!
# Days and dates

Every day number belongs to a date of the calendar, and the date leads back to it.  The year of
a day is found by a division that is checked at the two ends of each year of an era and grows
with the day in between.
-/

namespace Roster
namespace Calendar

/-!
# Years of an era
-/

theorem yearOfEraDay_mono {a b : Nat} (h : a ≤ b) : yearOfEraDay a ≤ yearOfEraDay b := by
  have hstep : forall n k : Nat,
      n - n / 1460 + n / 36524 - n / 146096 ≤
        (n + k) - (n + k) / 1460 + (n + k) / 36524 - (n + k) / 146096 := by
    intro n k
    induction k with
    | zero => exact Nat.le_refl _
    | succ k ih => omega
  obtain ⟨k, rfl⟩ := Nat.exists_eq_add_of_le h
  exact Nat.div_le_div_right (hstep a k)

theorem yearOfEraDay_yearStart : forall y : Nat, y < 400 -> yearOfEraDay (yearStart y) = y := by
  decide +kernel

theorem yearOfEraDay_before_yearStart :
    forall y : Nat, y < 400 -> yearOfEraDay (yearStart (y + 1) - 1) = y := by
  decide +kernel

theorem yearOfEraDay_lt {day : Nat} (h : day < daysPerEra) : yearOfEraDay day < 400 := by
  have hlast : yearOfEraDay 146096 = 399 := by decide
  have hle := yearOfEraDay_mono (show day ≤ 146096 by unfold daysPerEra at h; omega)
  omega

theorem yearStart_yearOfEraDay_le {day : Nat} (h : day < daysPerEra) :
    yearStart (yearOfEraDay day) ≤ day := by
  have hlt := yearOfEraDay_lt h
  generalize hy : yearOfEraDay day = y at hlt ⊢
  cases y with
  | zero => simp [yearStart]
  | succ y =>
      by_contra hday
      have hle := yearOfEraDay_mono (show day ≤ yearStart (y + 1) - 1 by omega)
      have hend := yearOfEraDay_before_yearStart y (by omega)
      omega

theorem lt_yearStart_succ_yearOfEraDay {day : Nat} (h : day < daysPerEra) (hday : day ≠ 146096) :
    day < yearStart (yearOfEraDay day + 1) := by
  have hlt := yearOfEraDay_lt h
  by_contra hge
  cases Nat.lt_or_ge (yearOfEraDay day + 1) 400 with
  | inl hyear =>
      have hle := yearOfEraDay_mono (show yearStart (yearOfEraDay day + 1) ≤ day by omega)
      have hstart := yearOfEraDay_yearStart _ hyear
      omega
  | inr hyear =>
      have hlast : yearOfEraDay day + 1 = 400 := by omega
      have hend : yearStart 400 = 146096 := by decide
      rw [hlast, hend] at hge
      unfold daysPerEra at h
      omega

/-!
# Months of a year
-/

theorem monthStart_monthOfYearDay_le (day : Nat) : monthStart (monthOfYearDay day) ≤ day := by
  unfold monthStart monthOfYearDay
  omega

theorem monthOfYearDay_lt {day : Nat} (h : day < 366) : monthOfYearDay day < 12 := by
  unfold monthOfYearDay
  omega


/-!
# Days as dates
-/

theorem yearStart_succ : forall y : Nat, y < 400 ->
    yearStart (y + 1) ≤ yearStart y + 366 ∧
      (yearStart (y + 1) = yearStart y + 366 -> isLeapYear (y + 1) = true) := by
  decide +kernel

/-- The year of the era and the day of the year of a day number, years beginning in March. -/
structure EraDay (n era : Int) (year day : Nat) : Prop where
  sum : n + epochDay = era * daysPerEra + yearStart year + day
  year_lt : year < 400
  day_lt : day < 366
  leap : day = 365 -> isLeapYear (year + 1) = true

theorem exists_eraDay (n : Int) :
    exists era year day, EraDay n era year day ∧
      ofDayNumber n =
        let month := monthOfYearDay day
        let (civil, late) := toMarch month
        { year := if late then era * 400 + year + 1 else era * 400 + year
          month := civil
          day := day - monthStart month + 1 } := by
  have hpos : 0 ≤ (n + epochDay) % daysPerEra := Int.emod_nonneg _ (by decide)
  have hlt : (n + epochDay) % daysPerEra < daysPerEra := Int.emod_lt_of_pos _ (by decide)
  have hdiv := Int.emod_add_mul_ediv (n + epochDay) daysPerEra
  obtain ⟨d, hd⟩ := Int.eq_ofNat_of_zero_le hpos
  have hd' : d < daysPerEra := by omega
  have hyear := yearOfEraDay_lt hd'
  have hstart := yearStart_yearOfEraDay_le hd'
  refine ⟨(n + epochDay) / daysPerEra, yearOfEraDay d, d - yearStart (yearOfEraDay d), ?_, ?_⟩
  · have hspan : d - yearStart (yearOfEraDay d) < 366 ∧
        (d - yearStart (yearOfEraDay d) = 365 ->
          isLeapYear ((yearOfEraDay d : Nat) + 1) = true) := by
      cases Nat.decEq d 146096 with
      | isTrue hlast =>
          rw [hlast]
          decide
      | isFalse hlast =>
          have hend := lt_yearStart_succ_yearOfEraDay hd' hlast
          have hsucc := yearStart_succ _ hyear
          refine ⟨by omega, fun h => hsucc.2 (by omega)⟩
    refine ⟨?_, hyear, hspan.1, hspan.2⟩
    rw [hd, Int.mul_comm] at hdiv
    generalize (n + epochDay) / daysPerEra * daysPerEra = e at hdiv ⊢
    omega
  · simp only [ofDayNumber, hd, Int.toNat_natCast]

theorem dayNumber_ofDayNumber (n : Int) : dayNumber (ofDayNumber n) = n := by
  obtain ⟨era, year, day, h, heq⟩ := exists_eraDay n
  have hsum := h.sum
  have hyear := h.year_lt
  have hle := monthStart_monthOfYearDay_le day
  have hmonth := monthOfYearDay_lt h.day_lt
  rw [heq]
  generalize monthOfYearDay day = month at *
  have hdiv : (era * 400 + (year : Int)) / 400 = era := by omega
  have hmod : ((era * 400 + (year : Int)) % 400).toNat = year := by omega
  have hpart : dayNumber
      (let (civil, late) := toMarch month
      { year := if late then era * 400 + year + 1 else era * 400 + year
        month := civil
        day := day - monthStart month + 1 }) =
      era * daysPerEra + (yearStart year + monthStart month + (day - monthStart month) : Nat) -
        epochDay := by
    by_cases hlate : month < 10
    · have hciv : ¬ month + 3 ≤ 2 := by omega
      simp only [toMarch, if_pos hlate, dayNumber, fromMarch, if_neg hciv, Nat.add_sub_cancel,
        Bool.false_eq_true, if_false, hdiv, hmod]
    · have hciv : month - 9 ≤ 2 := by omega
      have hback : month - 9 + 9 = month := by omega
      simp only [toMarch, if_neg hlate, dayNumber, fromMarch, if_pos hciv, Nat.add_sub_cancel,
        if_true, Int.add_sub_cancel, hback, hdiv, hmod]
  rw [hpart]
  omega

theorem isLeapYear_add_era (era : Int) (year : Nat) :
    isLeapYear (era * 400 + year) = isLeapYear year := by
  unfold isLeapYear
  have h4 : (era * 400 + (year : Int)) % 4 = year % 4 := by omega
  have h100 : (era * 400 + (year : Int)) % 100 = year % 100 := by omega
  have h400 : (era * 400 + (year : Int)) % 400 = year % 400 := by omega
  rw [h4, h100, h400]

theorem exists_ofDayNumber (n : Int) : (ofDayNumber n).Exists := by
  obtain ⟨era, year, day, h, heq⟩ := exists_eraDay n
  have hday := h.day_lt
  have hleap := h.leap
  have hmonth := monthOfYearDay_lt h.day_lt
  have hle := monthStart_monthOfYearDay_le day
  have hnext : day < monthStart (monthOfYearDay day + 1) := by
    unfold monthStart monthOfYearDay
    omega
  rw [heq]
  generalize monthOfYearDay day = month at *
  have hera : isLeapYear (era * 400 + year + 1) = isLeapYear (year + 1) := by
    have := isLeapYear_add_era era (year + 1)
    rwa [Nat.cast_add, Nat.cast_one, ← Int.add_assoc] at this
  unfold Date.Exists daysInMonth
  unfold monthStart at *
  by_cases hlate : month = 11
  · subst hlate
    have hlast : day < 366 := hday
    simp only [toMarch]
    norm_num at hle ⊢
    rw [hera]
    split
    · omega
    · rename_i hcommon
      have hnot : day ≠ 365 := fun h => hcommon (hleap h)
      omega
  · interval_cases month <;> simp [toMarch] at hle hnext hlate ⊢ <;> omega

theorem daysInMonth_le (year : Int) (month : Nat) : daysInMonth year month ≤ 31 := by
  unfold daysInMonth
  split
  · split <;> decide
  · split <;> decide

/-!
# First and last year
-/

theorem yearStart_mono {a b : Nat} (h : a ≤ b) : yearStart a ≤ yearStart b := by
  obtain ⟨k, rfl⟩ := Nat.exists_eq_add_of_le h
  induction k with
  | zero => exact Nat.le_refl _
  | succ k ih =>
      have hle := ih (by omega)
      unfold yearStart at *
      omega

theorem year_ofDayNumber_bounds {n : Int} (hfirst : -96465292 ≤ n) (hlast : n ≤ 95026236) :
    -262143 ≤ (ofDayNumber n).year ∧ (ofDayNumber n).year ≤ 262142 := by
  obtain ⟨era, year, day, h, heq⟩ := exists_eraDay n
  have hsum := h.sum
  have hyear := h.year_lt
  have hday := h.day_lt
  have hmonth : monthOfYearDay day = (5 * day + 2) / 153 := rfl
  have hlong : yearStart year ≤ yearStart 399 := yearStart_mono (by omega)
  rw [show yearStart 399 = 145731 by decide] at hlong
  rw [heq]
  generalize monthOfYearDay day = month at *
  unfold epochDay daysPerEra at hsum
  -- the calendar begins on day 306 of year -262144 and ends on day 305 of year 262142
  have hlow : -262144 ≤ era * 400 + year ∧ (era * 400 + (year : Int) = -262144 -> 306 ≤ day) := by
    have hbefore : year ≤ 255 -> yearStart year ≤ 93136 := fun h => yearStart_mono h
    have hat : year = 256 -> yearStart year = 93502 := fun h => by rw [h]; decide
    omega
  have hhigh : era * 400 + year ≤ 262142 ∧ (era * 400 + (year : Int) = 262142 -> day ≤ 305) := by
    have hafter : 143 ≤ year -> 52229 ≤ yearStart year := fun h => yearStart_mono h
    have hat : year = 142 -> yearStart year = 51864 := fun h => by rw [h]; decide
    omega
  by_cases hlate : month < 10
  · simp only [toMarch, if_pos hlate]
    norm_num
    omega
  · simp only [toMarch, if_neg hlate]
    norm_num
    omega
end Calendar
end Roster
