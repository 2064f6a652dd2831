/-!
# The Gregorian calendar

Days are numbered from 1970-01-01.  The conversion counts years from March, so that the leap
day is the last of its year, and eras of 400 such years, which all have 146097 days; inside an
era everything is a natural number.
-/

namespace Roster
namespace Calendar

structure Date where
  year : Int
  month : Nat
  day : Nat
deriving Repr, DecidableEq

/-! # Validity -/

def isLeapYear (year : Int) : Bool :=
  year % 4 == 0 && (year % 100 != 0 || year % 400 == 0)

def daysInMonth (year : Int) (month : Nat) : Nat :=
  if month = 2 then
    if isLeapYear year then 29 else 28
  else if month = 4 ∨ month = 6 ∨ month = 9 ∨ month = 11 then 30
  else 31

namespace Date

def Exists (d : Date) : Prop :=
  1 ≤ d.month ∧ d.month ≤ 12 ∧ 1 ≤ d.day ∧ d.day ≤ daysInMonth d.year d.month

instance (d : Date) : Decidable d.Exists :=
  inferInstanceAs (Decidable (_ ∧ _ ∧ _ ∧ _))

end Date

/-! # Inside an era -/

def daysPerEra : Nat := 146097

def yearStart (year : Nat) : Nat :=
  365 * year + year / 4 - year / 100

/-- The year of the era that a day of the era falls into. -/
def yearOfEraDay (day : Nat) : Nat :=
  (day - day / 1460 + day / 36524 - day / 146096) / 365

/-- First day of a month in a year that begins in March; March is month zero. -/
def monthStart (month : Nat) : Nat :=
  (153 * month + 2) / 5

def monthOfYearDay (day : Nat) : Nat :=
  (5 * day + 2) / 153

/-! # Day numbers -/

def epochDay : Nat := 719468

/-- Months counted from March, and whether the month belongs to the year before. -/
def fromMarch (month : Nat) : Nat × Bool :=
  if month ≤ 2 then (month + 9, true) else (month - 3, false)

def toMarch (month : Nat) : Nat × Bool :=
  if month < 10 then (month + 3, false) else (month - 9, true)

def dayNumber (d : Date) : Int :=
  let (month, early) := fromMarch d.month
  let year := if early then d.year - 1 else d.year
  let day := yearStart (year % 400).toNat + monthStart month + (d.day - 1)
  year / 400 * daysPerEra + day - epochDay

def ofDayNumber (n : Int) : Date :=
  let shifted := n + epochDay
  let era := shifted / daysPerEra
  let day := (shifted % daysPerEra).toNat
  let year := yearOfEraDay day
  let yearDay := day - yearStart year
  let month := monthOfYearDay yearDay
  let (civil, late) := toMarch month
  let first := era * 400 + year
  { year := if late then first + 1 else first
    month := civil
    day := yearDay - monthStart month + 1 }

end Calendar
end Roster
