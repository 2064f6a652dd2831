import Roster.Time.Calendar

/-!
# Instants

An instant is a day, a second of that day, and a nanosecond.  A leap second is nanoseconds past
`10 ^ 9` in the second before it, so that every second of a day keeps its number; that second need
not be the last one of a minute.  Days are limited to the years from -262143 to 262142; arithmetic
that leaves this range has no answer.

Spans between instants are whole numbers of nanoseconds.
-/

namespace Roster

namespace Calendar

def firstDay : Int := -96465292

def lastDay : Int := 95026236

end Calendar

structure Instant where
  day : Int
  second : Nat
  nano : Nat
  firstDay_le : Calendar.firstDay ≤ day
  le_lastDay : day ≤ Calendar.lastDay
  second_lt : second < 86400
  nano_lt : nano < 2000000000
deriving DecidableEq

namespace Instant

def nanosPerSecond : Nat := 1000000000

def secondsPerDay : Nat := 86400

def ofParts? (day : Int) (second nano : Nat) : Option Instant :=
  if h : Calendar.firstDay ≤ day ∧ day ≤ Calendar.lastDay ∧ second < 86400 ∧
      nano < 2000000000 then
    some ⟨day, second, nano, h.1, h.2.1, h.2.2.1, h.2.2.2⟩
  else none

def epoch : Instant where
  day := 0
  second := 0
  nano := 0
  firstDay_le := by decide
  le_lastDay := by decide
  second_lt := by decide
  nano_lt := by decide

instance : Inhabited Instant :=
  ⟨epoch⟩

def isLeapSecond (t : Instant) : Bool :=
  nanosPerSecond ≤ t.nano

/-! # Order -/

instance : Ord Instant where
  compare s t :=
    (compare s.day t.day).then ((compare s.second t.second).then (compare s.nano t.nano))

instance : LT Instant := ltOfOrd

instance : LE Instant := leOfOrd

/-! # Milliseconds -/

def millis (t : Instant) : Int :=
  (t.day * secondsPerDay + t.second) * 1000 + (t.nano / 1000000 : Nat)

def ofMillis? (ms : Int) : Option Instant :=
  let inDay := (ms % 86400000).toNat
  ofParts? (ms / 86400000) (inDay / 1000) (inDay % 1000 * 1000000)

/-! # Moving by a span -/

/-- Moves by whole seconds and a fraction, neither of them crossing a leap second. -/
def shift? (day : Int) (second nano seconds nanos : Int) : Option Instant :=
  let total := nano + nanos
  let second := second + seconds + total / nanosPerSecond
  ofParts? (day + second / secondsPerDay) (second % secondsPerDay).toNat
    (total % nanosPerSecond).toNat

/-- The instant `span` nanoseconds later.  From inside a leap second, a whole second or more
backwards first steps to the second after it, anything that reaches its end leaves it as an
ordinary second, and a smaller move stays with it. -/
def add? (t : Instant) (span : Int) : Option Instant :=
  let seconds := span.tdiv nanosPerSecond
  let nanos := span.tmod nanosPerSecond
  if t.isLeapSecond then
    if 0 < seconds ∨ (0 < nanos ∧ 2 * (nanosPerSecond : Int) - nanos ≤ t.nano) then
      shift? t.day t.second (t.nano - nanosPerSecond) seconds nanos
    else if seconds < 0 then
      shift? t.day (t.second + 1) (t.nano - nanosPerSecond) seconds nanos
    else ofParts? t.day t.second (t.nano + nanos).toNat
  else shift? t.day t.second t.nano seconds nanos

def addMillis? (t : Instant) (ms : Int) : Option Instant :=
  t.add? (ms * 1000000)

/-! # The span between two instants -/

/-- Extra second for a leap second that lies between two seconds of a day. -/
def leapBetween (s t : Instant) : Int :=
  if t.second < s.second then
    if t.isLeapSecond then 1 else 0
  else if s.second < t.second then
    if s.isLeapSecond then -1 else 0
  else 0

def since (s t : Instant) : Int :=
  ((s.day - t.day) * secondsPerDay + ((s.second : Int) - t.second) + leapBetween s t) *
      nanosPerSecond + ((s.nano : Int) - t.nano)

end Instant
end Roster
