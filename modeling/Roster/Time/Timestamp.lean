import Roster.Text.Blank
import Roster.Text.Digits
import Roster.Time.Instant

/-!
# Timestamps

The text of an instant is its date and time of day in UTC as in RFC 3339.  Years from 0 to 9999
have four digits and other years a sign and at least four; a fraction of a second has three, six
or nine digits, the fewest that lose nothing; a leap second is second 60.

Reading is more lenient than writing: it takes blanks before numbers, short fields, a fraction
of any length, and any offset from UTC of whole minutes.
-/

namespace Roster
namespace Timestamp

open Text

/-! # Writing -/

def yearText (year : Int) : List Char :=
  if 0 ≤ year ∧ year ≤ 9999 then padded 4 year.toNat
  else (if year < 0 then '-' else '+') :: padded 4 year.natAbs

def dateText (day : Int) : List Char :=
  let date := Calendar.ofDayNumber day
  yearText date.year ++ '-' :: (padded 2 date.month ++ '-' :: padded 2 date.day)

def fractionText (nano : Nat) : List Char :=
  if nano = 0 then []
  else if nano % 1000000 = 0 then '.' :: lowDigits 3 (nano / 1000000)
  else if nano % 1000 = 0 then '.' :: lowDigits 6 (nano / 1000)
  else '.' :: lowDigits 9 nano

def timeText (second nano : Nat) : List Char :=
  padded 2 (second / 3600) ++ ':' :: (padded 2 (second / 60 % 60) ++
    ':' :: (padded 2 (second % 60 + nano / Instant.nanosPerSecond) ++
      fractionText (nano % Instant.nanosPerSecond)))

def body (t : Instant) : List Char :=
  dateText t.day ++ 'T' :: timeText t.second t.nano

def write (t : Instant) : List Char :=
  body t ++ ['Z']

def writeWithOffset (t : Instant) : List Char :=
  body t ++ "+00:00".toList

/-! # Reading -/

inductive Fault where
  | premature
  | invalid
  | outOfRange
  | impossible
  | trailing
deriving Repr, DecidableEq

namespace Fault

def message : Fault → String
  | premature => "premature end of input"
  | invalid => "input contains invalid characters"
  | outOfRange => "input is out of range"
  | impossible => "no possible date and time matching input"
  | trailing => "trailing input"

end Fault

/-- Largest number that a field can hold before its range is looked at. -/
def fieldLimit : Nat := 9223372036854775807

def number (limit : Option Nat) (cs : List Char) : Except Fault (Nat × List Char) :=
  match cs, leadingDigits limit cs with
  | [], _ => .error .premature
  | _, ([], _) => .error .invalid
  | _, (digits, rest) =>
      if value digits ≤ fieldLimit then .ok (value digits, rest) else .error .outOfRange

/-- A year of four digits, or of any number of digits after a sign. -/
def year (cs : List Char) : Except Fault (Int × List Char) :=
  match trimStart cs with
  | '-' :: rest => (number none rest).map fun (n, r) => (-(n : Int), r)
  | '+' :: rest => (number none rest).map fun (n, r) => ((n : Int), r)
  | rest => (number (some 4) rest).map fun (n, r) => ((n : Int), r)

def field (lo hi : Nat) (cs : List Char) : Except Fault (Nat × List Char) := do
  let (n, rest) ← number (some 2) (trimStart cs)
  if lo ≤ n ∧ n ≤ hi then return (n, rest) else throw .outOfRange

def separator (sep : Char) (cs : List Char) : Except Fault (List Char) :=
  match trimStart cs with
  | [] => .error .premature
  | c :: rest => if c = sep then .ok rest else .error .invalid

/-- The nanoseconds of an optional fraction; digits after the ninth are dropped. -/
def fraction (cs : List Char) : Except Fault (Nat × List Char) :=
  match cs with
  | '.' :: rest => do
      let (n, after) ← number (some 9) rest
      return (n * Nat.pow 10 (9 - (rest.length - after.length)), after.dropWhile isDigit)
  | _ => .ok (0, cs)

def isColonOrBlank (c : Char) : Bool :=
  c == ':' || isBlank c

/-- Two digits; a text of a single character is cut off only if it takes one byte. -/
def twoDigits (cs : List Char) : Except Fault (Nat × Nat × List Char) :=
  match cs with
  | [] => .error .premature
  | [c] => if c.toNat < 128 then .error .premature else .error .invalid
  | a :: b :: rest =>
      if isDigit a && isDigit b then .ok (digitValue a, digitValue b, rest)
      else .error .invalid

def offsetMinutes (cs : List Char) : Except Fault (Nat × List Char) := do
  let (h, h', rest) ← twoDigits cs
  let (m, m', rest) ← twoDigits (rest.dropWhile isColonOrBlank)
  if 6 ≤ m then throw .outOfRange
  return ((10 * h + h') * 60 + 10 * m + m', rest)

def isUtc (a b c : Char) : Bool :=
  (a == 'U' || a == 'u') && (b == 'T' || b == 't') && (c == 'C' || c == 'c')

def offset (cs : List Char) : Except Fault (Int × List Char) :=
  let named : Option (List Char) :=
    match cs with
    | a :: b :: c :: rest => if isUtc a b c then some rest else none
    | _ => none
  match named with
  | some rest => .ok (0, rest)
  | none =>
      match cs with
      | [] => .error .premature
      | c :: rest =>
          if c = 'Z' ∨ c = 'z' then .ok (0, rest)
          else if c = '+' then (offsetMinutes rest).map fun (n, r) => ((n : Int), r)
          else if c = '-' ∨ c = '\u2212' then
            (offsetMinutes rest).map fun (n, r) => (-(n : Int), r)
          else .error .invalid

def dateEnd (cs : List Char) : Except Fault (List Char) :=
  match cs with
  | [] => .error .premature
  | c :: rest => if c = 'T' ∨ c = 't' ∨ c = ' ' then .ok rest else .error .invalid

def yearInReach (year : Int) : Bool :=
  -2147483648 ≤ year && year ≤ 2147483647

def yearExists (year : Int) : Bool :=
  -262143 ≤ year && year ≤ 262142

/-- The instant with a local date and time of day, `minutes` ahead of UTC.  Second 60 is the
leap second after second 59. -/
def resolve (date : Calendar.Date) (hour minute second nano : Nat) (minutes : Int) :
    Except Fault Instant := do
  if ¬(date.Exists ∧ yearExists date.year) then throw .outOfRange
  let (second, nano) :=
    if second = 60 then (59, nano + Instant.nanosPerSecond) else (second, nano)
  if 1440 ≤ minutes.natAbs then throw .outOfRange
  let total : Int := (hour * 3600 + minute * 60 + second : Nat) - minutes * 60
  match Instant.ofParts? (Calendar.dayNumber date + total / Instant.secondsPerDay)
      (total % Instant.secondsPerDay).toNat nano with
  | some t => return t
  | none => throw .impossible

/-- Reads a timestamp that takes up the whole text, blanks at its end aside. -/
def read (cs : List Char) : Except Fault Instant := do
  let (y, cs) ← year cs
  if !yearInReach y then throw .outOfRange
  let (month, cs) ← field 1 12 (← separator '-' cs)
  let (day, cs) ← field 1 31 (← separator '-' cs)
  let (hour, cs) ← field 0 23 (← dateEnd cs)
  let (minute, cs) ← field 0 59 (← separator ':' cs)
  let (second, cs) ← field 0 60 (← separator ':' cs)
  let (nano, cs) ← fraction cs
  let (minutes, cs) ← offset (trimStart cs)
  if !(trimStart cs).isEmpty then throw .trailing
  resolve ⟨y, month, day⟩ hour minute second nano minutes

end Timestamp

namespace Instant

def text (t : Instant) : String :=
  String.ofList (Timestamp.write t)

instance : ToString Instant :=
  ⟨text⟩

end Instant
end Roster
