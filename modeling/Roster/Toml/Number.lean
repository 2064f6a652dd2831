import Roster.Text.Digits
import Roster.Time.Calendar
import Roster.Toml.Chars

/-!
# Numbers and times

Integers are decimal with a sign, or hexadecimal, octal or binary with a mark, and fit 64 bits;
single underscores may stand between digits.  Of floats and times only the grammar matters here,
because no setting takes one: a reader for them gives the rest of the text.
-/

namespace Roster
namespace Toml

/-! # Digits -/

/-- Further digits of a run, each with an optional underscore before it. -/
def moreDigits (p : Char → Bool) : List Char → List Char × List Char
  | [] => ([], [])
  | c :: rest =>
      if c = '_' then
        match rest with
        | d :: rest' =>
            if p d then
              let (digits, r) := moreDigits p rest'
              (d :: digits, r)
            else ([], c :: rest)
        | [] => ([], [c])
      else if p c then
        let (digits, r) := moreDigits p rest
        (c :: digits, r)
      else ([], c :: rest)

def digitRun (p : Char → Bool) : Reader (List Char)
  | [] => none
  | c :: rest =>
      if p c then
        let (digits, r) := moreDigits p rest
        some (c :: digits, r)
      else none

def decimalRun : Reader (List Char)
  | [] => none
  | c :: rest => if c = '0' then some ([c], rest) else digitRun Text.isDigit (c :: rest)

def sign : List Char → Bool × List Char
  | '-' :: rest => (true, rest)
  | '+' :: rest => (false, rest)
  | cs => (false, cs)

/-! # Integers -/

def minInteger : Int := -9223372036854775808

def maxInteger : Int := 9223372036854775807

def bounded (n : Int) (rest : List Char) : Option (Int × List Char) :=
  if minInteger ≤ n ∧ n ≤ maxInteger then some (n, rest) else none

def ofDigits (base : Nat) (digits : List Char) : Nat :=
  digits.foldl (fun n c => base * n + (Bytes.hexValue? c).getD 0) 0

def isDigitOf (base : Nat) (c : Char) : Bool :=
  match Bytes.hexValue? c with
  | some n => n < base
  | none => false

/-- A number whose base is given by the letter after a leading zero. -/
def marked (base : Nat) (cs : List Char) : Option (Int × List Char) := do
  let (digits, rest) ← digitRun (isDigitOf base) cs
  bounded (ofDigits base digits) rest

def integer : Reader Int
  | '0' :: 'x' :: rest => marked 16 rest
  | '0' :: 'o' :: rest => marked 8 rest
  | '0' :: 'b' :: rest => marked 2 rest
  | cs => do
      let (negative, cs) := sign cs
      let (digits, rest) ← decimalRun cs
      let n : Int := ofDigits 10 digits
      bounded (if negative then -n else n) rest

/-! # Floats -/

/-- Whether digits scaled by a power of ten round to infinity in double precision: whether they
reach the midpoint between the largest double and the next power of two. -/
def overflows (digits : List Char) (exponent : Int) : Bool :=
  let n := ofDigits 10 digits
  let size := (Text.decimal n).length + exponent
  if n = 0 ∨ size < 300 then false
  else if 320 < size then true
  else
    let threshold := 1 <<< 1024 - 1 <<< 970
    if 0 ≤ exponent then threshold ≤ n * Nat.pow 10 exponent.toNat
    else threshold * Nat.pow 10 (-exponent).toNat ≤ n

def fractionPart : Reader (List Char)
  | '.' :: rest => digitRun Text.isDigit rest
  | _ => none

def exponentPart : Reader Int
  | c :: rest =>
      if c = 'e' ∨ c = 'E' then do
        let (negative, rest) := sign rest
        let (digits, rest) ← digitRun Text.isDigit rest
        let n : Int := ofDigits 10 digits
        return (if negative then -n else n, rest)
      else none
  | [] => none

/-- A float with a fraction, an exponent, or both; positive ones may not overflow. -/
def decimalFloat? (cs : List Char) : Option (List Char) := do
  let (negative, cs) := sign cs
  let (whole, cs) ← decimalRun cs
  let (fraction, exponent, rest) ←
    match fractionPart cs with
    | some (fraction, rest) =>
        match exponentPart rest with
        | some (exponent, rest) => some (fraction, exponent, rest)
        | none => some (fraction, 0, rest)
    | none => (exponentPart cs).map fun (exponent, rest) => ([], exponent, rest)
  if !negative && overflows (whole ++ fraction) (exponent - fraction.length) then none
  else some rest

def specialFloat? (cs : List Char) : Option (List Char) :=
  match (sign cs).2 with
  | 'i' :: 'n' :: 'f' :: rest => some rest
  | 'n' :: 'a' :: 'n' :: rest => some rest
  | _ => none

def float? (cs : List Char) : Option (List Char) :=
  decimalFloat? cs <|> specialFloat? cs

/-! # Times -/

def fixedDigits (n lo hi : Nat) (cs : List Char) : Option (Nat × List Char) :=
  let digits := cs.take n
  if digits.length = n ∧ digits.all Text.isDigit then
    let v := Text.value digits
    if lo ≤ v ∧ v ≤ hi then some (v, cs.drop n) else none
  else none

def mark? (c : Char) : List Char → Option (List Char)
  | d :: rest => if d = c then some rest else none
  | [] => none

def date? (cs : List Char) : Option (List Char) := do
  let (year, cs) ← fixedDigits 4 0 9999 cs
  let (month, cs) ← fixedDigits 2 1 12 (← mark? '-' cs)
  let (_, cs) ← fixedDigits 2 1 (Calendar.daysInMonth year month) (← mark? '-' cs)
  return cs

def skipFraction (cs : List Char) : List Char :=
  match cs with
  | '.' :: d :: rest => if Text.isDigit d then rest.dropWhile Text.isDigit else cs
  | _ => cs

def time? (cs : List Char) : Option (List Char) := do
  let (_, cs) ← fixedDigits 2 0 23 cs
  let (_, cs) ← fixedDigits 2 0 59 (← mark? ':' cs)
  let (_, cs) ← fixedDigits 2 0 60 (← mark? ':' cs)
  return skipFraction cs

def offset? (cs : List Char) : Option (List Char) :=
  match cs with
  | c :: rest =>
      if c = 'Z' ∨ c = 'z' then some rest
      else if c = '+' ∨ c = '-' then do
        let (_, rest) ← fixedDigits 2 0 23 rest
        let (_, rest) ← fixedDigits 2 0 59 (← mark? ':' rest)
        return rest
      else none
  | [] => none

/-- A date with an optional time of day and offset, or a time of day alone. -/
def moment? (cs : List Char) : Option (List Char) :=
  match date? cs with
  | none => time? cs
  | some cs =>
      match cs with
      | c :: rest =>
          if c = 'T' ∨ c = 't' ∨ c = ' ' then
            match time? rest with
            | some rest => some ((offset? rest).getD rest)
            | none => some cs
          else some cs
      | [] => some []

end Toml
end Roster
