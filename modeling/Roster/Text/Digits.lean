/-!
# Decimal digits

Natural numbers are written without leading zeros, or padded with zeros to a width.  A run of
digits is read from the front of a text, at most `limit` of them.
-/

namespace Roster
namespace Text

def isDigit (c : Char) : Bool :=
  '0' ≤ c && c ≤ '9'

def digitValue (c : Char) : Nat :=
  c.toNat - 48

def digit (n : Nat) : Char :=
  Char.ofNat (48 + n % 10)

def lowDigits : Nat → Nat → List Char
  | 0, _ => []
  | w + 1, n => lowDigits w (n / 10) ++ [digit n]

def decimal (n : Nat) : List Char :=
  (toString n).toList

def padded (width n : Nat) : List Char :=
  if n < Nat.pow 10 width then lowDigits width n else decimal n

def value (digits : List Char) : Nat :=
  digits.foldl (fun n c => 10 * n + digitValue c) 0

/-- Splits off the leading digits, at most `limit` of them where there is a limit. -/
def leadingDigits : Option Nat → List Char → List Char × List Char
  | some 0, cs => ([], cs)
  | _, [] => ([], [])
  | limit, c :: cs =>
      if isDigit c then
        let (digits, rest) := leadingDigits (limit.map (· - 1)) cs
        (c :: digits, rest)
      else ([], c :: cs)

@[simp] theorem length_lowDigits (w n : Nat) : (lowDigits w n).length = w := by
  induction w generalizing n with
  | zero => rfl
  | succ w ih => simp [lowDigits, ih]

end Text
end Roster
