/-!
# Durations

A duration is a whole number of nanoseconds, at most `2 ^ 64 - 1` seconds and the nanoseconds
of one more.  Multiplication stops at that limit; a sum beyond it does not exist.
-/

namespace Roster

structure Duration where
  nanos : Nat
deriving Repr, DecidableEq, Ord

namespace Duration

def nanosPerSecond : Nat := 1000000000

def nanosPerMilli : Nat := 1000000

def limit : Duration := ⟨18446744073709551615 * nanosPerSecond + 999999999⟩

def ofSeconds (n : Nat) : Duration := ⟨n * nanosPerSecond⟩

def ofMillis (n : Nat) : Duration := ⟨n * nanosPerMilli⟩

/-- Seconds and any number of nanoseconds, as far as they make a duration. -/
def ofParts? (seconds nanos : Nat) : Option Duration :=
  let total := seconds * nanosPerSecond + nanos
  if total ≤ limit.nanos then some ⟨total⟩ else none

def seconds (d : Duration) : Nat := d.nanos / nanosPerSecond

def fraction (d : Duration) : Nat := d.nanos % nanosPerSecond

def millis (d : Duration) : Nat := d.nanos / nanosPerMilli

def min (a b : Duration) : Duration := if a.nanos ≤ b.nanos then a else b

def scale (d : Duration) (n : Nat) : Duration := min ⟨d.nanos * n⟩ limit

def add? (a b : Duration) : Option Duration :=
  if a.nanos + b.nanos ≤ limit.nanos then some ⟨a.nanos + b.nanos⟩ else none

end Duration
end Roster
