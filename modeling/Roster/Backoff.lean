import Roster.Time.Duration

/-!
# Backing off after a lost claim

The delay before another attempt is a step that doubles with each attempt and is capped, plus a
jitter of whole milliseconds between zero and the first step.

The jitter is drawn from random 64-bit words by multiplying each with the number of outcomes:
the high half of the product is the outcome, and words whose low half lies beyond the largest
multiple that all outcomes share are passed over.  A source of words is a list, followed by
zeros for ever; a zero is never passed over.
-/

namespace Roster
namespace Backoff

def wordRange : Nat := 18446744073709551616

def maxDoublings : Nat := 16

/-- The delay of an attempt without its jitter; attempts count from one. -/
def step (attempt : Nat) (base cap : Duration) : Duration :=
  (base.scale (1 <<< Nat.min (attempt - 1) maxDoublings)).min cap

/-- Largest low half that is accepted for `range` outcomes. -/
def zone (range : Nat) : Nat :=
  range <<< (63 - Nat.log2 range) - 1

def draw (range : Nat) : List UInt64 → Nat × Nat
  | [] => (0, 1)
  | w :: rest =>
      let product := w.toNat * range
      if product % wordRange ≤ zone range then (product / wordRange, 1)
      else
        let (n, used) := draw range rest
        (n, used + 1)

/-- Draws a jitter from zero to `bound` milliseconds, and counts the words used. -/
def jitter (bound : Nat) (words : List UInt64) : Nat × Nat :=
  if bound = 0 then (0, 0)
  else if bound + 1 = wordRange then ((words.headD 0).toNat, 1)
  else draw (bound + 1) words

structure Delay where
  duration : Duration
  wordsUsed : Nat
deriving Repr, DecidableEq

/-- The delay after the given attempt; a sum that is no duration does not exist. -/
def delay? (attempt : Nat) (base cap : Duration) (words : List UInt64) : Option Delay := do
  let (millis, wordsUsed) := jitter (base.millis % wordRange) words
  let duration ← (step attempt base cap).add? (.ofMillis millis)
  return { duration, wordsUsed }

end Backoff
end Roster
