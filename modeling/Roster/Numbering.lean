import Roster.Record

/-!
# Choosing and verifying numbers

A server claims the lowest number that no other server holds.  A claim stands when no other
server holds its number, or when all others claimed it later; then they move on, because the
ranking is a total order that all servers compute alike.
-/

namespace Roster
namespace Numbering

/-- The least number from `n` on that is missing from an ascending list. -/
def firstGap (n : Nat) : List Nat → Nat
  | [] => n
  | k :: rest => if k < n then firstGap n rest else if k = n then firstGap (n + 1) rest else n

def heldByOthers (own : String) (entries : List Registration) : List Nat :=
  (entries.filter (·.serverId ≠ own)).map (·.number.toNat)

def highest : Nat := 4294967295

/-- The lowest number that no server other than `own` holds; the highest one when all below it
are held. -/
def lowestFree (own : String) (entries : List Registration) : UInt32 :=
  UInt32.ofNat (min (firstGap 0 ((heldByOthers own entries).mergeSort (· ≤ ·))) highest)

inductive Verdict where
  | unique
  | wonTieBreak
  | lost
deriving Repr, DecidableEq

def rivals (claim : Registration) (entries : List Registration) : List Registration :=
  entries.filter fun e => e.number = claim.number ∧ e.serverId ≠ claim.serverId

def verdict (claim : Registration) (entries : List Registration) : Verdict :=
  match rivals claim entries with
  | [] => .unique
  | rivals => if rivals.all claim.outranks then .wonTieBreak else .lost

end Numbering
end Roster
