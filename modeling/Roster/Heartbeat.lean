import Roster.Member

/-!
# Running heartbeats

A running heartbeat ticks on the member's interval, the first time one interval after it was
started, and ends when it finds the member deactivated.  A tick that is taken up on time leaves
the rhythm alone; after one that is taken up late, the next is a whole interval away.
-/

namespace Roster
namespace Heartbeat

/-- Milliseconds by which a tick may be late without moving the rhythm. -/
def tolerance : Nat := 5

def nextDue (interval due taken : Nat) : Nat :=
  if taken ≤ due + tolerance then due + interval else taken + interval

def tick (m : Member) : Proc Bool := do
  let standing ← Proc.look
  if standing.status = .deactivated then return false
  m.heartbeat
  return true

end Heartbeat
end Roster
