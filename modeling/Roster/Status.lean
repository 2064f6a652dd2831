import Roster.Record
import Roster.UniqueId.Issuer

/-!
# Where a member stands

A member is inactive until it is asked to register, registers, becomes ready with a number, and
is deactivated for good.  A ready member holds the claim that survived verification and the
issuer of ids for its number; the two are kept together with the status.
-/

namespace Roster

inductive Phase where
  | inactive
  | registering
  | ready
  | deactivated
deriving Repr, DecidableEq

namespace Phase

def name : Phase → String
  | inactive => "inactive"
  | registering => "registering"
  | ready => "ready"
  | deactivated => "deactivated"

end Phase

inductive Status where
  | inactive
  | registering
  | ready (number : UInt32)
  | deactivated
deriving Repr, DecidableEq

namespace Status

def phase : Status → Phase
  | inactive => .inactive
  | registering => .registering
  | ready _ => .ready
  | deactivated => .deactivated

def isReady : Status → Bool
  | ready _ => true
  | _ => false

def maySettle : Status → Bool
  | registering => true
  | ready _ => true
  | _ => false

def text : Status → String
  | ready number => s!"ready:{number}"
  | status => status.phase.name

end Status

/-- A claim that survived verification, with the issuer of ids for its number. -/
structure Settled where
  claim : Registration
  issuer : Issuer
deriving DecidableEq

namespace Settled

def ofClaim? (claim : Registration) : Option Settled :=
  (Issuer.start? claim.number).map fun issuer => { claim, issuer }

end Settled

structure Standing where
  status : Status := .inactive
  settled : Option Settled := none
deriving DecidableEq

end Roster
