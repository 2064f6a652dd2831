import Roster.Backoff
import Roster.Numbering
import Roster.Region

/-!
# Cluster members

A member registers its server in the registry and settles a number that no other live server
holds.  The registry cannot compare and set, so a number is settled in rounds: list the
registrations, claim the lowest free number, wait for the claim to spread, list again and look
for competing claims.  A lost round is tried again after a backoff, up to a limit.

A ready member refreshes its registration with every heartbeat, and settles again when an
earlier claim to its number shows up; until then it keeps issuing ids for the old number.
Deactivation removes the registration for good, and whatever was under way when it happened
withdraws the claims it has written.
-/

namespace Roster

structure Member where
  id : ServerId
  config : Config
deriving Repr, DecidableEq

namespace Member

/-- A member with a valid configuration and a name for its server. -/
def create (source : ServerId.Source) (config : Config) : Except Error Member :=
  match config.validate with
  | .error fault => .error (.config fault)
  | .ok () =>
      match ServerId.identify source with
      | .error fault => .error (.identity fault)
      | .ok id => .ok { id, config }

def servers (m : Member) : Region Registration := ⟨m.config.serverRegion⟩

def report (m : Member) (event : MemberEvent) : Proc Unit :=
  Proc.report (.member m.id event)

def withdraw (m : Member) : Proc Unit := do
  match ← m.servers.remove m.id.text with
  | .ok _ => return ()
  | .error e => m.report (.withdrawalFailed e)

/-! # Settling a number -/

def ensureSettling (expected : Phase) : Proc (Except Error Unit) := do
  let standing ← Proc.look
  if standing.status.maySettle then return .ok ()
  else return .error (.invalidState expected standing.status.phase)

def verify (m : Member) (claim : Registration) : Proc (Except Error (Option Registration)) := do
  match ← m.servers.list with
  | .error e => return .error (.registry e)
  | .ok live =>
      match Numbering.verdict claim live with
      | .lost => return .ok none
      | _ => return .ok (some claim)

def spread (m : Member) (expected : Phase) (claim : Registration) :
    Proc (Except Error (Option Registration)) := do
  Proc.pause m.config.settleDelay
  match ← ensureSettling expected with
  | .error e => return .error e
  | .ok () => m.verify claim

def stake (m : Member) (expected : Phase) (claim : Registration) :
    Proc (Except Error (Option Registration)) := do
  match ← m.servers.put m.id.text claim with
  | .error e => return .error (.registry e)
  | .ok _ => m.spread expected claim

/-- One round of claiming a number; there is no claim where the round was lost. -/
def claimRound (m : Member) (expected : Phase) :
    Proc (Except Error (Option Registration)) := do
  match ← m.servers.list with
  | .error e => return .error (.registry e)
  | .ok live =>
      let number := Numbering.lowestFree m.id.text live
      let claimedAt ← Proc.now
      m.stake expected { serverId := m.id.text, number, claimedAt }

/-- How long to pause after a round that settled nothing.  The sum of a step and its jitter exists for
all periods of a configuration. -/
def backOffTime (m : Member) (attempt : Nat) (words : List UInt64) : Duration :=
  match Backoff.delay? attempt m.config.backoffBase m.config.backoffMax words with
  | some delay => delay.duration
  | none => m.config.backoffMax

def backOff (m : Member) (attempt : Nat) : Proc Unit := do
  let words ← Proc.entropy
  Proc.pause (m.backOffTime attempt words)

def exhausted (m : Member) : Option RegistryError → Error
  | some e => .registry e
  | none => .unsettled m.config.settleAttempts

/-- What follows a round: its claim where it stands, and another try where rounds are left.  `again`
tries with the error of this round. -/
def conclude (m : Member) (attempt remaining : Nat)
    (again : Option RegistryError → Proc (Except Error Registration)) :
    Except Error (Option Registration) → Proc (Except Error Registration)
  | .ok (some claim) => return .ok claim
  | .ok none => do
      m.report (.claimLost attempt)
      if remaining ≠ 0 then m.backOff attempt
      again none
  | .error (.registry e) => do
      m.report (.settlingFailed attempt e)
      if remaining ≠ 0 then m.backOff attempt
      again (some e)
  | .error e => return .error e

/-- Claims until a claim stands, with `remaining` rounds left, the next one being `attempt`;
`last` is the error of the round before. -/
def settleFrom (m : Member) (expected : Phase) (attempt : Nat) (last : Option RegistryError) :
    Nat → Proc (Except Error Registration)
  | 0 => return .error (m.exhausted last)
  | remaining + 1 => do
      match ← ensureSettling expected with
      | .error e => return .error e
      | .ok () => do
          let outcome ← m.claimRound expected
          m.conclude attempt remaining
            (fun last => m.settleFrom expected (attempt + 1) last remaining) outcome

def settle (m : Member) (expected : Phase) : Proc (Except Error Registration) :=
  m.settleFrom expected 1 none m.config.settleAttempts.toNat

def settleNumber (m : Member) (expected : Phase) : Proc (Except Error Settled) := do
  match ← m.settle expected with
  | .error e => return .error e
  | .ok claim =>
      match Settled.ofClaim? claim with
      | none => return .error (.numberOverflow claim.number)
      | some settled => return .ok settled

/-! # Registering -/

def relinquish (e : Error) : Proc (Except Error UInt32) := do
  let standing ← Proc.look
  if standing.status = .registering then
    Proc.store { standing with status := .inactive }
  return .error e

def abandon (m : Member) (e : Error) : Proc (Except Error UInt32) := do
  m.report (.registrationFailed e)
  m.withdraw
  relinquish e

def install (m : Member) (settled : Settled) : Proc (Except Error UInt32) := do
  let number := settled.claim.number
  let standing ← Proc.look
  if standing.status = .registering then
    Proc.store { status := .ready number, settled := some settled }
    m.report (.registered number)
    return .ok number
  else
    m.withdraw
    return .error (.invalidState .registering standing.status.phase)

def enroll (m : Member) : Except Error Settled → Proc (Except Error UInt32)
  | .error e => m.abandon e
  | .ok settled => m.install settled

def activate (m : Member) : Proc (Except Error UInt32) := do
  let standing ← Proc.look
  if standing.status = .inactive then
    Proc.store { standing with status := .registering }
    m.report .registering
    let outcome ← m.settleNumber .registering
    m.enroll outcome
  else return .error (.invalidState .inactive standing.status.phase)

/-! # Heartbeats -/

def restore (m : Member) (claim : Registration) : Proc Unit := do
  match ← m.servers.put m.id.text claim with
  | .error e => m.report (.restoringFailed e)
  | .ok _ =>
      let standing ← Proc.look
      if !standing.status.isReady then m.withdraw

/-- What follows a renumbering.  The registry ends up with the new claim, with the old one if
settling failed, and with none if the member was deactivated meanwhile. -/
def adopt (m : Member) (old : Registration) : Except Error Settled → Proc Unit
  | .ok settled => do
      let number := settled.claim.number
      let standing ← Proc.look
      if standing.status.isReady then
        Proc.store { status := .ready number, settled := some settled }
        m.report (.renumbered old.number number)
      else m.withdraw
  | .error e => do
      let standing ← Proc.look
      if standing.status.isReady then
        m.report (.renumberingFailed e old.number)
        m.restore old
      else
        m.report (.renumberingInterrupted e)
        m.withdraw

def renumber (m : Member) (old : Registration) : Proc Unit := do
  m.report (.collision old.number)
  let outcome ← m.settleNumber .ready
  m.adopt old outcome

def checkCollision (m : Member) (claim : Registration) : Proc Unit := do
  match ← m.servers.list with
  | .error e => m.report (.collisionCheckFailed e)
  | .ok live => if Numbering.verdict claim live = .lost then m.renumber claim

def refresh (m : Member) (claim : Registration) : Proc Unit := do
  match ← m.servers.put m.id.text claim with
  | .error e => m.report (.heartbeatFailed e)
  | .ok previous =>
      m.report (if previous.isSome then .refreshed claim.number else .reappeared claim.number)
      let standing ← Proc.look
      if standing.status.isReady then m.checkCollision claim else m.withdraw

/-- Refreshes the registration of a ready member, and settles again if its number is contested
by an earlier claim. -/
def heartbeat (m : Member) : Proc Unit := do
  let standing ← Proc.look
  match standing.settled with
  | none => return ()
  | some settled => if standing.status.isReady then m.refresh settled.claim

/-! # Deactivation -/

def deactivate (m : Member) : Proc (Except Error Unit) := do
  let standing ← Proc.look
  Proc.store { status := .deactivated, settled := none }
  if standing.status = .deactivated then return .ok ()
  match ← m.servers.remove m.id.text with
  | .error e => return .error (.registry e)
  | .ok _ =>
      m.report .deregistered
      return .ok ()

/-! # Queries -/

def allServers (m : Member) : Proc (Except Error (List Registration)) := do
  match ← m.servers.list with
  | .error e => return .error (.registry e)
  | .ok live => return .ok live

def serverNumber : Proc (Except Error UInt32) := do
  match (← Proc.look).status with
  | .ready number => return .ok number
  | _ => return .error .notReady

def uniqueId : Proc (Except Error UniqueId) := do
  match (← Proc.look).settled with
  | none => return .error .notReady
  | some settled =>
      let reading ← Proc.readingPast settled.issuer.previous
      let (id, issuer) := settled.issuer.issue (UniqueId.elapsedAt reading)
      let standing ← Proc.look
      Proc.store { standing with settled := some { settled with issuer } }
      return .ok id

end Member
end Roster
