import Roster.Heartbeat
import Roster.Store
import Roster.Tracker

/-!
# The world of a rehearsal

A rehearsal runs members and trackers in virtual time, over stores in memory and a clock that
moves only as told.  The world is all that they share: the time, the clock, the stores with the
hooks on them, what each node remembers, the running heartbeats with the signals to them, and a
record of calls and events.
-/

namespace Roster
namespace Rehearsal

/-! # Clock -/

/-- A clock that is set and moved by hand, or the clock of a system, of which nothing is known but
what it shows from one reading to the next. -/
structure Clock where
  time : Instant
  linked : Bool := false
  /-- Milliseconds that the clock moves on after each reading. -/
  step : Nat := 0
  system : Option (Nat → Instant) := none
  readings : Nat := 0

namespace Clock

def read? (clock : Clock) (now : Nat) : Option (Instant × Clock) :=
  match clock.system with
  | some shows => some (shows clock.readings, { clock with readings := clock.readings + 1 })
  | none => do
      let reading ← clock.time.addMillis? (if clock.linked then now else 0)
      let time ← clock.time.addMillis? clock.step
      return (reading, { clock with time })

/-- Reads until the id count differs from `previous`; `fuel` bounds the readings. -/
def readPast? (previous now : Nat) : Nat → Clock → Option (Int × Clock)
  | 0, _ => none
  | fuel + 1, clock => do
      let (reading, clock) ← clock.read? now
      if UniqueId.elapsedAt reading.millis = previous then readPast? previous now fuel clock
      else return (reading.millis, clock)

/-- Readings that pass before a moving clock shows another count: it may have to reach the zero
point of the count first, and a leap second counts twice. -/
def patience (clock : Clock) (now : Nat) : Nat :=
  (UniqueId.epochMillis - (clock.time.millis + now)).toNat + 2000

end Clock

/-! # Hooks -/

inductive Method where
  | get
  | put
  | remove
  | list
deriving Repr, DecidableEq

namespace Method

def ofCall : Call → Method
  | .get _ _ => get
  | .put _ _ _ => put
  | .remove _ _ => remove
  | .list _ => list

def name : Method → String
  | get => "get"
  | put => "put"
  | remove => "remove"
  | list => "list"

end Method

inductive Moment where
  | before
  | after
deriving Repr, DecidableEq

inductive Action where
  | fail (reason : String)
  | inject (bytes : Bytes)
  | putServer (entry : Registration)
  | remove (key : String)
  | deactivate (node : String)
  | available (on : Bool)
  | advanceClock (millis : Int)
  | sleep (millis : Nat)
  | crash

/-- What happens around some of the calls to a store: the calls that match are counted, the first
`skip` pass, and the next `times` meet the action. -/
structure Hook where
  registry : Nat
  method : Option Method
  region : Option String
  key : Option String
  skip : Nat
  times : Nat
  moment : Moment
  action : Action

namespace Hook

def fits {α : Type} [DecidableEq α] (wanted : Option α) (actual : Option α) : Bool :=
  wanted.isNone || wanted == actual

def covers (hook : Hook) (registry : Nat) (call : Call) : Bool :=
  hook.registry == registry && fits hook.method (some (Method.ofCall call)) &&
    fits hook.region (some call.region) && fits hook.key call.key?

def count (hook : Hook) (registry : Nat) (call : Call) : Hook × Bool :=
  if !hook.covers registry call then (hook, false)
  else if 0 < hook.skip then ({ hook with skip := hook.skip - 1 }, false)
  else if 0 < hook.times then ({ hook with times := hook.times - 1 }, true)
  else (hook, false)

end Hook

/-! # Nodes and heartbeats -/

/-- A member with its tracker, or a tracker alone, and what belongs to it. -/
structure Node where
  registry : Nat
  member : Option Member
  tracker : Tracker
  standing : Standing := {}
  tickets : UInt64 := 0

structure Beat where
  node : Nat
  member : Member
  startedAt : Nat
  stopping : Bool := false
  finished : Bool := false
  broken : Bool := false

inductive Signal where
  | start (beat : Nat)
  | stop (beat : Nat)

/-! # Records -/

structure CallRecord where
  registry : Nat
  call : Call
  /-- Number of values returned, unless the call failed. -/
  outcome : Option Nat

structure World where
  now : Nat := 0
  clock : Clock
  thread : Option String := some "main"
  stores : List Store := [{}]
  hooks : List Hook := []
  nodes : List Node := []
  members : List (String × Nat) := []
  trackers : List (String × Nat) := []
  beats : List Beat := []
  handles : List (String × Nat) := []
  /-- Signals that no heartbeat has heard yet, the last one first. -/
  signals : List Signal := []
  calls : List CallRecord := []
  events : List Event := []

namespace World

/-! # Time -/

def longestSleep : Nat := 30 * 365 * 24 * 60 * 60 * 1000

def wakeTime (w : World) (millis : Nat) : Nat := w.now + min millis longestSleep

/-! # Names -/

def lookup (name : String) (table : List (String × Nat)) : Option Nat :=
  (table.find? (·.1 == name)).map (·.2)

def assign (name : String) (index : Nat) : List (String × Nat) → List (String × Nat)
  | [] => [(name, index)]
  | entry :: rest =>
      if entry.1 = name then (name, index) :: rest else entry :: assign name index rest

def unassign (name : String) (table : List (String × Nat)) : List (String × Nat) :=
  table.filter (·.1 != name)

/-! # Parts -/

def node? (w : World) (index : Nat) : Option Node := w.nodes[index]?

def modifyNode (w : World) (index : Nat) (f : Node → Node) : World :=
  { w with nodes := w.nodes.modify index f }

def modifyBeat (w : World) (index : Nat) (f : Beat → Beat) : World :=
  { w with beats := w.beats.modify index f }

def modifyStore (w : World) (registry : Nat) (f : Store → Store) : World :=
  { w with stores := w.stores.modify registry f }

def store (w : World) (registry : Nat) : Store :=
  w.stores[registry]?.getD {}

/-- Answers a call by the store itself, without hooks and without recording it. -/
def answer (w : World) (registry : Nat) (call : Call) :
    Except RegistryError call.Answer × World :=
  let (result, store) := (w.store registry).answer w.now call
  (result, w.modifyStore registry fun _ => store)

def signal (w : World) (signal : Signal) : World :=
  { w with signals := signal :: w.signals }

def report (w : World) (event : Event) : World :=
  { w with events := event :: w.events }

def advanceClock? (w : World) (millis : Int) : Option World := do
  let time ← w.clock.time.addMillis? millis
  return { w with clock := { w.clock with time } }

def readClock? (w : World) : Option (Instant × World) := do
  let (reading, clock) ← w.clock.read? w.now
  return (reading, { w with clock })

def isFinished (w : World) (beat : Nat) : Bool :=
  match w.beats[beat]? with
  | some b => b.finished
  | none => true

end World
end Rehearsal
end Roster
