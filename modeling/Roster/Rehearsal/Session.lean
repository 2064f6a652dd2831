import Roster.Rehearsal.Rhythm
import Roster.Rehearsal.Thread

/-!
# Sessions

A session carries out a script step by step while heartbeats run beside it.  Virtual time stands
still while anything can go on, and then jumps to the next moment at which a wait ends.  At one
moment the script goes first.  The heartbeats whose waits have ended follow in the order in which
they came to rest, and after them those that the script has started or stopped.
-/

namespace Roster
namespace Rehearsal

structure Session where
  world : World
  ready : List Pulse := []
  resting : List Pulse := []

namespace Session

/-- Gives a turn to the heartbeats that are ready and to those that have heard a signal. -/
def takeTurns (s : Session) : Session :=
  let (called, resting) := Pulse.heed s.world s.world.signals.reverse s.resting
  let (world, waiting) := Pulse.turns (s.ready ++ called) { s.world with signals := [] }
  { world, resting := resting ++ waiting }

/-- Lets time pass up to a moment: heartbeats that are due by then become ready. -/
def passTo (time : Nat) (s : Session) : Session :=
  let (due, resting) := s.resting.partition (Pulse.isDue time)
  { world := { s.world with now := time }, ready := s.ready ++ due, resting }

/-- Lets a thread and the heartbeats go on until the thread has finished; `fuel` bounds the
moments at which anything goes on. -/
def drive : Nat → Session → Thread → Session × List (Reply × Nat)
  | 0, s, _ => (s, [])
  | fuel + 1, s, thread =>
      let (world, thread) := thread.poll s.world
      let s := { s with world }
      match thread.replies? with
      | some replies => (s, replies)
      | none =>
          let s := s.takeTurns
          if thread.isWoken s.world then drive fuel s thread
          else
            match Thread.earlier thread.nextTime (Pulse.nextTime s.resting) with
            | some time => drive fuel (s.passTo (max s.world.now time)) thread
            | none => (s, [])

def patience : Nat := 1 <<< 62

def step (s : Session) (step : Step) : Session × Reply :=
  let (s, replies) := drive patience s (.delayed s.world.now [step])
  (s, (replies.head?.map (·.1)).getD .timedOut)

/-- What there is to see after a step; calls and events are those of the step. -/
structure View where
  reply : Reply
  time : Nat
  statuses : List (String × Status)
  calls : List CallRecord
  events : List Event

def statuses (w : World) : List (String × Status) :=
  w.members.filterMap fun (name, index) =>
    (w.node? index).map fun node => (name, node.standing.status)

def observe (s : Session) (step : Step) : Session × View :=
  let (s, reply) := s.step step
  let view : View :=
    { reply
      time := s.world.now
      statuses := statuses s.world
      calls := s.world.calls.reverse
      events := s.world.events.reverse }
  ({ s with world := { s.world with calls := [], events := [] } }, view)

def run (s : Session) : List Step → List View
  | [] => []
  | step :: rest =>
      let (s, view) := s.observe step
      view :: run s rest

def replies (s : Session) (script : List Step) : List Reply :=
  (s.run script).map (·.reply)

end Session
end Rehearsal
end Roster
