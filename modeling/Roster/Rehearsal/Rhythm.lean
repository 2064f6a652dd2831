import Roster.Heartbeat
import Roster.Rehearsal.Hooked

/-!
# Rhythms

A rhythm is where a running heartbeat stands between two of its turns: it waits for its next
tick, or inside a tick that it has taken up.  In a turn it goes on until it has to wait again.
It hears that it is to stop when no tick is under way.
-/

namespace Roster
namespace Rehearsal

inductive Rhythm where
  | idle (due : Nat)
  | busy (due taken : Nat) (on : Run.Until) (rest : Run Bool)

namespace Rhythm

def interval (m : Member) : Nat := m.config.heartbeatInterval.millis

def first (beat : Beat) : Rhythm :=
  .idle (beat.startedAt + interval beat.member)

def isIdle : Rhythm → Bool
  | .idle _ => true
  | .busy _ _ _ _ => false

def nextTime : Rhythm → Option Nat
  | .idle due => some due
  | .busy _ _ on _ => on.time?

/-! # Turns -/

def finish (index : Nat) (beat : Beat) (broken : Bool) (w : World) : World :=
  let w := w.modifyBeat index fun beat => { beat with finished := true, broken }
  if broken then w else w.report (.member beat.member.id .heartbeatStopped)

def beginTick (beat : Beat) (w : World) : World × Run.Stage Bool :=
  let registry := ((w.node? beat.node).map (·.registry)).getD 0
  (enact caller { registry, node := some beat.node } (Heartbeat.tick beat.member)).advance w

/-- Goes on from where a tick has run to.  When it is over and the next one is due already, that
one follows at once; at most `more` ticks do. -/
def follow (index : Nat) (beat : Beat) :
    (more due taken : Nat) → World × Run.Stage Bool → World × Option Rhythm
  | more, due, taken, (w, .finished true) =>
      if (w.beats[index]?.map (·.stopping)).getD false then (finish index beat false w, none)
      else
        let next := Heartbeat.nextDue (interval beat.member) due taken
        match more with
        | 0 => (w, some (.idle next))
        | more + 1 =>
            if next ≤ w.now then follow index beat more next w.now (beginTick beat w)
            else (w, some (.idle next))
  | _, _, _, (w, .finished false) => (finish index beat false w, none)
  | _, _, _, (w, .crashed) => (finish index beat true w, none)
  | _, due, taken, (w, .blocked on rest) => (w, some (.busy due taken on rest))

/-- Ticks that can follow at once in a turn: an interval is longer than the time by which a tick
may be late, so after a tick taken up now the next one lies ahead. -/
def ticksAhead : Nat := 1

/-- One turn, which tells where the heartbeat stands after it unless it has ended. -/
def turn (index : Nat) (beat : Beat) (w : World) : Rhythm → World × Option Rhythm
  | .idle due =>
      if beat.stopping then (finish index beat false w, none)
      else if due ≤ w.now then follow index beat ticksAhead due w.now (beginTick beat w)
      else (w, some (.idle due))
  | .busy due taken on rest =>
      if on.isReached w then follow index beat ticksAhead due taken (rest.advance w)
      else (w, some (.busy due taken on rest))

end Rhythm

/-! # Pulses -/

structure Pulse where
  beat : Nat
  rhythm : Rhythm

namespace Pulse

def turn (p : Pulse) (w : World) : World × Option Pulse :=
  match w.beats[p.beat]? with
  | some beat =>
      let (w, rhythm) := Rhythm.turn p.beat beat w p.rhythm
      (w, rhythm.map ({ p with rhythm := · }))
  | none => (w, none)

def turns : List Pulse → World → World × List Pulse
  | [], w => (w, [])
  | p :: rest, w =>
      let (w, after) := p.turn w
      let (w, waiting) := turns rest w
      (w, after.toList ++ waiting)

def isDue (time : Nat) (p : Pulse) : Bool :=
  match p.rhythm.nextTime with
  | some due => due ≤ time
  | none => false

def nextTime (pulses : List Pulse) : Option Nat :=
  (pulses.filterMap (·.rhythm.nextTime)).min?

/-- Whether a pulse hears at once that its heartbeat is to stop. -/
def hears (beat : Nat) (p : Pulse) : Bool :=
  p.beat == beat && p.rhythm.isIdle

/-- The pulses that signals bring about or call up from their rest, in the order of the signals,
and the pulses that stay at rest. -/
def heed (w : World) : List Signal → List Pulse → List Pulse × List Pulse
  | [], resting => ([], resting)
  | .start beat :: rest, resting =>
      let started := (w.beats[beat]?.map fun b => { beat, rhythm := .first b : Pulse }).toList
      let (called, resting) := heed w rest resting
      (started ++ called, resting)
  | .stop beat :: rest, resting =>
      let (stopped, resting) := resting.partition (hears beat)
      let (called, resting) := heed w rest resting
      (stopped ++ called, resting)

end Pulse
end Rehearsal
end Roster
