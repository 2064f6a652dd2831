import Roster.Rehearsal.World

/-!
# Runs

A run is what a procedure becomes in a world: it reads and changes the world, waits, and may
break down.  Between two waits it is not interrupted.
-/

namespace Roster
namespace Rehearsal

inductive Wait where
  | millis (n : Nat)
  | beat (index : Nat)

inductive Run (α : Type) where
  | done (result : α)
  | crashed
  | read (next : World → Run α)
  | write (world : World) (next : Run α)
  | wait (reason : Wait) (next : Run α)

namespace Run

def bind {α β : Type} (r : Run α) (f : α → Run β) : Run β :=
  match r with
  | done a => f a
  | crashed => crashed
  | read next => read fun w => bind (next w) f
  | write w next => write w (bind next f)
  | wait reason next => wait reason (bind next f)

instance : Monad Run where
  pure := done
  bind := bind

def get : Run World := read done

def set (w : World) : Run Unit := write w (done ())

def modify (f : World → World) : Run Unit := read fun w => write (f w) (done ())

/-- Goes on with a result that may be missing, and breaks down where it is. -/
def demand {α : Type} : Option α → Run α
  | some a => done a
  | none => crashed

def sleep (millis : Nat) : Run Unit := wait (.millis millis) (done ())

/-! # Running up to a wait -/

inductive Until where
  | instant (time : Nat)
  | beat (index : Nat)

namespace Until

def isReached (u : Until) (w : World) : Bool :=
  match u with
  | instant time => time ≤ w.now
  | beat index => w.isFinished index

def time? : Until → Option Nat
  | instant time => some time
  | beat _ => none

end Until

inductive Stage (α : Type) where
  | finished (result : α)
  | crashed
  | blocked (on : Until) (rest : Run α)

/-- Runs up to the next wait that is not over at once. -/
def advance {α : Type} : Run α → World → World × Stage α
  | done a, w => (w, .finished a)
  | crashed, w => (w, .crashed)
  | read next, w => advance (next w) w
  | write w next, _ => advance next w
  | wait (.millis n) next, w =>
      if n = 0 then advance next w else (w, .blocked (.instant (w.wakeTime n)) next)
  | wait (.beat index) next, w =>
      if w.isFinished index then advance next w else (w, .blocked (.beat index) next)

end Run

/-! # Procedures as runs -/

/-- Who performs a procedure: the store it calls, and the node whose standing it sees. -/
structure Actor where
  registry : Nat
  node : Option Nat := none

namespace Actor

def standing (actor : Actor) (w : World) : Standing :=
  match actor.node.bind w.node? with
  | some node => node.standing
  | none => {}

def setStanding (actor : Actor) (standing : Standing) (w : World) : World :=
  match actor.node with
  | some index => w.modifyNode index fun node => { node with standing }
  | none => w

def takeTicket (actor : Actor) (w : World) : UInt64 × World :=
  match actor.node with
  | some index =>
      (((w.node? index).map (·.tickets)).getD 0,
        w.modifyNode index fun node => { node with tickets := node.tickets + 1 })
  | none => (0, w)

end Actor

abbrev Caller := (registry : Nat) → (call : Call) → Run (Except RegistryError call.Answer)

def perform (caller : Caller) (actor : Actor) : (e : Effect) → Run e.Answer
  | .call c => caller actor.registry c
  | .pause time => Run.sleep time.millis
  | .now => do
      let w ← Run.get
      let (reading, w) ← Run.demand w.readClock?
      Run.set w
      return reading
  | .readingPast previous => do
      let w ← Run.get
      let fuel := w.clock.patience w.now
      let (reading, clock) ← Run.demand (Clock.readPast? previous w.now fuel w.clock)
      Run.set { w with clock }
      return reading
  | .look => do
      let w ← Run.get
      return actor.standing w
  | .store standing => Run.modify (actor.setStanding standing)
  | .ticket => do
      let w ← Run.get
      let (ticket, w) := actor.takeTicket w
      Run.set w
      return ticket
  | .threadName => do
      let w ← Run.get
      return w.thread
  | .entropy => return []
  | .report event => Run.modify (·.report event)

def enact {α : Type} (caller : Caller) (actor : Actor) : Proc α → Run α
  | .done a => .done a
  | .ask e next => (perform caller actor e).bind fun answer => enact caller actor (next answer)

end Rehearsal
end Roster
