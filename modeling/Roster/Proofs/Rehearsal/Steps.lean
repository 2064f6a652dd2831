import Roster.Rehearsal.Session

/-!
# Steps without heartbeats

In a session without heartbeats a step goes on whenever it can.  A command that does not wait is
over at once, and so are scripts that do not; scripts that all wait for the same moment go on, one
after the other, when it has come.
-/

namespace Roster
namespace Rehearsal
namespace Session

variable {fuel : Nat} {w w' : World} {s : Session} {thread : Thread}
  {scripts : List (Nat × List Step)} {threads : List Thread} {all : List (List (Reply × Nat))}

theorem exists_patience : exists fuel, patience = fuel + 2 :=
  ⟨1 <<< 62 - 2, rfl⟩

/-!
# Driving a thread
-/

theorem drive_of_finished {replies : List (Reply × Nat)}
    (h : thread.poll s.world = (w', .finished replies)) :
    drive (fuel + 1) s thread = ({ s with world := w' }, replies) := by
  rw [drive, h]
  rfl

theorem drive_of_waiting {thread' : Thread} {time : Nat}
    (h : thread.poll w = (w', thread')) (hreplies : thread'.replies? = none)
    (hsignals : w'.signals = []) (hwoken : thread'.isWoken w' = false)
    (htime : thread'.nextTime = some time) (hle : w'.now ≤ time) :
    drive (fuel + 1) { world := w } thread =
      drive fuel { world := { w' with now := time } } thread' := by
  have hquiet : takeTurns { world := w' } = { world := w' } := by
    have hsame : { w' with signals := [] } = w' := by rw [← hsignals]
    simp only [takeTurns, hsignals, List.reverse_nil, Pulse.heed, List.append_nil, Pulse.turns, hsame]
  rw [drive, h]
  dsimp only
  rw [hreplies]
  dsimp only
  rw [hquiet]
  dsimp only
  rw [hwoken, if_neg Bool.false_ne_true, htime]
  change drive fuel (passTo (max w'.now time) { world := w' }) thread' = _
  rw [Nat.max_eq_right hle]
  rfl

/-!
# Commands
-/

theorem start_command {c : Command} {reply : Reply} (h : c.run.advance w = (w', .finished reply)) :
    Thread.start [] [.command c] w = (w', .finished [(reply, w'.now)]) := by
  rw [Thread.start, h]
  dsimp only
  rw [Thread.start]
  rfl

theorem start_blocked {c : Command} {on : Run.Until} {run : Run Reply}
    (h : c.run.advance w = (w', .blocked on run)) :
    Thread.start [] [.command c] w = (w', .blocked [] on run []) := by
  rw [Thread.start, h]

theorem step_of_finished {step : Step} {reply : Reply}
    (h : Thread.start [] [step] s.world = (w', .finished [(reply, w'.now)])) :
    s.step step = ({ s with world := w' }, reply) := by
  have hpoll : Thread.poll (.delayed s.world.now [step]) s.world =
      (w', .finished [(reply, w'.now)]) := by
    rw [Thread.poll, if_pos (Nat.le_refl _), h]
  rcases exists_patience with ⟨fuel, hfuel⟩
  unfold Session.step
  rw [hfuel, drive_of_finished hpoll]
  rfl

theorem replies_cons {step : Step} {reply : Reply} {s' : Session} (h : s.step step = (s', reply))
    (rest : List Step) :
    s.replies (step :: rest) =
      reply ::
        replies { s' with world := { s'.world with calls := [], events := [] } } rest := by
  unfold replies
  rw [run, observe, h]
  rfl

/-!
# Scripts that run at once
-/

theorem startAll_cons {script : List Step} (h : Thread.start [] script w = (w', thread))
    (rest : List (Nat × List Step)) :
    Thread.startAll ((0, script) :: rest) w =
      ((Thread.startAll rest w').1, thread :: (Thread.startAll rest w').2) := by
  rw [Thread.startAll, if_pos rfl, h]

theorem allReplies?_finished {ι : Type} (replies : ι → List (Reply × Nat)) (is : List ι) :
    Thread.allReplies? (is.map fun i => .finished (replies i)) = some (is.map replies) := by
  induction is with
  | nil => rfl
  | cons i is ih =>
      simp only [List.map_cons, Thread.allReplies?, Thread.replies?, ih]
      rfl

theorem step_join_at_once (h : Thread.startAll scripts w = (w', threads))
    (hall : Thread.allReplies? threads = some all) :
    step { world := w } (.join scripts) = ({ world := w' }, .scripts all) := by
  refine step_of_finished ?_
  rw [Thread.start, h]
  dsimp only
  rw [hall]
  dsimp only
  rw [Thread.start]
  rfl

theorem step_join_of_waiting {w'' : World} {threads' : List Thread} {time : Nat}
    (h : Thread.startAll scripts w = (w', threads)) (hwaiting : Thread.allReplies? threads = none)
    (hsignals : w'.signals = []) (hwoken : Thread.anyWoken w' threads = false)
    (htime : Thread.nextTimeOfAll threads = some time) (hle : w'.now ≤ time)
    (hpoll : Thread.pollAll threads { w' with now := time } = (w'', threads'))
    (hall : Thread.allReplies? threads' = some all) :
    step { world := w } (.join scripts) = ({ world := w'' }, .scripts all) := by
  have hstart : Thread.poll (.delayed w.now [.join scripts]) w = (w', .joining [] threads []) := by
    rw [Thread.poll, if_pos (Nat.le_refl _), Thread.start, h]
    dsimp only
    rw [hwaiting]
  have hfinish : Thread.poll (.joining [] threads []) { w' with now := time } =
      (w'', .finished [(.scripts all, w''.now)]) := by
    rw [Thread.poll, hpoll]
    dsimp only
    rw [hall]
    dsimp only
    rw [Thread.start]
    rfl
  rcases exists_patience with ⟨fuel, hfuel⟩
  unfold Session.step
  dsimp only
  rw [hfuel, drive_of_waiting hstart rfl hsignals hwoken htime hle, drive_of_finished hfinish]
  rfl

end Session
end Rehearsal
end Roster
