import Roster.Rehearsal.Step

/-!
# Threads

A thread is a script that has been started: the replies it has so far, the step it waits in, and
the steps that remain.  Polling a thread lets it go on as far as it can at the present moment;
the threads of a joined step are polled in order.
-/

namespace Roster
namespace Rehearsal

inductive Thread where
  | finished (replies : List (Reply × Nat))
  | delayed (time : Nat) (script : List Step)
  | blocked (replies : List (Reply × Nat)) (on : Run.Until) (rest : Run Reply)
      (script : List Step)
  | joining (replies : List (Reply × Nat)) (threads : List Thread) (script : List Step)
  | limited (replies : List (Reply × Nat)) (deadline : Nat) (thread : Thread)
      (script : List Step)

namespace Thread

def replies? : Thread → Option (List (Reply × Nat))
  | finished replies => some replies
  | _ => none

def allReplies? : List Thread → Option (List (List (Reply × Nat)))
  | [] => some []
  | thread :: rest => do
      let replies ← thread.replies?
      let others ← allReplies? rest
      return replies :: others

mutual

def start (replies : List (Reply × Nat)) (script : List Step) (w : World) : World × Thread :=
  match script with
  | [] => (w, finished replies)
  | .command c :: rest =>
      match c.run.advance w with
      | (w, .finished reply) => start (replies ++ [(reply, w.now)]) rest w
      | (w, .crashed) => start (replies ++ [(.crashed, w.now)]) rest w
      | (w, .blocked on run) => (w, blocked replies on run rest)
  | .join scripts :: rest =>
      let (w, threads) := startAll scripts w
      match allReplies? threads with
      | some all => start (replies ++ [(.scripts all, w.now)]) rest w
      | none => (w, joining replies threads rest)
  | .timeout millis body :: rest =>
      let (w, thread) := start [] body w
      match thread.replies? with
      | some inner => start (replies ++ [(.script inner, w.now)]) rest w
      | none =>
          if millis = 0 then start (replies ++ [(.timedOut, w.now)]) rest w
          else (w, limited replies (w.wakeTime millis) thread rest)
termination_by sizeOf script
decreasing_by
  all_goals
    simp only [List.cons.sizeOf_spec, Step.join.sizeOf_spec, Step.timeout.sizeOf_spec]
    omega

def startAll (scripts : List (Nat × List Step)) (w : World) : World × List Thread :=
  match scripts with
  | [] => (w, [])
  | (delay, script) :: rest =>
      let (w, thread) :=
        if delay = 0 then start [] script w else (w, delayed (w.wakeTime delay) script)
      let (w, threads) := startAll rest w
      (w, thread :: threads)
termination_by sizeOf scripts

end

mutual

def poll (thread : Thread) (w : World) : World × Thread :=
  match thread with
  | finished replies => (w, finished replies)
  | delayed time script =>
      if time ≤ w.now then start [] script w else (w, delayed time script)
  | blocked replies on rest script =>
      if on.isReached w then
        match rest.advance w with
        | (w, .finished reply) => start (replies ++ [(reply, w.now)]) script w
        | (w, .crashed) => start (replies ++ [(.crashed, w.now)]) script w
        | (w, .blocked on rest) => (w, blocked replies on rest script)
      else (w, blocked replies on rest script)
  | joining replies threads script =>
      let (w, threads) := pollAll threads w
      match allReplies? threads with
      | some all => start (replies ++ [(.scripts all, w.now)]) script w
      | none => (w, joining replies threads script)
  | limited replies deadline thread script =>
      let (w, thread) := poll thread w
      match thread.replies? with
      | some inner => start (replies ++ [(.script inner, w.now)]) script w
      | none =>
          if deadline ≤ w.now then start (replies ++ [(.timedOut, w.now)]) script w
          else (w, limited replies deadline thread script)

def pollAll (threads : List Thread) (w : World) : World × List Thread :=
  match threads with
  | [] => (w, [])
  | thread :: rest =>
      let (w, thread) := poll thread w
      let (w, rest) := pollAll rest w
      (w, thread :: rest)

end

/-! # What a thread waits for -/

def earlier : Option Nat → Option Nat → Option Nat
  | some a, some b => some (min a b)
  | a, none => a
  | none, b => b

mutual

/-- The first moment at which a wait of the thread ends by itself. -/
def nextTime : Thread → Option Nat
  | finished _ => none
  | delayed time _ => some time
  | blocked _ on _ _ => on.time?
  | joining _ threads _ => nextTimeOfAll threads
  | limited _ deadline thread _ => earlier (some deadline) (nextTime thread)

def nextTimeOfAll : List Thread → Option Nat
  | [] => none
  | thread :: rest => earlier (nextTime thread) (nextTimeOfAll rest)

end

mutual

def isWoken (w : World) : Thread → Bool
  | finished _ | delayed _ _ => false
  | blocked _ (.beat index) _ _ => w.isFinished index
  | blocked _ (.instant _) _ _ => false
  | joining _ threads _ => anyWoken w threads
  | limited _ _ thread _ => isWoken w thread

def anyWoken (w : World) : List Thread → Bool
  | [] => false
  | thread :: rest => isWoken w thread || anyWoken w rest

end

end Thread
end Rehearsal
end Roster
