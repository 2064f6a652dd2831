import Roster.Event

/-!
# Procedures

Whatever a member or a tracker does is a procedure: a tree that asks for one effect at a time
and goes on with the answer.  Calls to the registry and pauses are where other procedures may
run in between; all other effects are local, and a procedure performs them without
interruption.

Nothing here says how effects are answered.  The same procedures run in virtual time over
stores in memory, and against arbitrary answers when they are reasoned about.
-/

namespace Roster

inductive Call where
  | get (region key : String)
  | put (region key : String) (value : Bytes)
  | remove (region key : String)
  | list (region : String)
deriving Repr, DecidableEq

namespace Call

/-- The values that a successful call returns: what is or was under the key, or all values of the
region. -/
@[reducible] def Answer : Call → Type
  | get _ _ | put _ _ _ | remove _ _ => Option Bytes
  | list _ => List Bytes

def region : Call → String
  | get region _ | put region _ _ | remove region _ | list region => region

def key? : Call → Option String
  | get _ key | put _ key _ | remove _ key => some key
  | list _ => none

end Call

inductive Effect where
  | call (c : Call)
  | pause (time : Duration)
  | now
  /-- The first reading of the clock, in milliseconds, whose id count is not `previous`. -/
  | readingPast (previous : Nat)
  | look
  | store (standing : Standing)
  /-- The next number of a counter that starts at zero. -/
  | ticket
  | threadName
  | entropy
  | report (event : Event)

namespace Effect

@[reducible] def Answer : Effect → Type
  | call c => Except RegistryError c.Answer
  | pause _ => Unit
  | now => Instant
  | readingPast _ => Int
  | look => Standing
  | store _ => Unit
  | ticket => UInt64
  | threadName => Option String
  | entropy => List UInt64
  | report _ => Unit

end Effect

inductive Proc (α : Type) where
  | done (result : α)
  | ask (effect : Effect) (next : effect.Answer → Proc α)

namespace Proc

def bind {α β : Type} (p : Proc α) (f : α → Proc β) : Proc β :=
  match p with
  | done a => f a
  | ask e next => ask e fun answer => bind (next answer) f

instance : Monad Proc where
  pure := done
  bind := bind

/-! # Effects -/

def call (c : Call) : Proc (Except RegistryError c.Answer) := ask (.call c) done

def pause (time : Duration) : Proc Unit := ask (.pause time) done

def now : Proc Instant := ask .now done

def readingPast (previous : Nat) : Proc Int := ask (.readingPast previous) done

def look : Proc Standing := ask .look done

def store (standing : Standing) : Proc Unit := ask (.store standing) done

def ticket : Proc UInt64 := ask .ticket done

def threadName : Proc (Option String) := ask .threadName done

def entropy : Proc (List UInt64) := ask .entropy done

def report (event : Event) : Proc Unit := ask (.report event) done

/-! # Laws -/

@[simp] theorem done_bind {α β : Type} (a : α) (f : α → Proc β) :
    (done a).bind f = f a := rfl

@[simp] theorem ask_bind {α β : Type} (e : Effect) (next : e.Answer → Proc α) (f : α → Proc β) :
    (ask e next).bind f = ask e fun answer => (next answer).bind f := rfl

@[simp] theorem bind_done {α : Type} (p : Proc α) : p.bind done = p := by
  induction p with
  | done a => rfl
  | ask e next ih =>
      simp only [ask_bind]
      congr 1
      funext answer
      exact ih answer

theorem bind_assoc {α β γ : Type} (p : Proc α) (f : α → Proc β) (g : β → Proc γ) :
    (p.bind f).bind g = p.bind fun a => (f a).bind g := by
  induction p with
  | done a => rfl
  | ask e next ih =>
      simp only [ask_bind]
      congr 1
      funext answer
      exact ih answer

instance : LawfulMonad Proc :=
  LawfulMonad.mk' Proc bind_done (fun _ _ => rfl) bind_assoc

end Proc
end Roster
