import Roster.Proofs.Completion
import Roster.Rehearsal.World

/-!
# Virtual time

Time passes only in sleeps.  A procedure runs from one sleep to the next without interruption, and
its calls are answered by one store in memory at the time at which it runs.  Clocks and whatever else
it asks for are answered by its surroundings, whatever these do.
-/

namespace Roster

inductive Halt (α : Type) where
  | ended (result : α)
  | asleep (time : Duration) (next : Unit → Proc α)

namespace Proc

variable {α β ρ : Type}

def advance (around : (e : Effect) → ρ → e.Answer × ρ) :
    Proc α → Standing → ρ → Halt α × Standing × ρ
  | done a, σ, r => (.ended a, σ, r)
  | ask (.pause time) next, σ, r => (.asleep time next, σ, r)
  | ask .look next, σ, r => (next σ).advance around σ r
  | ask (.store σ) next, _, r => (next ()).advance around σ r
  | ask e next, σ, r => (next (around e r).1).advance around σ (around e r).2

variable {around : (e : Effect) → ρ → e.Answer × ρ} {p : Proc α} {σ σ' : Standing} {r r' : ρ}

/-- A procedure runs to its end by running up to its first sleep, sleeping, and running on. -/
theorem complete_eq (p : Proc α) (σ : Standing) (r : ρ) :
    p.complete around σ r =
      match p.advance around σ r with
      | (.ended a, σ', r') => (a, σ', r')
      | (.asleep time next, σ', r') =>
          (next (around (.pause time) r').1).complete around σ' (around (.pause time) r').2 := by
  induction p generalizing σ r with
  | done a => rfl
  | ask e next ih =>
      cases e with
      | pause time => rfl
      | call c | now | readingPast previous | look | store σ' | ticket | threadName | entropy
      | report event => exact ih _ _ _

theorem complete_of_ended {a : α} (h : p.advance around σ r = (.ended a, σ', r')) :
    p.complete around σ r = (a, σ', r') := by
  rw [complete_eq, h]

theorem complete_of_asleep {time : Duration} {next : Unit → Proc α}
    (h : p.advance around σ r = (.asleep time next, σ', r')) :
    p.complete around σ r =
      (next (around (.pause time) r').1).complete around σ' (around (.pause time) r').2 := by
  rw [complete_eq, h]

theorem advance_bind (p : Proc α) (f : α → Proc β) (σ : Standing) (r : ρ) :
    (p.bind f).advance around σ r =
      match p.advance around σ r with
      | (.ended a, σ', r') => (f a).advance around σ' r'
      | (.asleep time next, σ', r') => (.asleep time fun u => (next u).bind f, σ', r') := by
  induction p generalizing σ r with
  | done a => rfl
  | ask e next ih =>
      cases e with
      | pause time => rfl
      | call c | now | readingPast previous | look | store σ' | ticket | threadName | entropy
      | report event => exact ih _ _ _

theorem ended_of_bind_done {f : α → β} {b : β}
    (h : (p.bind fun a => .done (f a)).advance around σ r = (.ended b, σ', r')) :
    exists a, p.advance around σ r = (.ended a, σ', r') ∧ f a = b := by
  rw [advance_bind] at h
  rcases hp : p.advance around σ r with ⟨halt, σ₁, r₁⟩
  rw [hp] at h
  cases halt with
  | ended a =>
      cases h
      exact ⟨a, rfl, rfl⟩
  | asleep time next => cases h

theorem asleep_of_bind_done {f : α → β} {time : Duration} {next : Unit → Proc β}
    (h : (p.bind fun a => .done (f a)).advance around σ r = (.asleep time next, σ', r')) :
    exists next', p.advance around σ r = (.asleep time next', σ', r') ∧
      forall u, (next' u).bind (fun a => .done (f a)) = next u := by
  rw [advance_bind] at h
  rcases hp : p.advance around σ r with ⟨halt, σ₁, r₁⟩
  rw [hp] at h
  cases halt with
  | ended a => cases h
  | asleep time' next' =>
      cases h
      exact ⟨next', rfl, fun _ => rfl⟩

end Proc

namespace VirtualTime

structure World (ρ : Type) where
  /-- Milliseconds since some start. -/
  now : Nat
  store : Store
  events : List Event
  rest : ρ

namespace World

variable {ρ : Type}

def wakeTime (w : World ρ) (time : Duration) : Nat :=
  w.now + min time.millis Rehearsal.World.longestSleep

def later (w : World ρ) (time : Nat) : World ρ :=
  { w with now := w.now + time }

end World

structure Surroundings (ρ : Type) where
  answer : (e : Effect) → World ρ → e.Answer × ρ

def Surroundings.plain : Surroundings Unit where
  answer := fun e _ => (e.plain, ())

/-- Calls are answered by the store, sleeps take their time, and reports are written down. -/
def Surroundings.around {ρ : Type} (S : Surroundings ρ) :
    (e : Effect) → World ρ → e.Answer × World ρ
  | .call c, w => ((w.store.answer w.now c).1, { w with store := (w.store.answer w.now c).2 })
  | .pause time, w => ((), { w with now := w.wakeTime time })
  | .report event, w => ((), { w with events := event :: w.events })
  | e, w => ((S.answer e w).1, { w with rest := (S.answer e w).2 })

end VirtualTime
end Roster
