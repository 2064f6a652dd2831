import Roster.Proc

/-!
# Procedures that run to their end

A procedure of one member runs to its end when nobody else moves.  It looks at the standing of its
member and stores it; whatever else it asks for is answered by its surroundings.
-/

namespace Roster

def Effect.plain : (e : Effect) → e.Answer
  | .call c => .error (.unavailable c.region "")
  | .pause _ | .store _ | .report _ => ()
  | .now => .epoch
  | .readingPast _ => 0
  | .look => {}
  | .ticket => 0
  | .threadName => none
  | .entropy => []

namespace Proc

variable {α β ρ : Type}

/-- Runs a procedure from a standing, in surroundings that change as they answer. -/
def complete (around : (e : Effect) → ρ → e.Answer × ρ) : Proc α → Standing → ρ → α × Standing × ρ
  | done a, σ, r => (a, σ, r)
  | ask .look next, σ, r => (next σ).complete around σ r
  | ask (.store σ) next, _, r => (next ()).complete around σ r
  | ask e next, σ, r => (next (around e r).1).complete around σ (around e r).2

variable {around : (e : Effect) → ρ → e.Answer × ρ} {σ : Standing} {r : ρ}

theorem complete_bind (p : Proc α) (f : α → Proc β) :
    (p.bind f).complete around σ r =
      (f (p.complete around σ r).1).complete around (p.complete around σ r).2.1
        (p.complete around σ r).2.2 := by
  induction p generalizing σ r with
  | done a => rfl
  | ask e next ih =>
      cases e with
      | call c | pause time | now | readingPast previous | look | store σ' | ticket | threadName
      | entropy | report event => exact ih _

end Proc
end Roster
