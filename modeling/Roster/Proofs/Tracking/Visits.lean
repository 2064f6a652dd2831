import Mathlib.Logic.Relation
import Roster.Proofs.Registry.Contents
import Roster.Proofs.Tracking.Procedures

/-!
# Visits

Trackers that share a region of the registry serve any number of requests and lookups at once.  Each
is a visit with a procedure of its own, and any visit may take the next step.  Calls take effect at
once and do not fail, nobody else writes the region, and all trackers read one clock.
-/

namespace Roster
namespace Tracking

structure World where
  contents : Contents
  clock : Instant
  puts : String → Nat

def World.called (w : World) (contents : Contents) : Call → World
  | .put _ key _ => { w with contents, puts := Function.update w.puts key (w.puts key + 1) }
  | _ => { w with contents }

def World.Tells (w : World) : (e : Effect) → e.Answer → Prop
  | .call _, _ => False
  | .now, t => t = w.clock
  | _, _ => True

structure Visit (ι : Type) where
  owner : ι
  task : Proc Result
  /-- The world after the last call of the visit, or after its start. -/
  last : World

structure Traffic (ι : Type) where
  world : World
  visits : Nat → Option (Visit ι)

namespace Traffic

variable {ι : Type}

def initial (w : World) : Traffic ι where
  world := w
  visits := fun _ => none

def moved (c : Traffic ι) (n : Nat) (v : Visit ι) (w : World) : Traffic ι where
  world := w
  visits := Function.update c.visits n (some v)

theorem moved_moved (c : Traffic ι) (n : Nat) (v u : Visit ι) (w w' : World) :
    (c.moved n v w).moved n u w' = c.moved n u w' := by
  unfold moved
  rw [Function.update_idem]

theorem visit_moved {c : Traffic ι} {n k : Nat} {v u : Visit ι} {w : World}
    (h : (c.moved n v w).visits k = some u) :
    (k = n ∧ u = v) ∨ (k ≠ n ∧ c.visits k = some u) := by
  by_cases hk : k = n
  · rw [hk] at h
    exact Or.inl ⟨hk, by simpa [moved] using h.symm⟩
  · exact Or.inr ⟨hk, by simpa [moved, Function.update_of_ne hk] using h⟩

end Traffic

section

variable {ι : Type} (T : ι → Tracker)

inductive Step (c : Traffic ι) : Traffic ι → Prop where
  | start {n i} (job : Job) (hfresh : c.visits n = none) :
      Step c (c.moved n ⟨i, job.proc (T i), c.world⟩ c.world)
  | call {n v q next value contents} (hv : c.visits n = some v)
      (htask : v.task = .ask (.call q) next)
      (hanswer : c.world.contents.Answers q (.ok value) contents) :
      Step c (c.moved n ⟨v.owner, next (.ok value), c.world.called contents q⟩
        (c.world.called contents q))
  | ask {n v e next answer} (hv : c.visits n = some v) (htask : v.task = .ask e next)
      (htells : c.world.Tells e answer) :
      Step c (c.moved n ⟨v.owner, next answer, v.last⟩ c.world)
  | tick {clock} (hclock : c.world.clock ≤ clock) :
      Step c { c with world := { c.world with clock } }

def Runs : Traffic ι → Traffic ι → Prop :=
  Relation.ReflTransGen (Step T)

/-- The traffic that steps lead to while the clock shows no leap second. -/
def OrdinaryRuns : Traffic ι → Traffic ι → Prop :=
  Relation.ReflTransGen fun c c' => Step T c c' ∧ c'.world.clock.isLeapSecond = false

variable {T} {c : Traffic ι} {n : Nat} {v : Visit ι} {w : World}

theorem step_call {q : Call} {next : (Effect.call q).Answer → Proc Result} {value : q.Answer}
    {contents : Contents} (htask : v.task = .ask (.call q) next)
    (hanswer : w.contents.Answers q (.ok value) contents) :
    Step T (c.moved n v w) (c.moved n ⟨v.owner, next (.ok value), w.called contents q⟩
      (w.called contents q)) := by
  rw [← c.moved_moved n v ⟨v.owner, next (.ok value), w.called contents q⟩ w]
  exact .call (c := c.moved n v w) (Function.update_self ..) htask hanswer

theorem step_ask {e : Effect} {next : e.Answer → Proc Result} {answer : e.Answer}
    (htask : v.task = .ask e next) (htells : w.Tells e answer) :
    Step T (c.moved n v w) (c.moved n ⟨v.owner, next answer, v.last⟩ w) := by
  rw [← c.moved_moved n v ⟨v.owner, next answer, v.last⟩ w]
  exact .ask (c := c.moved n v w) (Function.update_self ..) htask htells

end

end Tracking
end Roster
