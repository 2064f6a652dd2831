import Roster.Proofs.Interleaving.Hearing
import Roster.Proofs.Registry.Shelf
import Roster.Proofs.Settling.Bounds
import Roster.Proofs.VirtualTime.World

/-!
# Clusters over a store

A setting refines another one when whatever may happen in it may happen in the other one to what is
seen of its world.  Then the runs of the one are seen as runs of the other.

Members over a store in memory, in which values may live for a limited time and which may be switched
off and on, are seen as members whose registry may fail and whose entries may lapse.
-/

namespace Roster
namespace Interleaving

variable {ι ω ρ : Type}

/-!
# What is seen of a cluster
-/

def Thread.viewed {τ : Type} (view : ω → ρ) (t : Thread ι ω τ) : Thread ι ρ τ where
  owner := t.owner
  task := t.task
  last := view t.last

def Cluster.viewed {τ : Type} (view : ω → ρ) (c : Cluster ι ω τ) : Cluster ι ρ τ where
  world := view c.world
  standing := c.standing
  threads := fun n => (c.threads n).map (Thread.viewed view)

theorem Cluster.viewed_moved [DecidableEq ι] {τ : Type} (view : ω → ρ) (c : Cluster ι ω τ) (n : Nat)
    (t : Thread ι ω τ) (σ : Standing) (w : ω) :
    (c.moved n t σ w).viewed view = (c.viewed view).moved n (t.viewed view) σ (view w) := by
  have hthreads : (fun k => (Function.update c.threads n (some t) k).map (Thread.viewed view)) =
      Function.update (fun k => (c.threads k).map (Thread.viewed view)) n (some (t.viewed view)) := by
    funext k
    by_cases hk : k = n
    · rw [hk, Function.update_self, Function.update_self]
      rfl
    · rw [Function.update_of_ne hk, Function.update_of_ne hk]
  exact congrArg (Cluster.mk (view w) (Function.update c.standing t.owner σ)) hthreads

/-!
# Refinement
-/

/-- Whatever may happen in a setting may happen, as far as it is seen, in another one. -/
structure Refines (S : Setting ι ω) (T : Setting ι ρ) (view : ω → ρ) : Prop where
  member : S.member = T.member
  answers : forall {i w e answer w'}, S.answers i w e answer w' ->
    T.answers i (view w) e answer (view w')
  notes : forall w event, view (S.notes w event) = T.notes (view w) event
  drifts : forall {w w'}, S.drifts w w' -> T.drifts (view w) (view w')
  permits : forall {c move}, S.permits c move -> T.permits (c.viewed view) move

namespace Refines

variable {S : Setting ι ω} {T : Setting ι ρ} {view : ω → ρ}

theorem turn (h : Refines S T view) {i : ι} {p : Proc Outcome} {σ σ' : Standing} {w w' : ω}
    {task : Task} (hturn : Turn S i p σ w task σ' w') :
    Turn T i p σ (view w) task σ' (view w') := by
  induction hturn with
  | finish => exact .finish
  | call => exact .call
  | pause => exact .pause
  | look _ ih => exact .look ih
  | store _ ih => exact .store ih
  | report _ ih =>
      rw [h.notes] at ih
      exact .report ih
  | now hread _ ih => exact .now (h.answers hread) ih
  | readingPast hread _ ih => exact .readingPast (h.answers hread) ih
  | entropy _ ih => exact .entropy ih
  | ticket _ ih => exact .ticket ih
  | threadName _ ih => exact .threadName ih

variable [DecidableEq ι] {c d : Cluster ι ω Task}

theorem step (h : Refines S T view) (hstep : Step S c d) : Step T (c.viewed view) (d.viewed view) := by
  have hseen {n : Nat} {t : Thread ι ω Task} (ht : c.threads n = some t) :
      (c.viewed view).threads n = some (t.viewed view) := congrArg (Option.map _) ht
  cases hstep with
  | start hfresh hpermits hturn =>
      rw [h.member] at hturn
      rw [Cluster.viewed_moved]
      exact .start (congrArg (Option.map _) hfresh) (h.permits hpermits) (h.turn hturn)
  | call ht htask hpermits hanswer =>
      rw [Cluster.viewed_moved]
      exact .call (hseen ht) htask (h.permits hpermits) (h.answers hanswer)
  | wake ht htask hpermits =>
      rw [Cluster.viewed_moved]
      exact .wake (hseen ht) htask (h.permits hpermits)
  | turn ht htask hpermits hturn =>
      rw [Cluster.viewed_moved]
      exact .turn (hseen ht) htask (h.permits hpermits) (h.turn hturn)
  | drift hpermits hdrift => exact .drift (h.permits hpermits) (h.drifts hdrift)

theorem runs (h : Refines S T view) (hruns : Runs S c d) :
    Runs T (c.viewed view) (d.viewed view) :=
  Relation.ReflTransGen.lift (Cluster.viewed view) (fun _ _ hstep => h.step hstep) _ _ hruns

end Refines
end Interleaving

/-!
# Members over a store
-/

namespace Bounds

open Interleaving

variable {ι ρ : Type}

/-- Calls are answered by the store, at the time at which they take effect.  Between steps time may
pass, and the store may be switched off and on. -/
def overStore (F : Fleet ι) : Setting ι (VirtualTime.World ρ) where
  member := F.member
  answers := fun _ w e answer w' =>
    match e, answer with
    | .call c, answer =>
        w.store.answer w.now c = (answer, w'.store) ∧ w'.now = w.now ∧ w'.events = w.events
    | .now, _ | .readingPast _, _ => exists rest, w' = { w with rest }
    | _, _ => False
  notes := fun w event => { w with events := event :: w.events }
  drifts := fun w w' => w.now ≤ w'.now ∧ w'.events = w.events ∧
    exists available, w'.store = { w.store with available }
  permits := fun _ _ => True

def seen (w : VirtualTime.World ρ) : World :=
  ⟨w.store.visible w.now, w.events⟩

theorem refines_overStore (F : Fleet ι) : Refines (overStore F) (setting F) (seen (ρ := ρ)) where
  member := rfl
  answers := by
    intro i w e answer w' h
    cases e with
    | call c =>
        rcases h with ⟨hanswer, hnow, hevents⟩
        refine ⟨?_, hevents⟩
        change (w.store.visible w.now).Answers c answer (w'.store.visible w'.now)
        rw [hnow]
        exact Store.answers_visible hanswer
    | now | readingPast previous =>
        rcases h with ⟨rest, rfl⟩
        rfl
    | pause time | look | store σ | ticket | threadName | entropy | report event => exact h
  notes := fun _ _ => rfl
  drifts := by
    rintro w w' ⟨hnow, hevents, available, hstore⟩
    refine ⟨?_, hevents⟩
    change (w.store.visible w.now).Lapses F.region (w'.store.visible w'.now)
    rw [hstore]
    exact Store.visible_lapses w.store hnow F.region
  permits := fun _ => trivial

/-- Members that run over a store are seen to run with a history, in a registry that may fail and in
which entries may lapse. -/
theorem exists_hears_of_overStore [DecidableEq ι] (F : Fleet ι) {w : VirtualTime.World ρ}
    {c : Cluster ι (VirtualTime.World ρ) Task} (hrun : Runs (overStore F) (.initial w) c) :
    exists told, Hears (setting F) (.initial (seen w)) told (c.viewed seen) :=
  exists_hears ((refines_overStore F).runs hrun)

end Bounds
end Roster
