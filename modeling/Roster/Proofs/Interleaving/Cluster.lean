import Mathlib.Logic.Function.Basic
import Mathlib.Logic.Relation
import Roster.Member

/-!
# Clusters that run operations in any order

The members of a cluster run any number of operations at once, each in a thread of its own.  A
thread that is due runs without interruption up to its next call to the registry or its next
pause, and waits there.  The call takes effect in a step of its own, and what the thread does with
the answer is another step, so that other threads may run before the call, and between the call
and what follows it.

What calls and clocks answer is left open, and so is the world that the members share: a setting
says what may happen in it.
-/

namespace Roster
namespace Interleaving

/-!
# Operations
-/

inductive Operation where
  | activate
  | heartbeat
  | deactivate
  | uniqueId
deriving Repr, DecidableEq

inductive Outcome where
  | registered (result : Except Error UInt32)
  | beaten
  | deregistered (result : Except Error Unit)
  | issued (result : Except Error UniqueId)

def Operation.proc (m : Member) : Operation → Proc Outcome
  | activate => m.activate.bind fun result => .done (.registered result)
  | heartbeat => m.heartbeat.bind fun _ => .done .beaten
  | deactivate => m.deactivate.bind fun result => .done (.deregistered result)
  | uniqueId => Member.uniqueId.bind fun result => .done (.issued result)

inductive Task where
  | due (p : Proc Outcome)
  | waiting (p : Proc Outcome)
  | finished (outcome : Outcome)

/-!
# Clusters
-/

structure Thread (ι ω τ : Type) where
  owner : ι
  task : τ
  /-- The world after the last call of the thread, or after its start. -/
  last : ω

/-- Members with what they share; threads go by numbers. -/
structure Cluster (ι ω τ : Type) where
  world : ω
  standing : ι → Standing
  threads : Nat → Option (Thread ι ω τ)

namespace Cluster

variable {ι ω τ : Type}

def initial (w : ω) : Cluster ι ω τ where
  world := w
  standing := fun _ => {}
  threads := fun _ => none

/-- The cluster after a thread has moved, with the standing of its owner. -/
def moved [DecidableEq ι] (c : Cluster ι ω τ) (n : Nat) (t : Thread ι ω τ) (standing : Standing)
    (w : ω) : Cluster ι ω τ where
  world := w
  standing := Function.update c.standing t.owner standing
  threads := Function.update c.threads n (some t)

theorem world_moved [DecidableEq ι] (c : Cluster ι ω τ) (n : Nat) (t : Thread ι ω τ)
    (σ : Standing) (w : ω) : (c.moved n t σ w).world = w := rfl

theorem standing_moved [DecidableEq ι] (c : Cluster ι ω τ) {n : Nat} {t : Thread ι ω τ}
    {σ : Standing} {w : ω} (i : ι) :
    (i = t.owner ∧ (c.moved n t σ w).standing i = σ) ∨
      (i ≠ t.owner ∧ (c.moved n t σ w).standing i = c.standing i) := by
  by_cases hi : i = t.owner
  · exact Or.inl ⟨hi, by rw [hi]; exact Function.update_self t.owner σ c.standing⟩
  · exact Or.inr ⟨hi, by simp [moved, hi]⟩

theorem standing_kept [DecidableEq ι] (c : Cluster ι ω τ) (n : Nat) (t : Thread ι ω τ) (w : ω) :
    (c.moved n t (c.standing t.owner) w).standing = c.standing :=
  Function.update_eq_self t.owner c.standing

theorem thread_moved [DecidableEq ι] {c : Cluster ι ω τ} {n k : Nat} {t u : Thread ι ω τ}
    {σ : Standing} {w : ω} (h : (c.moved n t σ w).threads k = some u) :
    (k = n ∧ u = t) ∨ (k ≠ n ∧ c.threads k = some u) := by
  by_cases hk : k = n
  · rw [hk] at h
    exact Or.inl ⟨hk, by simpa [moved] using h.symm⟩
  · exact Or.inr ⟨hk, by simpa [moved, Function.update_of_ne hk] using h⟩

end Cluster

inductive Move where
  | start (n : Nat)
  | call (n : Nat) (succeeds : Bool)
  | wake (n : Nat)
  | turn (n : Nat)
  | drift
deriving Repr, DecidableEq

def Move.thread? : Move → Option Nat
  | start n | call n _ | wake n | turn n => some n
  | drift => none

def succeeds : (e : Effect) → e.Answer → Bool
  | .call _, answer => answer.isOk
  | _, _ => true

/-- What may happen around the members `ι` in a world of `ω`. -/
structure Setting (ι ω : Type) where
  member : ι → Member
  /-- Whether a call or a clock may answer a member so, leaving the world so. -/
  answers : ι → ω → (e : Effect) → e.Answer → ω → Prop
  notes : ω → Event → ω
  /-- What the world may become by itself. -/
  drifts : ω → ω → Prop
  /-- Whether the cluster may move so. -/
  permits : Cluster ι ω Task → Move → Prop

variable {ι ω : Type}

/-!
# Steps
-/

/-- A thread of a member runs up to its next wait. -/
inductive Turn (S : Setting ι ω) (i : ι) :
    Proc Outcome → Standing → ω → Task → Standing → ω → Prop where
  | finish {outcome σ w} : Turn S i (.done outcome) σ w (.finished outcome) σ w
  | call {c next σ w} :
      Turn S i (.ask (.call c) next) σ w (.waiting (.ask (.call c) next)) σ w
  | pause {time next σ w} :
      Turn S i (.ask (.pause time) next) σ w (.waiting (.ask (.pause time) next)) σ w
  | look {next : Standing → Proc Outcome} {σ w task σ' w'}
      (h : Turn S i (next σ) σ w task σ' w') : Turn S i (.ask .look next) σ w task σ' w'
  | store {next : Unit → Proc Outcome} {standing σ w task σ' w'}
      (h : Turn S i (next ()) standing w task σ' w') :
      Turn S i (.ask (.store standing) next) σ w task σ' w'
  | report {next : Unit → Proc Outcome} {event σ w task σ' w'}
      (h : Turn S i (next ()) σ (S.notes w event) task σ' w') :
      Turn S i (.ask (.report event) next) σ w task σ' w'
  | now {next : Instant → Proc Outcome} {t σ w w₁ task σ' w'}
      (hread : S.answers i w .now t w₁) (h : Turn S i (next t) σ w₁ task σ' w') :
      Turn S i (.ask .now next) σ w task σ' w'
  | readingPast {previous} {next : Int → Proc Outcome} {reading σ w w₁ task σ' w'}
      (hread : S.answers i w (.readingPast previous) reading w₁)
      (h : Turn S i (next reading) σ w₁ task σ' w') :
      Turn S i (.ask (.readingPast previous) next) σ w task σ' w'
  | entropy {next : List UInt64 → Proc Outcome} {words σ w task σ' w'}
      (h : Turn S i (next words) σ w task σ' w') : Turn S i (.ask .entropy next) σ w task σ' w'
  | ticket {next : UInt64 → Proc Outcome} {number σ w task σ' w'}
      (h : Turn S i (next number) σ w task σ' w') : Turn S i (.ask .ticket next) σ w task σ' w'
  | threadName {next : Option String → Proc Outcome} {name σ w task σ' w'}
      (h : Turn S i (next name) σ w task σ' w') :
      Turn S i (.ask .threadName next) σ w task σ' w'

inductive Step [DecidableEq ι] (S : Setting ι ω) (c : Cluster ι ω Task) :
    Cluster ι ω Task → Prop where
  | start {n i} {op : Operation} {task σ w} (hfresh : c.threads n = none)
      (hpermits : S.permits c (.start n))
      (hturn : Turn S i (op.proc (S.member i)) (c.standing i) c.world task σ w) :
      Step S c (c.moved n ⟨i, task, w⟩ σ w)
  | call {n t e next a w} (ht : c.threads n = some t)
      (htask : t.task = .waiting (.ask (.call e) next))
      (hpermits : S.permits c (.call n (succeeds (.call e) a)))
      (hanswer : S.answers t.owner c.world (.call e) a w) :
      Step S c (c.moved n ⟨t.owner, .due (next a), w⟩ (c.standing t.owner) w)
  | wake {n t time next} (ht : c.threads n = some t)
      (htask : t.task = .waiting (.ask (.pause time) next)) (hpermits : S.permits c (.wake n)) :
      Step S c (c.moved n ⟨t.owner, .due (next ()), t.last⟩ (c.standing t.owner) c.world)
  | turn {n t p task σ w} (ht : c.threads n = some t) (htask : t.task = .due p)
      (hpermits : S.permits c (.turn n))
      (hturn : Turn S t.owner p (c.standing t.owner) c.world task σ w) :
      Step S c (c.moved n ⟨t.owner, task, t.last⟩ σ w)
  | drift {w} (hpermits : S.permits c .drift) (hdrift : S.drifts c.world w) :
      Step S c { c with world := w }

def Runs [DecidableEq ι] (S : Setting ι ω) : Cluster ι ω Task → Cluster ι ω Task → Prop :=
  Relation.ReflTransGen (Step S)

end Interleaving
end Roster
