import Roster.Proofs.Interleaving.Proper

/-!
# What a thread is after

A procedure yields a result when it ends with it for some answers to what it asks.  The operation
that a thread pursues is told by the outcomes that it may still end with, so that one knows of any
cluster which operations are under way.
-/

namespace Roster
namespace Proc

inductive Yields {α : Type} : Proc α → α → Prop where
  | done (a : α) : Yields (.done a) a
  | ask {e : Effect} {next : e.Answer → Proc α} {a : α} (answer : e.Answer)
      (h : Yields (next answer) a) : Yields (.ask e next) a

variable {α β : Type}

theorem yields_done {a b : α} : (Proc.done a).Yields b ↔ a = b := by
  constructor
  · intro h
    cases h with
    | done a => rfl
  · rintro rfl
    exact .done a

theorem yields_ask {e : Effect} {next : e.Answer → Proc α} {a : α} :
    (Proc.ask e next).Yields a ↔ exists answer, (next answer).Yields a := by
  constructor
  · intro h
    cases h with
    | ask answer h => exact ⟨answer, h⟩
  · rintro ⟨answer, h⟩
    exact .ask answer h

theorem yields_bind {p : Proc α} {f : α → Proc β} {b : β} :
    (p.bind f).Yields b ↔ exists a, p.Yields a ∧ (f a).Yields b := by
  induction p with
  | done a =>
      constructor
      · intro h
        exact ⟨a, .done a, h⟩
      · rintro ⟨a', ha, h⟩
        cases yields_done.mp ha
        exact h
  | ask e next ih =>
      rw [ask_bind, yields_ask]
      constructor
      · rintro ⟨answer, h⟩
        rcases (ih answer).mp h with ⟨a, ha, hb⟩
        exact ⟨a, .ask answer ha, hb⟩
      · rintro ⟨a, ha, hb⟩
        rcases yields_ask.mp ha with ⟨answer, ha⟩
        exact ⟨answer, (ih answer).mpr ⟨a, ha, hb⟩⟩

theorem exists_answer (e : Effect) : Nonempty e.Answer := by
  cases e with
  | call c => exact ⟨.error (.unavailable "" "")⟩
  | pause time | store standing | report event => exact ⟨()⟩
  | now => exact ⟨.epoch⟩
  | readingPast previous => exact ⟨0⟩
  | look => exact ⟨{}⟩
  | ticket => exact ⟨0⟩
  | threadName => exact ⟨none⟩
  | entropy => exact ⟨[]⟩

theorem exists_yields (p : Proc α) : exists a, p.Yields a := by
  induction p with
  | done a => exact ⟨a, .done a⟩
  | ask e next ih =>
      rcases exists_answer e with ⟨answer⟩
      rcases ih answer with ⟨a, ha⟩
      exact ⟨a, .ask answer ha⟩

end Proc

namespace Interleaving

/-!
# Operations and their outcomes
-/

def Outcome.operation : Outcome → Operation
  | registered _ => .activate
  | beaten => .heartbeat
  | deregistered _ => .deactivate
  | issued _ => .uniqueId

theorem Operation.operation_of_yields {m : Member} {op : Operation} {outcome : Outcome}
    (h : (op.proc m).Yields outcome) : outcome.operation = op := by
  cases op with
  | activate | heartbeat | deactivate | uniqueId =>
      rcases Proc.yields_bind.mp h with ⟨result, _, h⟩
      cases Proc.yields_done.mp h
      rfl

def Task.Pursues (op : Operation) : Task → Prop
  | due p | waiting p => exists outcome, p.Yields outcome ∧ outcome.operation = op
  | finished _ => False

/-!
# Operations of the spots
-/

namespace Aim

def operation : Aim → Operation
  | register => .activate
  | renumber _ => .heartbeat

end Aim

namespace Exit

def operation : Exit → Operation
  | abandoning _ | late _ => .activate
  | quiet => .heartbeat

end Exit

namespace Spot

def operation : Spot → Operation
  | listing aim _ | staking aim _ _ | spreading aim _ _ | verifying aim _ _
  | backingOff aim _ _ _ => aim.operation
  | withdrawing exit => exit.operation
  | refreshing _ | checking _ | restoring _ => .heartbeat
  | removing => .deactivate

theorem registers_iff {s : Spot} : s.Registers ↔ s.operation = .activate := by
  have haim (aim : Aim) : aim = .register ↔ aim.operation = .activate := by
    cases aim with
    | register => exact ⟨fun _ => rfl, fun _ => rfl⟩
    | renumber old => exact ⟨fun h => (nomatch h), fun h => nomatch h⟩
  cases s with
  | listing aim round | staking aim round claim | spreading aim round claim
  | verifying aim round claim | backingOff aim round last time => exact haim aim
  | withdrawing exit =>
      cases exit with
      | abandoning e | late found => exact ⟨fun _ => rfl, fun _ h => nomatch h⟩
      | quiet => exact ⟨fun h => absurd rfl h, fun h => nomatch h⟩
  | refreshing claim | checking claim | restoring claim | removing =>
      exact ⟨fun h => h.elim, fun h => nomatch h⟩

end Spot

section

variable {m : Member} {aim : Aim} {outcome : Outcome}

theorem operation_of_finish {result : Except Error Settled}
    (h : (aim.finish m result).Yields outcome) : outcome.operation = aim.operation := by
  cases aim with
  | register | renumber old =>
      rcases Proc.yields_bind.mp h with ⟨_, _, h⟩
      cases Proc.yields_done.mp h
      rfl

theorem operation_of_settled {result : Except Error Registration}
    (h : (aim.settled m result).Yields outcome) : outcome.operation = aim.operation := by
  cases result with
  | error e => exact operation_of_finish h
  | ok claim =>
      unfold Aim.settled at h
      dsimp only at h
      cases hsettled : Settled.ofClaim? claim with
      | none =>
          rw [hsettled] at h
          exact operation_of_finish h
      | some settled =>
          rw [hsettled] at h
          exact operation_of_finish h

theorem operation_of_rounds {attempt remaining : Nat} {last : Option RegistryError}
    (h : (aim.rounds m attempt last remaining).Yields outcome) :
    outcome.operation = aim.operation := by
  rcases Proc.yields_bind.mp h with ⟨_, _, h⟩
  exact operation_of_settled h

theorem operation_of_concluded {round : Round} {result : Except Error (Option Registration)}
    (h : (aim.concluded m round result).Yields outcome) :
    outcome.operation = aim.operation := by
  rcases Proc.yields_bind.mp h with ⟨_, _, h⟩
  exact operation_of_settled h

theorem operation_of_leave {exit : Exit} (h : exit.leave.Yields outcome) :
    outcome.operation = exit.operation := by
  cases exit with
  | abandoning e =>
      rcases Proc.yields_bind.mp h with ⟨_, _, h⟩
      cases Proc.yields_done.mp h
      rfl
  | late found | quiet =>
      cases Proc.yields_done.mp h
      rfl

theorem operation_of_next {s : Spot} {reply : s.Reply} (h : (s.next m reply).Yields outcome) :
    outcome.operation = s.operation := by
  have hbeat {α : Type} {p : Proc α} (h : (p.bind fun _ => .done .beaten).Yields outcome) :
      outcome.operation = .heartbeat := by
    rcases Proc.yields_bind.mp h with ⟨_, _, h⟩
    cases Proc.yields_done.mp h
    rfl
  cases s with
  | listing aim round =>
      cases reply with
      | error e => exact operation_of_concluded h
      | ok live =>
          rcases Proc.yields_bind.mp h with ⟨_, _, h⟩
          rcases Proc.yields_bind.mp h with ⟨_, _, h⟩
          exact operation_of_concluded h
  | staking aim round claim =>
      cases reply with
      | error e => exact operation_of_concluded h
      | ok previous =>
          rcases Proc.yields_bind.mp h with ⟨_, _, h⟩
          exact operation_of_concluded h
  | spreading aim round claim =>
      rcases Proc.yields_bind.mp h with ⟨result, _, h⟩
      cases result with
      | error e => exact operation_of_concluded h
      | ok _ =>
          rcases Proc.yields_bind.mp h with ⟨_, _, h⟩
          exact operation_of_concluded h
  | verifying aim round claim =>
      cases reply with
      | error e => exact operation_of_concluded h
      | ok live =>
          unfold Spot.next at h
          dsimp only at h
          cases hverdict : Numbering.verdict claim live with
          | unique | wonTieBreak | lost =>
              rw [hverdict] at h
              exact operation_of_concluded h
  | backingOff aim round last time => exact operation_of_rounds h
  | withdrawing exit =>
      cases reply with
      | error e =>
          rcases Proc.yields_bind.mp h with ⟨_, _, h⟩
          exact operation_of_leave h
      | ok previous => exact operation_of_leave h
  | refreshing claim =>
      cases reply with
      | error e => exact hbeat h
      | ok previous =>
          rcases Proc.yields_bind.mp h with ⟨_, _, h⟩
          rcases Proc.yields_bind.mp h with ⟨_, _, h⟩
          exact hbeat h
  | checking claim =>
      cases reply with
      | error e => exact hbeat h
      | ok live => exact hbeat h
  | restoring claim =>
      cases reply with
      | error e => exact hbeat h
      | ok previous =>
          rcases Proc.yields_bind.mp h with ⟨_, _, h⟩
          exact hbeat h
  | removing =>
      cases reply with
      | error e =>
          cases Proc.yields_done.mp h
          rfl
      | ok previous =>
          rcases Proc.yields_bind.mp h with ⟨_, _, h⟩
          cases Proc.yields_done.mp h
          rfl

end

def Task.Belongs (op : Operation) (task : Task) : Prop :=
  task.Pursues op ∨ exists outcome, task = .finished outcome ∧ outcome.operation = op

theorem pursues_task {m : Member} {op : Operation} {stage : Stage} :
    (stage.task m).Pursues op ↔ exists s, stage.spot? = some s ∧ s.operation = op := by
  cases stage with
  | waiting s =>
      constructor
      · rintro ⟨outcome, h, rfl⟩
        rcases Proc.yields_ask.mp h with ⟨answer, h⟩
        exact ⟨s, rfl, (operation_of_next h).symm⟩
      · rintro ⟨s', hs, rfl⟩
        cases hs
        rcases (s.proc m).exists_yields with ⟨outcome, h⟩
        rcases Proc.yields_ask.mp h with ⟨answer, hnext⟩
        exact ⟨outcome, h, operation_of_next hnext⟩
  | due s reply =>
      constructor
      · rintro ⟨outcome, h, rfl⟩
        exact ⟨s, rfl, (operation_of_next h).symm⟩
      · rintro ⟨s', hs, rfl⟩
        cases hs
        rcases (s.next m reply).exists_yields with ⟨outcome, h⟩
        exact ⟨outcome, h, operation_of_next h⟩
  | finished outcome =>
      constructor
      · exact fun h => h.elim
      · rintro ⟨s, hs, _⟩
        cases hs

/-!
# Threads keep to their operations
-/

section

variable {ι ω : Type} {S : Setting ι ω} {i : ι} {σ σ' : Standing} {w w' : ω} {stage : Stage}
  {s s' : Spot}

theorem Turn.yields {p q : Proc Outcome} (h : Turn S i p σ w (.waiting q) σ' w')
    {outcome : Outcome} (hq : q.Yields outcome) : p.Yields outcome := by
  generalize htask : Task.waiting q = task at h
  induction h with
  | finish => cases htask
  | call | pause =>
      cases htask
      exact hq
  | look h ih | store h ih | report h ih | now hread h ih | readingPast hread h ih | entropy h ih
  | ticket h ih | threadName h ih => exact .ask _ (ih htask)

theorem operation_of_turn {p : Proc Outcome} {op : Operation}
    (hp : forall outcome, p.Yields outcome -> outcome.operation = op)
    (h : Turn S i p σ w (stage.task (S.member i)) σ' w')
    (hdue : forall s (reply : s.Reply), stage ≠ .due s reply) (hs : stage.spot? = some s) :
    s.operation = op := by
  cases stage with
  | waiting s' =>
      cases hs
      rcases (s.proc (S.member i)).exists_yields with ⟨outcome, houtcome⟩
      have hbefore := hp outcome (h.yields houtcome)
      rcases Proc.yields_ask.mp houtcome with ⟨answer, hnext⟩
      exact (operation_of_next hnext).symm.trans hbefore
  | due s' reply => exact absurd rfl (hdue s' reply)
  | finished outcome => cases hs

theorem Resumes.operation_eq {reply : s.Reply} (h : Resumes S i σ w s reply stage σ' w')
    (hs' : stage.spot? = some s') : s'.operation = s.operation :=
  operation_of_turn (fun _ => operation_of_next) h.turn (fun _ => h.ne_due) hs'

theorem Begins.operation_eq {op : Operation} (h : Begins S i σ w op stage σ' w')
    (hs' : stage.spot? = some s') : s'.operation = op :=
  operation_of_turn (fun _ => Operation.operation_of_yields) h.turn (fun _ => h.ne_due) hs'

theorem Turn.yields_finished {p : Proc Outcome} {outcome : Outcome}
    (h : Turn S i p σ w (.finished outcome) σ' w') : p.Yields outcome := by
  generalize htask : Task.finished outcome = task at h
  induction h with
  | finish =>
      cases htask
      exact .done outcome
  | call | pause => cases htask
  | look h ih | store h ih | report h ih | now hread h ih | readingPast hread h ih | entropy h ih
  | ticket h ih | threadName h ih => exact .ask _ (ih htask)

def Stage.operation : Stage → Operation
  | waiting s | due s _ => s.operation
  | finished outcome => outcome.operation

theorem belongs_task {m : Member} {op : Operation} :
    (stage.task m).Belongs op ↔ stage.operation = op := by
  cases stage with
  | waiting s | due s reply =>
      constructor
      · rintro (hpursues | ⟨_, hfinished, _⟩)
        · rcases pursues_task.mp hpursues with ⟨s', hs, hop⟩
          cases hs
          exact hop
        · cases hfinished
      · exact fun hop => Or.inl (pursues_task.mpr ⟨s, rfl, hop⟩)
  | finished outcome =>
      constructor
      · rintro (hpursues | ⟨_, hfinished, hop⟩)
        · exact hpursues.elim
        · cases hfinished
          exact hop
      · exact fun hop => Or.inr ⟨outcome, rfl, hop⟩

theorem Stage.operation_eq_heartbeat {m : Member} :
    stage.operation = .heartbeat ↔
      (stage.task m).Pursues .heartbeat ∨ stage.task m = .finished .beaten := by
  rw [← belongs_task (m := m)]
  refine or_congr_right ⟨?_, fun hbeaten => ⟨_, hbeaten, rfl⟩⟩
  rintro ⟨outcome, htask, hop⟩
  cases outcome with
  | beaten => exact htask
  | registered result | deregistered result | issued result => cases hop

theorem Resumes.stage_operation {reply : s.Reply} (h : Resumes S i σ w s reply stage σ' w') :
    stage.operation = s.operation := by
  cases stage with
  | waiting s' => exact h.operation_eq rfl
  | due s' reply' => exact absurd rfl (h.ne_due reply')
  | finished outcome => exact operation_of_next h.turn.yields_finished

theorem Begins.stage_operation {op : Operation} (h : Begins S i σ w op stage σ' w') :
    stage.operation = op := by
  cases stage with
  | waiting s => exact h.operation_eq rfl
  | due s reply => exact absurd rfl (h.ne_due reply)
  | finished outcome => exact Operation.operation_of_yields h.turn.yields_finished

end

theorem operation_of_moves {ι ω : Type} [DecidableEq ι] {S : Setting ι ω}
    {c c' : Cluster ι ω Stage} (hmove : Moves S c c') {n : Nat} {t : Thread ι ω Stage}
    (ht : c.threads n = some t) :
    exists t', c'.threads n = some t' ∧ t'.task.operation = t.task.operation := by
  rcases persists_of_moves hmove ht with ⟨t', ht'⟩
  refine ⟨t', ht', ?_⟩
  cases arrives_of_moves hmove ht' with
  | stay hu =>
      cases hu.symm.trans ht
      rfl
  | start hfresh _ _ => cases hfresh.symm.trans ht
  | call hu htask _ _ _ _ _ | wake hu htask _ _ _ _ _ =>
      cases hu.symm.trans ht
      exact (congrArg Stage.operation htask).symm
  | turn hu htask _ hresume =>
      cases hu.symm.trans ht
      exact hresume.stage_operation.trans (congrArg Stage.operation htask).symm

end Interleaving
end Roster
