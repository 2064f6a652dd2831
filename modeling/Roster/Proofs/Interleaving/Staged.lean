import Roster.Proofs.Interleaving.Resume

/-!
# Clusters at spots

The threads of a cluster that starts with none are at spots throughout.  A staged cluster names the
spots; its moves are the steps of the cluster it stands for, so that what holds along all moves
holds along all runs.
-/

namespace Roster
namespace Interleaving

variable {ι ω : Type}

namespace Spot

/-- Whether the thread waits for a pause to end, and not for a call. -/
def pauses : Spot → Bool
  | spreading _ _ _ | backingOff _ _ _ _ => true
  | _ => false

end Spot

def Thread.enacted (S : Setting ι ω) (t : Thread ι ω Stage) : Thread ι ω Task where
  owner := t.owner
  task := t.task.task (S.member t.owner)
  last := t.last

def Cluster.enacted (S : Setting ι ω) (c : Cluster ι ω Stage) : Cluster ι ω Task where
  world := c.world
  standing := c.standing
  threads := fun n => (c.threads n).map (Thread.enacted S)

/-!
# Moves
-/

inductive Moves [DecidableEq ι] (S : Setting ι ω) (c : Cluster ι ω Stage) :
    Cluster ι ω Stage → Prop where
  | start {n i op stage σ w} (hfresh : c.threads n = none)
      (hpermits : S.permits (c.enacted S) (.start n))
      (hbegin : Begins S i (c.standing i) c.world op stage σ w) :
      Moves S c (c.moved n ⟨i, stage, w⟩ σ w)
  | call {n t s w} (ht : c.threads n = some t) (htask : t.task = .waiting s)
      (hcall : s.pauses = false) (answer : (s.effect (S.member t.owner)).Answer)
      (hpermits : S.permits (c.enacted S) (.call n (succeeds _ answer)))
      (hanswer : S.answers t.owner c.world (s.effect (S.member t.owner)) answer w) :
      Moves S c (c.moved n ⟨t.owner, .due s (s.reply (S.member t.owner) answer), w⟩
        (c.standing t.owner) w)
  | wake {n t s} (ht : c.threads n = some t) (htask : t.task = .waiting s)
      (hpermits : S.permits (c.enacted S) (.wake n)) (hpause : s.pauses = true)
      (reply : s.Reply) :
      Moves S c (c.moved n ⟨t.owner, .due s reply, t.last⟩ (c.standing t.owner) c.world)
  | turn {n t s reply stage σ w} (ht : c.threads n = some t) (htask : t.task = .due s reply)
      (hpermits : S.permits (c.enacted S) (.turn n))
      (hresume : Resumes S t.owner (c.standing t.owner) c.world s reply stage σ w) :
      Moves S c (c.moved n ⟨t.owner, stage, t.last⟩ σ w)
  | drift {w} (hpermits : S.permits (c.enacted S) .drift) (hdrift : S.drifts c.world w) :
      Moves S c { c with world := w }

/-!
# What a move does to one thread and to one member

Whichever thread moves, a thread stays as it is or has made the move itself, and so it is with the
standing of a member.
-/

section

variable {S : Setting ι ω} {c c' : Cluster ι ω Stage}

/-- How a thread has come to be what it is after a move. -/
inductive Arrives (S : Setting ι ω) (c c' : Cluster ι ω Stage) (n : Nat) :
    Thread ι ω Stage → Prop where
  | stay {t} (ht : c.threads n = some t) : Arrives S c c' n t
  | start {i op stage} (hfresh : c.threads n = none) (hpermits : S.permits (c.enacted S) (.start n))
      (hbegin : Begins S i (c.standing i) c.world op stage (c'.standing i) c'.world) :
      Arrives S c c' n ⟨i, stage, c'.world⟩
  | call {t s} (ht : c.threads n = some t) (htask : t.task = .waiting s)
      (hcall : s.pauses = false) (answer : (s.effect (S.member t.owner)).Answer)
      (hpermits : S.permits (c.enacted S) (.call n (succeeds _ answer)))
      (hanswer : S.answers t.owner c.world (s.effect (S.member t.owner)) answer c'.world)
      (hkept : c'.standing = c.standing) :
      Arrives S c c' n ⟨t.owner, .due s (s.reply (S.member t.owner) answer), c'.world⟩
  | wake {t s} (ht : c.threads n = some t) (htask : t.task = .waiting s)
      (hpermits : S.permits (c.enacted S) (.wake n)) (hpause : s.pauses = true)
      (reply : s.Reply) (hkept : c'.standing = c.standing) (hworld : c'.world = c.world) :
      Arrives S c c' n ⟨t.owner, .due s reply, t.last⟩
  | turn {t s reply stage} (ht : c.threads n = some t) (htask : t.task = .due s reply)
      (hpermits : S.permits (c.enacted S) (.turn n))
      (hresume : Resumes S t.owner (c.standing t.owner) c.world s reply stage
        (c'.standing t.owner) c'.world) :
      Arrives S c c' n ⟨t.owner, stage, t.last⟩

/-- How a member has come by its standing in a move. -/
inductive Stands (S : Setting ι ω) (c c' : Cluster ι ω Stage) (i : ι) : Prop where
  | keep (hkept : c'.standing i = c.standing i)
  | start {n op stage} (hfresh : c.threads n = none) (ht : c'.threads n = some ⟨i, stage, c'.world⟩)
      (hbegin : Begins S i (c.standing i) c.world op stage (c'.standing i) c'.world)
  | turn {n t s reply stage} (ht : c.threads n = some t) (howner : t.owner = i)
      (htask : t.task = .due s reply) (ht' : c'.threads n = some ⟨i, stage, t.last⟩)
      (hresume : Resumes S i (c.standing i) c.world s reply stage (c'.standing i) c'.world)

variable [DecidableEq ι]

theorem arrives_of_moves (hmove : Moves S c c') {n : Nat} {t : Thread ι ω Stage}
    (ht : c'.threads n = some t) : Arrives S c c' n t := by
  have hself (u : Thread ι ω Stage) (σ : Standing) (w : ω) :
      (c.moved n u σ w).standing u.owner = σ := Function.update_self ..
  cases hmove with
  | @start _ i _ stage σ w hfresh hpermits hbegin =>
      rcases Cluster.thread_moved ht with ⟨rfl, rfl⟩ | ⟨_, ht⟩
      · rw [← hself ⟨i, stage, w⟩ σ w] at hbegin
        exact .start hfresh hpermits hbegin
      · exact .stay ht
  | call hu htask hcall answer hpermits hanswer =>
      rcases Cluster.thread_moved ht with ⟨rfl, rfl⟩ | ⟨_, ht⟩
      · exact .call hu htask hcall answer hpermits hanswer (Cluster.standing_kept ..)
      · exact .stay ht
  | wake hu htask hpermits hpause reply =>
      rcases Cluster.thread_moved ht with ⟨rfl, rfl⟩ | ⟨_, ht⟩
      · exact .wake hu htask hpermits hpause reply (Cluster.standing_kept ..) rfl
      · exact .stay ht
  | @turn _ u _ _ stage σ w hu htask hpermits hresume =>
      rcases Cluster.thread_moved ht with ⟨rfl, rfl⟩ | ⟨_, ht⟩
      · rw [← hself ⟨u.owner, stage, u.last⟩ σ w] at hresume
        exact .turn hu htask hpermits hresume
      · exact .stay ht
  | drift hpermits hdrift => exact .stay ht

theorem stands_of_moves (hmove : Moves S c c') (i : ι) : Stands S c c' i := by
  cases hmove with
  | @start n j _ stage σ w hfresh hpermits hbegin =>
      rcases c.standing_moved (n := n) (t := ⟨j, stage, w⟩) (σ := σ) (w := w) i with
        ⟨rfl, hself⟩ | ⟨_, hkept⟩
      · rw [← hself] at hbegin
        exact .start hfresh (Function.update_self ..) hbegin
      · exact .keep hkept
  | call _ _ _ _ _ _ | wake _ _ _ _ _ => exact .keep (congrFun (Cluster.standing_kept ..) i)
  | @turn n t _ _ stage σ w ht htask hpermits hresume =>
      rcases c.standing_moved (n := n) (t := ⟨t.owner, stage, t.last⟩) (σ := σ) (w := w) i with
        ⟨rfl, hself⟩ | ⟨_, hkept⟩
      · rw [← hself] at hresume
        exact .turn ht rfl htask (Function.update_self ..) hresume
      · exact .keep hkept
  | drift hpermits hdrift => exact .keep rfl

theorem threads_of_moves (hmove : Moves S c c') :
    exists n, forall k, k ≠ n -> c'.threads k = c.threads k := by
  cases hmove with
  | @start n _ _ _ _ _ _ _ _ | @call n _ _ _ _ _ _ _ _ _ | @wake n _ _ _ _ _ _ _
  | @turn n _ _ _ _ _ _ _ _ _ _ =>
      exact ⟨n, fun k hk => Function.update_of_ne hk ..⟩
  | drift hpermits hdrift => exact ⟨0, fun _ _ => rfl⟩

theorem persists_of_moves (hmove : Moves S c c') {n : Nat} {t : Thread ι ω Stage}
    (ht : c.threads n = some t) : exists t', c'.threads n = some t' := by
  have hmoved {k : Nat} {u : Thread ι ω Stage} {σ : Standing} {w : ω} :
      exists t', (c.moved k u σ w).threads n = some t' := by
    by_cases hk : n = k
    · subst hk
      exact ⟨u, Function.update_self ..⟩
    · exact ⟨t, (Function.update_of_ne hk ..).trans ht⟩
  cases hmove with
  | start _ _ _ | call _ _ _ _ _ _ | wake _ _ _ _ _ | turn _ _ _ _ => exact hmoved
  | drift _ _ => exact ⟨t, ht⟩

theorem others_of_moves (hmove : Moves S c c') {n k : Nat}
    (hchanged : c'.threads n ≠ c.threads n) (hk : k ≠ n) : c'.threads k = c.threads k := by
  rcases threads_of_moves hmove with ⟨moved, hothers⟩
  by_cases hn : n = moved
  · subst hn
    exact hothers k hk
  · exact absurd (hothers n hn) hchanged

/-- A symmetric relation holds between any two threads after a move if it has held before, and holds
between the thread that is new and those that are not. -/
theorem pairs_of_moves {R : Thread ι ω Stage → Thread ι ω Stage → Prop} (hmove : Moves S c c')
    (hsymm : forall t u, R t u -> R u t)
    (hold : forall n k t u, n ≠ k -> c.threads n = some t -> c.threads k = some u -> R t u)
    (hnew : forall n k t u, c'.threads n = some t -> c.threads n ≠ some t ->
      c.threads k = some u -> R t u) {n k : Nat} {t u : Thread ι ω Stage} (hne : n ≠ k)
    (ht : c'.threads n = some t) (hu : c'.threads k = some u) : R t u := by
  by_cases hbefore : c.threads n = some t
  · by_cases hbefore' : c.threads k = some u
    · exact hold n k t u hne hbefore hbefore'
    · exact hsymm u t (hnew k n u t hu hbefore' hbefore)
  · have hchanged : c'.threads n ≠ c.threads n := fun hsame => hbefore (hsame.symm.trans ht)
    exact hnew n k t u ht hbefore ((others_of_moves hmove hchanged hne.symm).symm.trans hu)

end

/-!
# Steps are moves
-/

section

variable {S : Setting ι ω} {c : Cluster ι ω Stage}

theorem enacted_moved [DecidableEq ι] (n : Nat) (t : Thread ι ω Stage) (σ : Standing) (w : ω) :
    (c.moved n t σ w).enacted S = (c.enacted S).moved n (t.enacted S) σ w := by
  have hthreads : (fun k => (Function.update c.threads n (some t) k).map (Thread.enacted S)) =
      Function.update (fun k => (c.threads k).map (Thread.enacted S)) n
        (some (t.enacted S)) := by
    funext k
    by_cases hk : k = n
    · rw [hk, Function.update_self, Function.update_self]
      rfl
    · rw [Function.update_of_ne hk, Function.update_of_ne hk]
  unfold Cluster.moved Cluster.enacted
  rw [hthreads]
  rfl

theorem threads_enacted {n : Nat} {t : Thread ι ω Stage} (ht : c.threads n = some t) :
    (c.enacted S).threads n = some (t.enacted S) :=
  congrArg (Option.map (Thread.enacted S)) ht

theorem fresh_enacted {n : Nat} (hfresh : c.threads n = none) :
    (c.enacted S).threads n = none :=
  congrArg (Option.map (Thread.enacted S)) hfresh

theorem thread_of_enacted {n : Nat} {u : Thread ι ω Task}
    (h : (c.enacted S).threads n = some u) :
    exists t, c.threads n = some t ∧ u = t.enacted S := by
  rcases Option.map_eq_some_iff.mp h with ⟨t, ht, hu⟩
  exact ⟨t, ht, hu.symm⟩

theorem answer_of_ask_eq {e e' : Effect} {next : e.Answer → Proc Outcome}
    {next' : e'.Answer → Proc Outcome} (h : Proc.ask e next = .ask e' next')
    {P : (e : Effect) → e.Answer → Prop} {answer' : e'.Answer} (hanswer : P e' answer') :
    exists answer, P e answer ∧ next' answer' = next answer := by
  cases h
  exact ⟨answer', hanswer, rfl⟩

theorem stage_of_due {m : Member} {stage : Stage} {p : Proc Outcome}
    (h : stage.task m = .due p) : exists s reply, stage = .due s reply ∧ p = s.next m reply := by
  cases stage with
  | waiting s => cases h
  | due s reply =>
      cases h
      exact ⟨s, reply, rfl, rfl⟩
  | finished outcome => cases h

theorem stage_of_call {m : Member} {stage : Stage} {e : Call}
    {next : (Effect.call e).Answer → Proc Outcome}
    (h : stage.task m = .waiting (.ask (.call e) next)) :
    exists s, stage = .waiting s ∧ s.pauses = false ∧ s.proc m = .ask (.call e) next := by
  cases stage with
  | waiting s =>
      have hproc : s.proc m = .ask (.call e) next := by
        injection h
      refine ⟨s, rfl, ?_, hproc⟩
      cases s with
      | spreading aim round claim | backingOff aim round last time => cases hproc
      | listing aim round | staking aim round claim | verifying aim round claim
      | withdrawing exit | refreshing claim | checking claim | restoring claim | removing => rfl
  | due s reply => cases h
  | finished outcome => cases h

theorem stage_of_pause {m : Member} {stage : Stage} {time : Duration} {next : Unit → Proc Outcome}
    (h : stage.task m = .waiting (.ask (.pause time) next)) :
    exists s reply, stage = .waiting s ∧ s.pauses = true ∧ next () = s.next m reply := by
  cases stage with
  | waiting s =>
      have hproc : s.proc m = .ask (.pause time) next := by
        injection h
      cases s with
      | spreading aim round claim =>
          cases hproc
          exact ⟨_, (), rfl, rfl, rfl⟩
      | backingOff aim round last time =>
          cases hproc
          exact ⟨_, (), rfl, rfl, rfl⟩
      | listing aim round | staking aim round claim | verifying aim round claim
      | withdrawing exit | refreshing claim | checking claim | restoring claim | removing =>
          cases hproc
  | due s reply => cases h
  | finished outcome => cases h

/-- A step of the cluster is a move of the staged cluster that stands for it. -/
theorem moves_of_step [DecidableEq ι] {d : Cluster ι ω Task} (h : Step S (c.enacted S) d) :
    exists c', Moves S c c' ∧ d = c'.enacted S := by
  cases h with
  | @start n i op task σ w hfresh hpermits hturn =>
      rcases turn_begin hturn with ⟨stage, rfl, hbegin⟩
      refine ⟨_, .start (Option.map_eq_none_iff.mp hfresh) hpermits hbegin, ?_⟩
      rw [enacted_moved]
      rfl
  | call hu htask hpermits hanswer =>
      rcases thread_of_enacted hu with ⟨t, ht, rfl⟩
      rcases stage_of_call htask with ⟨s, hs, hcall, hproc⟩
      rcases answer_of_ask_eq hproc (P := fun e answer =>
        S.permits (c.enacted S) (.call _ (succeeds e answer)) ∧
          S.answers t.owner c.world e answer _) ⟨hpermits, hanswer⟩ with
        ⟨answer, ⟨hpermits, hanswer⟩, hnext⟩
      refine ⟨_, .call ht hs hcall answer hpermits hanswer, ?_⟩
      rw [enacted_moved, hnext]
      rfl
  | wake hu htask hpermits =>
      rcases thread_of_enacted hu with ⟨t, ht, rfl⟩
      rcases stage_of_pause htask with ⟨s, reply, hs, hpause, hnext⟩
      refine ⟨_, .wake ht hs hpermits hpause reply, ?_⟩
      rw [enacted_moved, hnext]
      rfl
  | turn hu htask hpermits hturn =>
      rcases thread_of_enacted hu with ⟨t, ht, rfl⟩
      rcases stage_of_due htask with ⟨s, reply, hs, rfl⟩
      rcases turn_next hturn with ⟨stage, rfl, hresume⟩
      refine ⟨_, .turn ht hs hpermits hresume, ?_⟩
      rw [enacted_moved]
      rfl
  | drift hpermits hdrift => exact ⟨_, .drift hpermits hdrift, rfl⟩

/-- A move of a staged cluster is a step of the cluster that it stands for. -/
theorem step_of_moves [DecidableEq ι] {c' : Cluster ι ω Stage} (h : Moves S c c') :
    Step S (c.enacted S) (c'.enacted S) := by
  have htasks {t : Thread ι ω Stage} {stage : Stage} (htask : t.task = stage) :
      (t.enacted S).task = stage.task (S.member t.owner) :=
    congrArg (Stage.task (S.member t.owner)) htask
  cases h with
  | start hfresh hpermits hbegin =>
      rw [enacted_moved]
      exact .start (fresh_enacted hfresh) hpermits hbegin.turn
  | @call n t s w ht htask hcall answer hpermits hanswer =>
      rw [enacted_moved]
      have hstep := htasks htask
      cases s with
      | spreading aim round claim | backingOff aim round last time => cases hcall
      | listing aim round | staking aim round claim | verifying aim round claim
      | withdrawing exit | refreshing claim | checking claim | restoring claim | removing =>
          exact .call (threads_enacted ht) hstep hpermits hanswer
  | @wake n t s ht htask hpermits hpause reply =>
      rw [enacted_moved]
      have hstep := htasks htask
      cases s with
      | spreading aim round claim | backingOff aim round last time =>
          exact .wake (threads_enacted ht) hstep hpermits
      | listing aim round | staking aim round claim | verifying aim round claim
      | withdrawing exit | refreshing claim | checking claim | restoring claim | removing =>
          cases hpause
  | turn ht htask hpermits hresume =>
      rw [enacted_moved]
      exact .turn (threads_enacted ht) (htasks htask) hpermits hresume.turn
  | drift hpermits hdrift => exact .drift hpermits hdrift

theorem runs_of_moves [DecidableEq ι] {c' : Cluster ι ω Stage}
    (h : Relation.ReflTransGen (Moves S) c c') : Runs S (c.enacted S) (c'.enacted S) := by
  induction h with
  | refl => exact .refl
  | tail _ hmove ih => exact .tail ih (step_of_moves hmove)

theorem holds_of_runs [DecidableEq ι] {P : Cluster ι ω Stage → Prop}
    (hkeep : forall c c', Moves S c c' -> P c -> P c') {d : Cluster ι ω Task} (hc : P c)
    (hrun : Runs S (c.enacted S) d) : exists c', d = c'.enacted S ∧ P c' := by
  induction hrun with
  | refl => exact ⟨c, rfl, hc⟩
  | tail hrun hstep ih =>
      rcases ih with ⟨c', rfl, hc'⟩
      rcases moves_of_step hstep with ⟨c'', hmove, rfl⟩
      exact ⟨c'', rfl, hkeep c' c'' hmove hc'⟩

end

end Interleaving
end Roster
