import Roster.Proofs.Interleaving.Alone

/-!
# What threads are told

A run leads from cluster to cluster and forgets what the registry has answered on the way.  A
history keeps it: for every thread its calls so far, in order, each with the answer that it was
given.  Every run has one, and a history adds nothing to what may happen.
-/

namespace Roster
namespace Interleaving

variable {ι ω : Type}

structure Heard where
  call : Call
  answer : Except RegistryError call.Answer

/-- What an answer tells of the registry; the end of a pause tells nothing. -/
def heard? : (e : Effect) → e.Answer → Option Heard
  | .call c, answer => some ⟨c, answer⟩
  | _, _ => none

def Silent (c c' : Cluster ι ω Task) : Prop :=
  forall n t e next, c.threads n = some t -> t.task = .waiting (.ask (.call e) next) ->
    c'.threads n = some t

/-- A run in which the threads have been told so. -/
inductive Hears [DecidableEq ι] (S : Setting ι ω) (c₀ : Cluster ι ω Task) :
    (Nat → List Heard) → Cluster ι ω Task → Prop where
  | start : Hears S c₀ (fun _ => []) c₀
  | silent {told c c'} (h : Hears S c₀ told c) (hstep : Step S c c') (hsilent : Silent c c') :
      Hears S c₀ told c'
  | call {told c n t e next a w} (h : Hears S c₀ told c) (ht : c.threads n = some t)
      (htask : t.task = .waiting (.ask (.call e) next))
      (hpermits : S.permits c (.call n (succeeds (.call e) a)))
      (hanswer : S.answers t.owner c.world (.call e) a w) :
      Hears S c₀ (Function.update told n (told n ++ [⟨e, a⟩]))
        (c.moved n ⟨t.owner, .due (next a), w⟩ (c.standing t.owner) w)

/-!
# Runs and their histories
-/

section

variable [DecidableEq ι] {S : Setting ι ω} {c₀ d : Cluster ι ω Task} {told : Nat → List Heard}

theorem Hears.runs (h : Hears S c₀ told d) : Runs S c₀ d := by
  induction h with
  | start => exact .refl
  | silent _ hstep _ ih => exact .tail ih hstep
  | call _ ht htask hpermits hanswer ih => exact .tail ih (.call ht htask hpermits hanswer)

theorem silent_moved {c : Cluster ι ω Task} {n : Nat} {u : Thread ι ω Task} {σ : Standing} {w : ω}
    (hn : forall t e next, c.threads n = some t -> t.task ≠ .waiting (.ask (.call e) next)) :
    Silent c (c.moved n u σ w) := by
  intro k t e next ht htask
  refine (Function.update_of_ne ?_ ..).trans ht
  rintro rfl
  exact hn t e next ht htask

/-- Every run has a history. -/
theorem exists_hears (h : Runs S c₀ d) : exists told, Hears S c₀ told d := by
  induction h with
  | refl => exact ⟨_, .start⟩
  | tail _ hstep ih =>
      rcases ih with ⟨told, h⟩
      have hstep' := hstep
      cases hstep with
      | start hfresh _ _ =>
          exact ⟨told, h.silent hstep'
            (silent_moved fun t e next ht => (nomatch hfresh.symm.trans ht))⟩
      | call ht htask hpermits hanswer => exact ⟨_, h.call ht htask hpermits hanswer⟩
      | wake hu hwaiting _ =>
          refine ⟨told, h.silent hstep' (silent_moved fun t e next ht htask => ?_)⟩
          cases hu.symm.trans ht
          cases hwaiting.symm.trans htask
      | turn hu hdue _ _ =>
          refine ⟨told, h.silent hstep' (silent_moved fun t e next ht htask => ?_)⟩
          cases hu.symm.trans ht
          cases hdue.symm.trans htask
      | drift hpermits hdrift => exact ⟨told, h.silent hstep' fun _ _ _ _ ht _ => ht⟩

end

/-!
# Histories of staged clusters
-/

section

variable {S : Setting ι ω} {c c' : Cluster ι ω Stage}

theorem exists_call_of_spot {m : Member} {s : Spot} (hcall : s.pauses = false) :
    exists e next, s.proc m = .ask (.call e) next := by
  cases s with
  | spreading aim round claim | backingOff aim round last time => cases hcall
  | listing aim round | staking aim round claim | verifying aim round claim
  | withdrawing exit | refreshing claim | checking claim | restoring claim | removing =>
      exact ⟨_, _, rfl⟩

theorem heard?_of_pause {m : Member} {s : Spot} (hpause : s.pauses = true)
    (answer : (s.effect m).Answer) : heard? (s.effect m) answer = none := by
  cases s with
  | spreading aim round claim | backingOff aim round last time => rfl
  | listing aim round | staking aim round claim | verifying aim round claim
  | withdrawing exit | refreshing claim | checking claim | restoring claim | removing =>
      cases hpause

theorem exists_answer_of_pause {m : Member} {s : Spot} (hpause : s.pauses = true)
    (reply : s.Reply) : exists answer, s.reply m answer = reply := by
  cases s with
  | spreading aim round claim | backingOff aim round last time => exact ⟨(), rfl⟩
  | listing aim round | staking aim round claim | verifying aim round claim
  | withdrawing exit | refreshing claim | checking claim | restoring claim | removing =>
      cases hpause

variable [DecidableEq ι]

theorem not_silent_of_call {n : Nat} {t : Thread ι ω Stage} {s : Spot} {reply : s.Reply}
    {last w : ω} {σ : Standing} (ht : c.threads n = some t) (htask : t.task = .waiting s)
    (hcall : s.pauses = false) :
    ¬ Silent (c.enacted S) ((c.moved n ⟨t.owner, .due s reply, last⟩ σ w).enacted S) := by
  intro hsilent
  rcases exists_call_of_spot (m := S.member t.owner) hcall with ⟨e, next, hproc⟩
  have hwaiting : (t.enacted S).task = .waiting (.ask (.call e) next) := by
    rw [← hproc]
    exact congrArg (Stage.task (S.member t.owner)) htask
  have hkept := hsilent n (t.enacted S) e next (threads_enacted ht) hwaiting
  rw [enacted_moved] at hkept
  rcases Cluster.thread_moved hkept with ⟨_, hdue⟩ | ⟨hne, _⟩
  · cases (congrArg Thread.task hdue).symm.trans hwaiting
  · exact hne rfl

theorem answer_of_heard? {e : Effect} {answer : e.Answer} {h : Heard}
    (hheard : heard? e answer = some h) {P : (e : Effect) → e.Answer → Prop}
    (hanswer : P e answer) : P (.call h.call) h.answer := by
  cases e with
  | call c =>
      cases hheard
      exact hanswer
  | pause _ | now | readingPast _ | look | store _ | ticket | threadName | entropy | report _ =>
      cases hheard

theorem holds_of_answers {P : (Nat → List Heard) → Cluster ι ω Stage → Prop}
    (hsilent : forall told c c', Moves S c c' -> Silent (c.enacted S) (c'.enacted S) ->
      P told c -> P told c')
    (hcall : forall told c n t s answer h w, c.threads n = some t -> t.task = .waiting s ->
      heard? (s.effect (S.member t.owner)) answer = some h ->
      S.answers t.owner c.world (s.effect (S.member t.owner)) answer w ->
      Moves S c (c.moved n ⟨t.owner, .due s (s.reply (S.member t.owner) answer), w⟩
        (c.standing t.owner) w) ->
      P told c -> P (Function.update told n (told n ++ [h]))
        (c.moved n ⟨t.owner, .due s (s.reply (S.member t.owner) answer), w⟩
          (c.standing t.owner) w))
    {told : Nat → List Heard} {d : Cluster ι ω Task} (hc : P (fun _ => []) c)
    (h : Hears S (c.enacted S) told d) : exists c', d = c'.enacted S ∧ P told c' := by
  induction h with
  | start => exact ⟨c, rfl, hc⟩
  | @silent told _ _ _ hstep hquiet ih =>
      rcases ih with ⟨c', rfl, hc'⟩
      rcases moves_of_step hstep with ⟨c'', hmove, rfl⟩
      exact ⟨c'', rfl, hsilent told c' c'' hmove hquiet hc'⟩
  | @call told _ n _ e next a w _ hu htask hpermits hanswer ih =>
      rcases ih with ⟨c', rfl, hc'⟩
      rcases thread_of_enacted hu with ⟨t, ht, rfl⟩
      rcases stage_of_call htask with ⟨s, hs, hpauses, hproc⟩
      rcases answer_of_ask_eq hproc (P := fun e' answer =>
        heard? e' answer = some ⟨e, a⟩ ∧ S.permits (c'.enacted S) (.call n (succeeds e' answer)) ∧
          S.answers t.owner c'.world e' answer w) ⟨rfl, hpermits, hanswer⟩ with
        ⟨answer, ⟨hheard, hpermits, hanswer⟩, hnext⟩
      refine ⟨_, ?_, hcall told c' n t s answer ⟨e, a⟩ w ht hs hheard hanswer
        (.call ht hs hpauses answer hpermits hanswer) hc'⟩
      rw [enacted_moved, hnext]
      rfl

theorem holds_of_hears {P : (Nat → List Heard) → Cluster ι ω Stage → Prop}
    (hsilent : forall told c c', Moves S c c' -> Silent (c.enacted S) (c'.enacted S) ->
      P told c -> P told c')
    (hcall : forall told c n t s answer h w, c.threads n = some t -> t.task = .waiting s ->
      heard? (s.effect (S.member t.owner)) answer = some h ->
      Moves S c (c.moved n ⟨t.owner, .due s (s.reply (S.member t.owner) answer), w⟩
        (c.standing t.owner) w) ->
      P told c -> P (Function.update told n (told n ++ [h]))
        (c.moved n ⟨t.owner, .due s (s.reply (S.member t.owner) answer), w⟩
          (c.standing t.owner) w))
    {told : Nat → List Heard} {d : Cluster ι ω Task} (hc : P (fun _ => []) c)
    (h : Hears S (c.enacted S) told d) : exists c', d = c'.enacted S ∧ P told c' :=
  holds_of_answers hsilent (fun told c n t s answer h w ht htask hheard _ hmove hc =>
    hcall told c n t s answer h w ht htask hheard hmove hc) hc h

/-!
# Threads that are told something and move alone
-/

variable {c₀ : Cluster ι ω Task} {told : Nat → List Heard} {n : Nat} {i : ι} {s : Spot}
  {σ σ' : Standing} {last w w' : ω} {stage : Stage}

theorem hears_start {op : Operation} (h : Hears S c₀ told (c.enacted S))
    (hfresh : c.threads n = none) (hpermits : S.permits (c.enacted S) (.start n))
    (hbegin : Begins S i (c.standing i) c.world op stage σ w) :
    Hears S c₀ told ((c.moved n ⟨i, stage, w⟩ σ w).enacted S) := by
  refine h.silent (step_of_moves (.start hfresh hpermits hbegin)) ?_
  rw [enacted_moved]
  refine silent_moved fun t e next ht _ => ?_
  cases (fresh_enacted hfresh).symm.trans ht

theorem hears_turn {reply : s.Reply}
    (h : Hears S c₀ told ((c.moved n ⟨i, .due s reply, last⟩ σ w).enacted S))
    (hpermits : S.permits ((c.moved n ⟨i, .due s reply, last⟩ σ w).enacted S) (.turn n))
    (hresume : Resumes S i σ w s reply stage σ' w') :
    Hears S c₀ told ((c.moved n ⟨i, stage, last⟩ σ' w').enacted S) := by
  refine h.silent (step_of_moves (moves_turn hpermits hresume)) ?_
  rw [← moved_moved (.due s reply) stage last last, enacted_moved _ ⟨i, stage, last⟩]
  refine silent_moved fun t e next ht htask => ?_
  rcases thread_of_enacted ht with ⟨u, hu, rfl⟩
  cases (thread_moved_self _).symm.trans hu
  cases htask

theorem hears_wake (reply : s.Reply) (hpause : s.pauses = true)
    (h : Hears S c₀ told ((c.moved n ⟨i, .waiting s, last⟩ σ w).enacted S))
    (hpermits : S.permits ((c.moved n ⟨i, .waiting s, last⟩ σ w).enacted S) (.wake n)) :
    Hears S c₀ told ((c.moved n ⟨i, .due s reply, last⟩ σ w).enacted S) := by
  refine h.silent (step_of_moves (moves_wake hpause reply hpermits)) ?_
  rw [← moved_moved (.waiting s) (.due s reply) last last,
    enacted_moved _ ⟨i, .due s reply, last⟩]
  refine silent_moved fun t e next ht htask => ?_
  rcases thread_of_enacted ht with ⟨u, hu, rfl⟩
  cases (thread_moved_self _).symm.trans hu
  cases s with
  | spreading aim round claim | backingOff aim round last time => cases htask
  | listing aim round | staking aim round claim | verifying aim round claim
  | withdrawing exit | refreshing claim | checking claim | restoring claim | removing =>
      cases hpause

theorem hears_call {answer : (s.effect (S.member i)).Answer} {heard : Heard}
    (h : Hears S c₀ told ((c.moved n ⟨i, .waiting s, last⟩ σ w).enacted S))
    (hanswer : S.Calls c n i σ s last w answer w')
    (hheard : heard? (s.effect (S.member i)) answer = some heard) :
    Hears S c₀ (Function.update told n (told n ++ [heard]))
      ((c.moved n ⟨i, .due s (s.reply (S.member i) answer), w'⟩ σ w').enacted S) := by
  have hthread : ((c.moved n ⟨i, .waiting s, last⟩ σ w).enacted S).threads n = some _ :=
    threads_enacted (thread_moved_self _)
  have hself : ((c.moved n ⟨i, .waiting s, last⟩ σ w).enacted S).standing i = σ :=
    Function.update_self ..
  have hmoved : (c.moved n ⟨i, .waiting s, last⟩ σ w).moved n
      ⟨i, .due s (s.reply (S.member i) answer), w'⟩ σ w' = c.moved n _ σ w' :=
    moved_moved ..
  rw [← hmoved, enacted_moved]
  cases s with
  | spreading aim round claim | backingOff aim round last time => cases hheard
  | listing aim round | staking aim round claim | verifying aim round claim
  | withdrawing exit | refreshing claim | checking claim | restoring claim | removing =>
      cases hheard
      have hcalled := h.call hthread rfl hanswer.1 hanswer.2
      change Hears S c₀ _ (Cluster.moved _ n _ (((c.moved n ⟨i, .waiting _, last⟩ σ w).enacted
        S).standing i) w') at hcalled
      rw [hself] at hcalled
      exact hcalled

theorem hears_reply {answer : (s.effect (S.member i)).Answer} {heard : Heard} {reply : s.Reply}
    {w₁ : ω} (h : Hears S c₀ told ((c.moved n ⟨i, .waiting s, last⟩ σ w).enacted S))
    (hanswer : S.Calls c n i σ s last w answer w₁)
    (hheard : heard? (s.effect (S.member i)) answer = some heard)
    (hreply : s.reply (S.member i) answer = reply)
    (hpermits : S.permits ((c.moved n ⟨i, .due s reply, w₁⟩ σ w₁).enacted S) (.turn n))
    (hresume : Resumes S i σ w₁ s reply stage σ' w') :
    Hears S c₀ (Function.update told n (told n ++ [heard]))
      ((c.moved n ⟨i, stage, w₁⟩ σ' w').enacted S) := by
  have hcalled := hears_call h hanswer hheard
  rw [hreply] at hcalled
  exact hears_turn hcalled hpermits hresume

end

end Interleaving
end Roster
