import Roster.Proofs.Lifecycle
import Roster.Proofs.Registry.Contents

/-!
# Around a registration

A registration writes to a registry that may answer anything, fail any call, and be changed by
others at any time; only what a call does to it is fixed.  And while it registers, the member may be
deactivated, which its threads show.
-/

namespace Roster

/-!
# Calls that answer anything
-/

namespace Contents

/-- What a call does to the registry, whatever it answers: one that fails does nothing. -/
inductive Takes (v : Contents) :
    (call : Call) → Except RegistryError call.Answer → Contents → Prop where
  | failed {call} (e : RegistryError) : Takes v call (.error e) v
  | get {region key} (value : Option Bytes) : Takes v (.get region key) (.ok value) v
  | put {region key bytes} (previous : Option Bytes) :
      Takes v (.put region key bytes) (.ok previous) (v.assign region key (some bytes))
  | remove {region key} (previous : Option Bytes) :
      Takes v (.remove region key) (.ok previous) (v.assign region key none)
  | list {region} (values : List Bytes) : Takes v (.list region) (.ok values) v

variable {v v' : Contents} {call : Call} {answer : Except RegistryError call.Answer}
  {region key : String}

theorem Answers.takes (h : v.Answers call answer v') : v.Takes call answer v' := by
  cases h with
  | failed e => exact .failed e
  | get => exact .get _
  | put => exact .put _
  | remove => exact .remove _
  | list hnodup hkeys => exact .list _

theorem Takes.other (h : v.Takes call answer v')
    (hother : region ≠ call.region ∨ call.key? ≠ some key) : v' region key = v region key := by
  cases h with
  | failed e | get value | list values => rfl
  | put previous | remove previous =>
      refine if_neg ?_
      rintro ⟨rfl, rfl⟩
      rcases hother with hregion | hkey
      · exact hregion rfl
      · exact hkey rfl

theorem Takes.removed {previous : Option Bytes}
    (h : v.Takes (.remove region key) (.ok previous) v') : v' region key = none := by
  cases h with
  | remove previous => exact assign_self v region key none

theorem Takes.unfilled {answer : Except RegistryError (Option Bytes)}
    (h : v.Takes (.remove region key) answer v') (hnone : v region key = none) :
    v' region key = none := by
  cases answer with
  | error e =>
      cases h with
      | failed e => exact hnone
  | ok previous => exact h.removed

end Contents

namespace Registering

open Interleaving

variable {ω : Type}

/-!
# The registry of a member
-/

structure Registry (S : Setting Unit ω) where
  contents : ω → Contents
  call : forall {w c answer w'}, S.answers () w (.call c) answer w' ->
    (contents w).Takes c answer (contents w')
  now : forall {w t w'}, S.answers () w .now t w' -> contents w' = contents w
  readingPast : forall {w previous reading w'},
    S.answers () w (.readingPast previous) reading w' -> contents w' = contents w
  note : forall w event, contents (S.notes w event) = contents w

namespace Registry

variable {S : Setting Unit ω} (R : Registry S)

def own (w : ω) : Option Bytes :=
  R.contents w (S.member ()).servers.name (S.member ()).id.text

def Reserved : Prop :=
  forall w w', S.drifts w w' -> R.own w = none -> R.own w' = none

def ofShared (H : Shared S) : Registry S where
  contents := H.contents
  call := fun h => (H.call h).takes
  now := H.now
  readingPast := H.readingPast
  note := H.note

theorem reserved_ofShared (H : Shared S) : (ofShared H).Reserved := by
  intro w w' hdrift hnone
  have hkept := H.drift hdrift ()
  rw [← H.region_eq ()] at hkept
  exact hkept.trans hnone

section

variable {σ σ' : Standing} {w w' : ω} {stage : Stage} {s : Spot}

theorem contents_of_resumes {reply : s.Reply} (h : Resumes S () σ w s reply stage σ' w') :
    R.contents w' = R.contents w :=
  h.keeps (P := fun after => R.contents after = R.contents w)
    (fun before event hbefore => (R.note before event).trans hbefore)
    (fun _ _ _ hread hbefore => (R.now hread).trans hbefore) rfl

theorem contents_of_begins {op : Operation} (h : Begins S () σ w op stage σ' w') :
    R.contents w' = R.contents w :=
  h.keeps (P := fun after => R.contents after = R.contents w)
    (fun before event hbefore => (R.note before event).trans hbefore)
    (fun _ _ _ _ hread hbefore => (R.readingPast hread).trans hbefore) rfl

theorem own_of_resumes {reply : s.Reply} (h : Resumes S () σ w s reply stage σ' w') :
    R.own w' = R.own w :=
  congrFun (congrFun (R.contents_of_resumes h) _) _

theorem own_of_begins {op : Operation} (h : Begins S () σ w op stage σ' w') :
    R.own w' = R.own w :=
  congrFun (congrFun (R.contents_of_begins h) _) _

theorem other_of_call (hcall : s.pauses = false) {answer : (s.effect (S.member ())).Answer}
    (h : S.answers () w (s.effect (S.member ())) answer w') {region key : String}
    (hother : region ≠ (S.member ()).servers.name ∨ key ≠ (S.member ()).id.text) :
    R.contents w' region key = R.contents w region key := by
  cases s with
  | spreading aim round claim | backingOff aim round last time => cases hcall
  | listing aim round | verifying aim round claim | checking claim =>
      exact (R.call h).other (Or.inr fun hnone => nomatch hnone)
  | staking aim round claim | refreshing claim | restoring claim | withdrawing exit | removing =>
      refine (R.call h).other (hother.imp_right fun hkey hsome => hkey ?_)
      injection hsome with hsome
      exact hsome.symm

end

/-- What nobody else changes, and is not registered under the id of the member, stays as it is. -/
theorem other_of_runs {region key : String}
    (hother : region ≠ (S.member ()).servers.name ∨ key ≠ (S.member ()).id.text)
    (hdrift : forall w w', S.drifts w w' -> R.contents w' region key = R.contents w region key)
    {c : Cluster Unit ω Stage} {d : Cluster Unit ω Task} (hrun : Runs S (c.enacted S) d) :
    R.contents d.world region key = R.contents c.world region key := by
  have hstep (c' c'' : Cluster Unit ω Stage) (hmove : Moves S c' c'') :
      R.contents c''.world region key = R.contents c'.world region key := by
    cases hmove with
    | start hfresh hpermits hbegin =>
        exact congrFun (congrFun (R.contents_of_begins hbegin) region) key
    | call ht htask hcall answer hpermits hanswer => exact R.other_of_call hcall hanswer hother
    | wake ht htask hpermits hpause reply => rfl
    | turn ht htask hpermits hresume =>
        exact congrFun (congrFun (R.contents_of_resumes hresume) region) key
    | drift hpermits hdrifts => exact hdrift _ _ hdrifts
  rcases holds_of_runs (P := fun c' => R.contents c'.world region key =
    R.contents c.world region key) (fun c' c'' hmove h => (hstep c' c'' hmove).trans h) rfl hrun
    with ⟨c', rfl, h⟩
  exact h

end Registry

/-!
# Deactivations
-/

/-- On the way from one cluster to another, a thread has begun to deactivate the member. -/
def Deactivates (c d : Cluster Unit ω Task) : Prop :=
  exists n t, c.threads n = none ∧ d.threads n = some t ∧ t.task.Belongs .deactivate

section

variable {S : Setting Unit ω} {σ σ' : Standing} {w w' : ω} {stage : Stage} {s : Spot}
  {c c' : Cluster Unit ω Stage}

theorem deactivated_iff_of_begins {op : Operation} (h : Begins S () σ w op stage σ' w') :
    σ'.status = .deactivated ↔ σ.status = .deactivated ∨ op = .deactivate := by
  cases h with
  | deactivate _ | deactivateAgain _ => exact ⟨fun _ => Or.inr rfl, fun _ => rfl⟩
  | activate hinactive _ =>
      refine ⟨fun hgone => (nomatch hgone), ?_⟩
      rintro (hgone | hop)
      · cases hinactive.symm.trans hgone
      · cases hop
  | activateRefused _ | heartbeat _ _ | heartbeatIdle _ | uniqueId _ _ | uniqueIdRefused _ =>
      exact ⟨Or.inl, fun h => h.resolve_right fun hop => nomatch hop⟩

theorem begins_of_moves (hmove : Moves S c c') {n : Nat} {t : Thread Unit ω Stage}
    (hfresh : c.threads n = none) (ht : c'.threads n = some t) :
    exists op, Begins S () (c.standing ()) c.world op t.task (c'.standing ()) c'.world := by
  cases arrives_of_moves hmove ht with
  | start _ _ hbegin => exact ⟨_, hbegin⟩
  | stay hu | call hu _ _ _ _ _ _ | wake hu _ _ _ _ _ _ | turn hu _ _ _ =>
      cases hfresh.symm.trans hu

/-- A member is deactivated exactly when a thread has been started to deactivate it. -/
structure Departed (S : Setting Unit ω) (c : Cluster Unit ω Stage) : Prop where
  sole : Sole S c
  iff : (c.standing ()).status = .deactivated ↔
    exists n t, c.threads n = some t ∧ t.task.operation = .deactivate

theorem Departed.initial (w : ω) : Departed S (.initial w) where
  sole := .initial w
  iff := ⟨fun h => (nomatch h), fun ⟨_, _, h, _⟩ => nomatch h⟩

theorem Departed.move (h : Departed S c) (hmove : Moves S c c') : Departed S c' where
  sole := h.sole.move hmove
  iff := by
    have hbefore (hgone : (c.standing ()).status = .deactivated) :
        exists n t, c'.threads n = some t ∧ t.task.operation = .deactivate := by
      rcases h.iff.mp hgone with ⟨n, t, ht, hop⟩
      rcases operation_of_moves hmove ht with ⟨t', ht', hop'⟩
      exact ⟨n, t', ht', hop'.trans hop⟩
    have hgone := (h.sole.proper.shift hmove ()).deactivated
    constructor
    · intro hstatus
      cases stands_of_moves hmove () with
      | keep hkept =>
          rw [hkept] at hstatus
          exact hbefore hstatus
      | start _ ht hbegin =>
          rcases (deactivated_iff_of_begins hbegin).mp hstatus with hgone | hop
          · exact hbefore hgone
          · exact ⟨_, _, ht, hbegin.stage_operation.trans hop⟩
      | turn _ _ _ _ hresume => exact hbefore (Deactivation.deactivated_of_resumes hresume hstatus)
    · rintro ⟨n, t, ht, hop⟩
      cases hbefore : c.threads n with
      | some before =>
          rcases operation_of_moves hmove hbefore with ⟨t', ht', hop'⟩
          cases ht.symm.trans ht'
          exact hgone (h.iff.mpr ⟨n, before, hbefore, hop'.symm.trans hop⟩)
      | none =>
          rcases begins_of_moves hmove hbefore ht with ⟨op, hbegin⟩
          exact (deactivated_iff_of_begins hbegin).mpr
            (Or.inr (hbegin.stage_operation.symm.trans hop))

/-- The threads of a cluster are there in another one, with the operations that they had. -/
def Continues (c c' : Cluster Unit ω Stage) : Prop :=
  forall n t, c.threads n = some t ->
    exists t', c'.threads n = some t' ∧ t'.task.operation = t.task.operation

theorem Continues.move {c'' : Cluster Unit ω Stage} (h : Continues c c')
    (hmove : Moves S c' c'') : Continues c c'' := by
  intro n t ht
  rcases h n t ht with ⟨t', ht', hop'⟩
  rcases operation_of_moves hmove ht' with ⟨t'', ht'', hop''⟩
  exact ⟨t'', ht'', hop''.trans hop'⟩

theorem deactivates_iff {d : Cluster Unit ω Stage} (hc : Departed S c) (hd : Departed S d)
    (hinactive : (c.standing ()).status = .inactive) (hcontinues : Continues c d) :
    Deactivates (c.enacted S) (d.enacted S) ↔ (d.standing ()).status = .deactivated := by
  rw [hd.iff]
  constructor
  · rintro ⟨n, t, _, ht, hbelongs⟩
    rcases thread_of_enacted ht with ⟨t, hthread, rfl⟩
    exact ⟨n, t, hthread, belongs_task.mp hbelongs⟩
  · rintro ⟨n, t, ht, hop⟩
    refine ⟨n, t.enacted S, ?_, threads_enacted ht, belongs_task.mpr hop⟩
    cases hbefore : c.threads n with
    | none => exact fresh_enacted hbefore
    | some before =>
        rcases hcontinues n before hbefore with ⟨t', ht', hop'⟩
        cases ht.symm.trans ht'
        cases hinactive.symm.trans (hc.iff.mpr ⟨n, before, hbefore, hop'.symm.trans hop⟩)

end

end Registering
end Roster
