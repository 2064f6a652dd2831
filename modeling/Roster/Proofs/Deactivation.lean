import Roster.Proofs.Interleaving.Alone
import Roster.Proofs.Numbering
import Roster.Proofs.Registry.Listing

/-!
# Deactivated members leave

A member may be deactivated while its other operations are under way, and these may write the
registration again after it has been removed.  Whichever thread writes it, or is on the way to
writing it, finds out that the member is deactivated, and removes it.

The registry may fail listings and puts, and others may write what they like under other keys.
-/

namespace Roster
namespace Deactivation

open Interleaving

/-!
# The setting
-/

/-- The registry answers at once, and fails no removal; a clock may show anything. -/
def answers (w : Contents) : (e : Effect) → e.Answer → Contents → Prop
  | .call c, answer, w' =>
      w.Answers c answer w' ∧ forall region key, c = .remove region key -> answer.isOk = true
  | .now, _, w' | .readingPast _, _, w' => w' = w
  | _, _, _ => False

def setting (m : Member) : Setting Unit Contents where
  member := fun _ => m
  answers := fun _ => answers
  notes := fun w _ => w
  drifts := fun w w' => w' m.servers.name m.id.text = w m.servers.name m.id.text
  permits := fun _ _ => True

def shared {m : Member} (hfits : Stored.Fits m.id.text) : Shared (setting m) where
  contents := id
  region := m.servers.name
  region_eq := fun _ => rfl
  id_injective := fun _ _ _ => rfl
  fits := fun _ => hfits
  call := fun h => h.1
  now := fun h => h
  readingPast := fun h => h
  note := fun _ _ => rfl
  drift := fun h _ => h

def ledger {m : Member} (hfits : Stored.Fits m.id.text) : Ledger (setting m) :=
  (shared hfits).ledger

/-!
# Obligations
-/

def Settles : Spot → Prop
  | .listing _ _ | .staking _ _ _ | .spreading _ _ _ | .verifying _ _ _
  | .backingOff _ _ _ _ => True
  | .withdrawing _ | .refreshing _ | .checking _ | .restoring _ | .removing => False

def Removes : Spot → Prop
  | .withdrawing _ | .removing => True
  | _ => False

/-- The thread has the registration of a deactivated member removed before it ends. -/
def Obliged : Stage → Prop
  | .waiting s => Settles s ∨ Removes s
  | .due s reply => Settles s ∨ exists claim, (Stage.due s reply).wrote? = some claim
  | .finished _ => False

def Leaves (stage : Stage) : Prop :=
  stage.spot? = some .removing ∨ exists result, stage = .finished (.deregistered result)

section

variable {ι ω : Type} {S : Setting ι ω} {i : ι} {σ σ' : Standing} {w w' : ω} {aim : Aim}
  {stage : Stage} {s : Spot}

theorem obliged_of_quits {e : Error} (h : Quits S i σ w aim e stage w')
    (hσ : σ.status = .deactivated) : Obliged stage := by
  cases h with
  | abandon | interrupt _ => exact Or.inr trivial
  | restore hready =>
      rw [hσ] at hready
      cases hready

theorem obliged_of_tries {attempt remaining : Nat} {last : Option RegistryError}
    (h : Tries S i σ w aim attempt last remaining stage w') (hσ : σ.status = .deactivated) :
    Obliged stage := by
  cases h with
  | list _ => exact Or.inl trivial
  | barred _ hquit | exhausted hquit => exact obliged_of_quits hquit hσ

theorem obliged_of_retries {round : Round} {last : Option RegistryError}
    (h : Retries S i σ w aim round last stage w') (hσ : σ.status = .deactivated) :
    Obliged stage := by
  cases h with
  | backOff _ _ => exact Or.inl trivial
  | exhausted _ hquit => exact obliged_of_quits hquit hσ

theorem obliged_of_wins {settled : Settled} (h : Wins S i σ w settled aim stage σ' w')
    (hσ : σ.status = .deactivated) : Obliged stage := by
  cases h with
  | register hstatus => cases hstatus.symm.trans hσ
  | renumber hready =>
      rw [hσ] at hready
      cases hready
  | late _ | interrupt _ => exact Or.inr trivial

theorem obliged_of_resumes {reply : s.Reply} (h : Resumes S i σ w s reply stage σ' w')
    (hσ : σ.status = .deactivated) (hs : Obliged (.due s reply)) : Obliged stage := by
  cases h with
  | listed _ | staked | spread _ => exact Or.inl trivial
  | listingFailed hretry | stakingFailed hretry | verifyingFailed hretry | lost _ hretry =>
      exact obliged_of_retries hretry hσ
  | spreadBarred _ hquit | overflow _ _ hquit => exact obliged_of_quits hquit hσ
  | upheld _ _ hwin => exact obliged_of_wins hwin hσ
  | backedOff htry => exact obliged_of_tries htry hσ
  | refreshedLate _ | restoredLate _ => exact Or.inr trivial
  | refreshed hready | restored hready =>
      rw [hσ] at hready
      cases hready
  | relinquished _ | left _ | refreshingFailed | uncontested _ | contested _ _ | checkingFailed
  | restoringFailed | removed | removingFailed =>
      rcases hs with hs | ⟨claim, hclaim⟩
      · exact hs.elim
      · cases hclaim

theorem leaves_of_due {reply : s.Reply} (h : Leaves (.due s reply)) : Leaves (.waiting s) := by
  rcases h with hspot | ⟨result, hfinished⟩
  · exact Or.inl hspot
  · cases hfinished

theorem not_leaves_of_retreats (h : stage.Retreats) : ¬ Leaves stage := by
  rcases h with ⟨s, rfl, hs⟩
  rintro (hspot | ⟨result, hfinished⟩)
  · cases hspot
    exact hs.elim
  · cases hfinished

theorem leaves_of_resumes {reply : s.Reply} (h : Resumes S i σ w s reply stage σ' w')
    (hleaves : Leaves stage) : s = .removing := by
  cases h.ensues with
  | deregister => rfl
  | retreat hretreats => exact absurd hleaves (not_leaves_of_retreats hretreats)
  | stake _ | spread | verify | check | register | beat =>
      rcases hleaves with hspot | ⟨result, hfinished⟩
      · cases hspot
      · cases hfinished

theorem deactivated_of_begins {op : Operation} (h : Begins S i σ w op stage σ' w')
    (hleaves : Leaves stage) : σ'.status = .deactivated := by
  cases h with
  | deactivate _ | deactivateAgain _ => rfl
  | activate _ htry => exact absurd hleaves (not_leaves_of_retreats htry.retreats)
  | activateRefused _ | heartbeat _ _ | heartbeatIdle _ | uniqueId _ _ | uniqueIdRefused _ =>
      rcases hleaves with hspot | ⟨result, hfinished⟩
      · cases hspot
      · cases hfinished

theorem obliged_of_begins {op : Operation} (h : Begins S i σ w op stage σ' w')
    (hσ : σ.status ≠ .deactivated) (hσ' : σ'.status = .deactivated) : Obliged stage := by
  cases h with
  | deactivate _ => exact Or.inr trivial
  | deactivateAgain hstatus => exact absurd hstatus hσ
  | activate _ _ => cases hσ'
  | activateRefused _ | heartbeat _ _ | heartbeatIdle _ | uniqueId _ _ | uniqueIdRefused _ =>
      exact absurd hσ' hσ

theorem deactivated_of_resumes {reply : s.Reply} (h : Resumes S i σ w s reply stage σ' w')
    (hσ' : σ'.status = .deactivated) : σ.status = .deactivated := by
  cases h with
  | relinquished _ => cases hσ'
  | upheld _ _ hwin =>
      cases hwin with
      | register _ | renumber _ => cases hσ'
      | late _ | interrupt _ => exact hσ'
  | _ => exact hσ'

theorem finished_of_begins {op : Operation} (h : Begins S i σ w op stage σ' w')
    (hσ : σ.status = .deactivated) : stage.spot? = none := by
  cases h with
  | activate hstatus _ => cases hstatus.symm.trans hσ
  | heartbeat hready _ =>
      rw [hσ] at hready
      cases hready
  | deactivate hstatus => exact absurd hσ hstatus
  | activateRefused _ | heartbeatIdle _ | deactivateAgain _ | uniqueId _ _ | uniqueIdRefused _ =>
      rfl

end

/-!
# Registrations of deactivated members
-/

section

variable {m : Member} (hfits : Stored.Fits m.id.text) {c c' : Cluster Unit Contents Stage}

/-- As long as a deactivated member is registered, some thread is obliged to remove the
registration. -/
structure Covered (c : Cluster Unit Contents Stage) : Prop where
  proper : Proper (setting m) c
  sound : (ledger hfits).sound c.world
  left : forall n t, c.threads n = some t -> Leaves t.task -> (c.standing ()).status = .deactivated
  covered : (c.standing ()).status = .deactivated -> (ledger hfits).held c.world () ≠ none ->
    exists n t, c.threads n = some t ∧ Obliged t.task

theorem Covered.initial {w : Contents} (hw : (ledger hfits).sound w) :
    Covered hfits (.initial w) where
  proper := .initial w
  sound := hw
  left := fun _ _ h => (nomatch h)
  covered := fun h => (nomatch h)

variable {hfits}

theorem held_removed (hfits : Stored.Fits m.id.text) {s : Spot} (hs : Removes s) {w w' : Contents}
    {answer : (s.effect m).Answer} (hanswer : answers w (s.effect m) answer w') :
    (ledger hfits).held w' () = none := by
  cases s with
  | withdrawing exit | removing =>
      cases answer with
      | error e => cases hanswer.2 _ _ rfl
      | ok previous =>
          rw [hanswer.1.remove_ok.2]
          exact Contents.registration?_erase_self _ _ _
  | listing aim round | staking aim round claim | spreading aim round claim
  | verifying aim round claim | backingOff aim round last time | refreshing claim | checking claim
  | restoring claim => exact hs.elim

theorem obliged_moved {n k : Nat} {t u : Thread Unit Contents Stage} {σ : Standing} {w : Contents}
    (hu : c.threads k = some u) (hobliged : Obliged u.task) (hn : k = n -> Obliged t.task) :
    exists k' u', (c.moved n t σ w).threads k' = some u' ∧ Obliged u'.task := by
  by_cases hk : k = n
  · exact ⟨n, t, thread_moved_self t, hn hk⟩
  · exact ⟨k, u, (Function.update_of_ne hk ..).trans hu, hobliged⟩

theorem Covered.left_move (h : Covered hfits c) (hmove : Moves (setting m) c c') {n : Nat}
    {t : Thread Unit Contents Stage} (ht : c'.threads n = some t) (hleaves : Leaves t.task) :
    (c'.standing ()).status = .deactivated := by
  have hstays := (h.proper.shift hmove ()).deactivated
  cases arrives_of_moves hmove ht with
  | stay ht => exact hstays (h.left n t ht hleaves)
  | start _ _ hbegin => exact deactivated_of_begins hbegin hleaves
  | @call before _ hu htask _ _ _ _ _ | @wake before _ hu htask _ _ _ _ _ =>
      refine hstays (h.left n before hu ?_)
      rw [htask]
      exact leaves_of_due hleaves
  | @turn before _ _ _ hu htask _ hresume =>
      refine hstays (h.left n before hu (Or.inl ?_))
      rw [htask, ← leaves_of_resumes hresume hleaves]
      rfl

theorem Covered.covered_move (h : Covered hfits c) (hmove : Moves (setting m) c c')
    (hgone : (c'.standing ()).status = .deactivated)
    (hheld : (ledger hfits).held c'.world () ≠ none) :
    exists n t, c'.threads n = some t ∧ Obliged t.task := by
  cases hmove with
  | @start n i op stage σ w hfresh hpermits hbegin =>
      rw [standing_moved_self ⟨_, _, _⟩] at hgone
      by_cases hbefore : (c.standing i).status = .deactivated
      · rw [Cluster.world_moved, ((ledger hfits).begins hbegin h.sound).2] at hheld
        rcases h.covered hbefore hheld with ⟨k, u, hu, hobliged⟩
        refine obliged_moved hu hobliged ?_
        rintro rfl
        cases hfresh.symm.trans hu
      · exact ⟨n, _, thread_moved_self _, obliged_of_begins hbegin hbefore hgone⟩
  | @call n t s w ht htask hcall answer hpermits hanswer =>
      have hnamed := h.proper.named n t s ht (by rw [htask]; rfl)
      rw [Cluster.standing_kept] at hgone
      rcases ((ledger hfits).calls h.sound hnamed hcall hanswer).2 with
        ⟨_, hkept⟩ | ⟨entry, _, hwrote, hwritten⟩
      · rw [Cluster.world_moved, hkept] at hheld
        rcases h.covered hgone hheld with ⟨k, u, hu, hobliged⟩
        refine obliged_moved hu hobliged ?_
        rintro rfl
        cases ht.symm.trans hu
        rw [htask] at hobliged
        rcases hobliged with hsettles | hremoves
        · exact Or.inl hsettles
        · have hnone := held_removed hfits hremoves hanswer
          rw [hkept] at hnone
          exact absurd hnone hheld
      · cases entry with
        | none =>
            rw [Cluster.world_moved, hwritten] at hheld
            exact absurd (Function.update_self ..) hheld
        | some claim => exact ⟨n, _, thread_moved_self _, Or.inr ⟨claim, hwrote⟩⟩
  | @wake n t s ht htask hpermits hpause reply =>
      rw [Cluster.standing_kept] at hgone
      rcases h.covered hgone hheld with ⟨k, u, hu, hobliged⟩
      refine obliged_moved hu hobliged (fun _ => Or.inl ?_)
      cases s with
      | spreading aim round claim | backingOff aim round last time => exact trivial
      | listing aim round | staking aim round claim | verifying aim round claim
      | withdrawing exit | refreshing claim | checking claim | restoring claim | removing =>
          cases hpause
  | @turn n t s reply stage σ w ht htask hpermits hresume =>
      rw [standing_moved_self ⟨_, _, _⟩] at hgone
      rw [Cluster.world_moved, ((ledger hfits).resumes hresume h.sound).2] at hheld
      have hbefore := deactivated_of_resumes hresume hgone
      rcases h.covered hbefore hheld with ⟨k, u, hu, hobliged⟩
      refine obliged_moved hu hobliged ?_
      rintro rfl
      cases ht.symm.trans hu
      rw [htask] at hobliged
      exact obliged_of_resumes hresume hbefore hobliged
  | drift hpermits hdrift =>
      rw [((ledger hfits).drift h.sound hdrift).2] at hheld
      exact h.covered hgone hheld

theorem Covered.move (h : Covered hfits c) (hmove : Moves (setting m) c c') : Covered hfits c' where
  proper := h.proper.move hmove
  sound := (ledger hfits).sound_of_moves h.proper h.sound hmove
  left := fun _ _ ht hleaves => h.left_move hmove ht hleaves
  covered := h.covered_move hmove

/-!
# After a deactivation
-/

/-- The member has been deactivated, and only some threads are still busy. -/
structure Left (hfits : Stored.Fits m.id.text) (busy : Nat → Prop)
    (c : Cluster Unit Contents Stage) : Prop where
  covered : Covered hfits c
  gone : (c.standing ()).status = .deactivated
  busy : forall n t s, c.threads n = some t -> t.task.spot? = some s -> busy n

theorem Left.move {busy : Nat → Prop} (h : Left hfits busy c) (hmove : Moves (setting m) c c') :
    Left hfits busy c' := by
  refine ⟨h.covered.move hmove, (h.covered.proper.shift hmove ()).deactivated h.gone, ?_⟩
  intro n t s ht hs
  cases arrives_of_moves hmove ht with
  | stay ht => exact h.busy n t s ht hs
  | start _ _ hbegin => cases (finished_of_begins hbegin h.gone).symm.trans hs
  | call hu htask _ _ _ _ _ | wake hu htask _ _ _ _ _ =>
      exact h.busy n _ _ hu (spot?_of_waiting htask)
  | turn hu htask _ _ => exact h.busy n _ _ hu (spot?_of_due htask)

theorem Left.unregistered (h : Left hfits (fun _ => False) c) :
    c.world m.servers.name m.id.text = none := by
  have hheld : (ledger hfits).held c.world () = none := by
    by_contra hheld
    rcases h.covered.covered h.gone hheld with ⟨n, t, ht, hobliged⟩
    cases htask : t.task with
    | waiting s => exact h.busy n t s ht (spot?_of_waiting htask)
    | due s reply => exact h.busy n t s ht (spot?_of_due htask)
    | finished outcome =>
        rw [htask] at hobliged
        exact hobliged
  exact (h.covered.sound ()).registration?_eq_none.mp hheld

theorem stage_of_finished {stage : Stage} {outcome : Outcome}
    (h : stage.task m = .finished outcome) : stage = .finished outcome := by
  cases stage with
  | waiting s | due s reply => cases h
  | finished outcome' =>
      cases h
      rfl

/-- Once a deactivation has ended, and all that was under way with it, the member is not registered,
nothing that it is asked for takes time, and this stays so. -/
theorem deactivated_stays_unregistered (hfits : Stored.Fits m.id.text) {w : Contents}
    (hw : w.Sound m.servers.name m.id.text) {c c' c'' : Cluster Unit Contents Task}
    (hrun : Runs (setting m) (.initial w) c) {n : Nat} {t : Thread Unit Contents Task}
    {result : Except Error Unit} (ht : c.threads n = some t)
    (htask : t.task = .finished (.deregistered result)) (hrun' : Runs (setting m) c c')
    (hdone : forall k u, c.threads k = some u ->
      exists u' outcome, c'.threads k = some u' ∧ u'.task = .finished outcome)
    (hrun'' : Runs (setting m) c' c'') :
    c''.world m.servers.name m.id.text = none ∧
      forall k u, c''.threads k = some u -> exists outcome, u.task = .finished outcome := by
  rcases holds_of_runs (P := Covered hfits) (fun _ _ hmove h => h.move hmove)
    (.initial hfits fun _ => hw) hrun with ⟨c, rfl, hcovered⟩
  rcases thread_of_enacted ht with ⟨t, hthread, rfl⟩
  have hgone := hcovered.left n t hthread (Or.inr ⟨result, stage_of_finished htask⟩)
  rcases holds_of_runs (P := Left hfits fun k => c.threads k ≠ none)
    (fun _ _ hmove h => h.move hmove)
    ⟨hcovered, hgone, fun k u s hu _ => by rw [hu]; exact fun h => nomatch h⟩ hrun' with
    ⟨c', rfl, hleft⟩
  have hidle (k : Nat) (u : Thread Unit Contents Stage) (s : Spot) (hu : c'.threads k = some u)
      (hs : u.task.spot? = some s) : False := by
    rcases Option.ne_none_iff_exists'.mp (hleft.busy k u s hu hs) with ⟨before, hbefore⟩
    rcases hdone k _ (congrArg (Option.map (Thread.enacted (setting m))) hbefore) with
      ⟨u', outcome, hu', htask'⟩
    cases (congrArg (Option.map (Thread.enacted (setting m))) hu).symm.trans hu'
    rw [stage_of_finished htask'] at hs
    cases hs
  rcases holds_of_runs (P := Left hfits fun _ => False) (fun _ _ hmove h => h.move hmove)
    ⟨hleft.covered, hleft.gone, hidle⟩ hrun'' with ⟨c'', rfl, hnone⟩
  refine ⟨hnone.unregistered, fun k u hu => ?_⟩
  rcases thread_of_enacted hu with ⟨u, hthread', rfl⟩
  cases hstage : u.task with
  | waiting s => exact (hnone.busy k u s hthread' (spot?_of_waiting hstage)).elim
  | due s reply => exact (hnone.busy k u s hthread' (spot?_of_due hstage)).elim
  | finished outcome => exact ⟨outcome, congrArg (Stage.task m) hstage⟩

end

def lone : Member := ⟨⟨"a"⟩, {}⟩

theorem lone_fits : Stored.Fits lone.id.text :=
  Stored.fits_of_size (by decide)

theorem lone_registers {w : Contents} (hw : forall key, w lone.servers.name key = none) :
    exists outcome settled last w', Relation.ReflTransGen (Moves (setting lone)) (.initial w)
      ((Cluster.initial w).moved 0 ⟨(), .finished outcome, last⟩ ⟨.ready 0, some settled⟩ w') ∧
      settled.claim.serverId = lone.id.text ∧
      w'.Lists lone.servers.name [settled.claim] := by
  have hempty := Contents.lists_nil hw
  have hclaimed := hempty.put (r := ⟨"a", 0, .epoch⟩) ⟨lone_fits, by decide⟩
  have hnumber : Numbering.lowestFree "a" [] = 0 := Numbering.lowestFree_eq .nil
  have hstart := moves_activate (S := setting lone) (c := .initial w) (n := 0) (i := ()) rfl trivial
    rfl (show _ = 9 + 1 from rfl)
  refine ⟨_, _, _, _, .head hstart (reaches_round ⟨"a", 0, .epoch⟩ rfl hnumber.symm rfl
    (fun _ _ _ => trivial) ⟨trivial, hempty.answers, fun _ _ h => nomatch h⟩ hempty.heard rfl
    ⟨trivial, .put, fun _ _ h => nomatch h⟩ (hempty.heardPrevious _).choose_spec .refl trivial
    ⟨trivial, hclaimed.answers, fun _ _ h => nomatch h⟩ hclaimed.heard (by decide) rfl
    (.register rfl)), rfl, hclaimed⟩

/-- A heartbeat writes the registration again after a deactivation has removed it. -/
theorem lone_stays_unregistered :
    exists c c' : Cluster Unit Contents Task,
      Runs (setting lone) (.initial fun _ _ => none) c ∧
      (exists n t result, c.threads n = some t ∧ t.task = .finished (.deregistered result)) ∧
      (exists n t p, c.threads n = some t ∧ t.task = .waiting p) ∧ Runs (setting lone) c c' ∧
      (forall n t, c.threads n = some t ->
        exists t' outcome, c'.threads n = some t' ∧ t'.task = .finished outcome) ∧
      c'.world lone.servers.name lone.id.text = none := by
  rcases lone_registers (w := fun _ _ => none) fun _ => rfl with
    ⟨outcome, settled, last, w, hregistered, hserver, hlists⟩
  let σ : Standing := ⟨.ready 0, some settled⟩
  let c₁ := (Cluster.initial fun _ _ => none : Cluster Unit Contents Stage).moved 0
    ⟨(), .finished outcome, last⟩ σ w
  -- a heartbeat is under way when the member is deactivated
  let c₂ := c₁.moved 1 ⟨(), .waiting (.refreshing settled.claim), w⟩ σ w
  have hheartbeat : Moves (setting lone) c₁ c₂ := .start rfl trivial (.heartbeat rfl rfl)
  have hdeactivate : Moves (setting lone) c₂
      (c₂.moved 2 ⟨(), .waiting .removing, w⟩ { status := .deactivated } w) :=
    .start rfl trivial (.deactivate (fun h => nomatch h))
  have hremoved := reaches_call (S := setting lone) (c := c₂) (n := 2) (i := ()) (s := .removing)
    (σ := { status := .deactivated }) (w := w) w rfl
    ⟨trivial, .remove, fun _ _ _ => rfl⟩ (hlists.heardPrevious _).choose_spec trivial .removed
  let w₁ := w.assign lone.servers.name lone.id.text none
  let w₂ := w₁.assign lone.servers.name lone.id.text (some (Storable.encode settled.claim))
  let c₃ := c₂.moved 2 ⟨(), .finished (.deregistered (.ok ())), w₁⟩ { status := .deactivated } w₁
  -- the heartbeat writes the registration, and withdraws it
  let w₃ := w₂.assign lone.servers.name lone.id.text none
  have hlists₁ := hlists.remove lone.id.text
  have hfits : settled.claim.Fits := show Stored.Fits _ by
    rw [hserver]
    exact lone_fits
  have hlists₂ := hlists₁.put_written hfits
  rw [hserver] at hlists₂
  have hput := reaches_call (S := setting lone) (c := c₃) (n := 1) (i := ())
    (s := .refreshing settled.claim) (σ := { status := .deactivated }) (w := w₁) w rfl
    ⟨trivial, .put, fun _ _ h => nomatch h⟩ (hlists₁.heardPrevious _).choose_spec trivial
    (.refreshedLate rfl)
  have hwithdrawn := reaches_call (S := setting lone) (c := c₃) (n := 1) (i := ())
    (s := .withdrawing .quiet) (σ := { status := .deactivated }) (w := w₂) w₂ rfl
    ⟨trivial, .remove, fun _ _ _ => rfl⟩ (hlists₂.heardPrevious _).choose_spec trivial
    (.left (fun h => nomatch h))
  have hafter := hput.trans hwithdrawn
  have hself : c₃.moved 1 ⟨(), .waiting (.refreshing settled.claim), w⟩
      { status := .deactivated } w₁ = c₃ := moved_eq_self rfl rfl rfl
  rw [hself] at hafter
  have hrun := runs_of_moves (hregistered.trans (.head hheartbeat (.head hdeactivate hremoved)))
  have hrun' := runs_of_moves hafter
  have hdone (n : Nat) (t : Thread Unit Contents Task)
      (ht : (c₃.enacted (setting lone)).threads n = some t) :
      exists t' outcome, (Cluster.enacted (setting lone) (c₃.moved 1
          ⟨(), .finished .beaten, w₃⟩ { status := .deactivated } w₃)).threads n = some t' ∧
        t'.task = .finished outcome := by
    rcases n with _ | _ | _ | n
    · exact ⟨_, _, rfl, rfl⟩
    · exact ⟨_, _, rfl, rfl⟩
    · exact ⟨_, _, rfl, rfl⟩
    · cases ht
  have hsound : Contents.Sound (fun _ _ => none) lone.servers.name lone.id.text :=
    fun _ h => nomatch h
  exact ⟨_, _, hrun, ⟨2, _, _, rfl, rfl⟩, ⟨1, _, _, rfl, rfl⟩, hrun', hdone,
    (deactivated_stays_unregistered lone_fits hsound hrun (n := 2) rfl rfl hrun' hdone .refl).1⟩

end Deactivation
end Roster
