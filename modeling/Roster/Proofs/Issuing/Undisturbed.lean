import Roster.Proofs.Interleaving.Alone
import Roster.Proofs.Issuing.Uninterrupted
import Roster.Proofs.Numbering
import Roster.Proofs.Registry.Listing

/-!
# Members that take turns

While no thread runs and the store is available, a member registers with the lowest number, and
leaves again.
-/

namespace Roster
namespace Uninterrupted

open Interleaving UniqueId

section

variable {ι : Type} [DecidableEq ι] {fleet : Fleet ι} {c : Cluster ι World Stage} {n : Nat}
  {i : ι} {σ : Standing} {last w : World}

/-!
# While no thread runs
-/

def Idle (c : Cluster ι World Stage) : Prop :=
  forall n t, c.threads n = some t -> running t.task = false

omit [DecidableEq ι] in
theorem idle_initial (w : World) : Idle (.initial w : Cluster ι World Stage) :=
  fun _ _ h => nomatch h

theorem Idle.moved (h : Idle c) {t : Thread ι World Stage} (ht : running t.task = false) :
    Idle (c.moved n t σ w) := by
  intro k u hu
  rcases Cluster.thread_moved hu with ⟨_, rfl⟩ | ⟨_, hu⟩
  · exact ht
  · exact h k u hu

omit [DecidableEq ι] in
theorem Idle.permits (h : Idle c) {move : Move} (hmove : forall k, move ≠ .wake k) :
    (setting fleet).permits (c.enacted (setting fleet)) move := by
  refine ⟨fun k u hu hrunning => ?_, fun k u hwake _ => absurd hwake (hmove k)⟩
  rcases thread_of_enacted hu with ⟨t, ht, rfl⟩
  cases (h k t ht).symm.trans ((running_task _ _).mp hrunning)

theorem Idle.permits_moved (h : Idle c) (t : Thread ι World Stage) (σ : Standing) (w : World)
    {move : Move} (hthread : move.thread? = some n) (hmove : forall k, move ≠ .wake k) :
    (setting fleet).permits ((c.moved n t σ w).enacted (setting fleet)) move := by
  refine ⟨fun k u hu hrunning => ?_, fun k u hwake _ => absurd hwake (hmove k)⟩
  rcases thread_of_enacted hu with ⟨v, hv, rfl⟩
  rcases Cluster.thread_moved hv with ⟨rfl, _⟩ | ⟨_, hv⟩
  · exact hthread
  · cases (h k v hv).symm.trans ((running_task _ _).mp hrunning)

def spreading (fleet : Fleet ι) (i : ι) : Nat :=
  min (fleet.member i).config.settleDelay.millis Rehearsal.World.longestSleep

theorem Idle.permits_wake (h : Idle c) {aim : Aim} {round : Round} {claim : Registration}
    (hslept : last.now + spreading fleet i ≤ w.now) :
    (setting fleet).permits
      ((c.moved n ⟨i, .waiting (.spreading aim round claim), last⟩ σ w).enacted (setting fleet))
      (.wake n) := by
  have hidle : Idle (c.moved n ⟨i, .waiting (.spreading aim round claim), last⟩ σ w) := h.moved rfl
  constructor
  · intro k u hu hrunning
    rcases thread_of_enacted hu with ⟨t, ht, rfl⟩
    cases (hidle k t ht).symm.trans ((running_task _ _).mp hrunning)
  · intro k u hwake hu time next htask
    cases hwake
    rcases thread_of_enacted hu with ⟨t, ht, rfl⟩
    cases (thread_moved_self _).symm.trans ht
    cases htask
    exact hslept

/-!
# While the store is available
-/

omit [DecidableEq ι] in
theorem answers_of_available (h : w.available = true) (call : Call) :
    exists value regions, answers w (.call call) (.ok value) { w with regions } ∧
      w.store.contents.Answers call (.ok value) (World.store { w with regions }).contents := by
  have hstore : w.store.available = true := h
  rcases Store.answer_of_available hstore w.now call with ⟨value, regions, hanswer⟩
  exact ⟨value, regions, ⟨hanswer, rfl, rfl⟩, Store.answers_contents rfl hanswer⟩

section

variable {claim : Registration} {rs : List Registration}

omit [DecidableEq ι] in
theorem lists_of_available (h : w.available = true)
    (hlists : w.store.contents.Lists fleet.region rs) (i : ι) :
    exists values regions live,
      answers w (.call (.list (fleet.member i).servers.name)) (.ok values) { w with regions } ∧
      heardListing (.ok values) = .ok live ∧ (forall r, r ∈ live ↔ r ∈ rs) ∧
      (World.store { w with regions }).contents.Lists fleet.region rs := by
  have hname : (fleet.member i).servers.name = fleet.region := fleet.region_eq i
  rcases answers_of_available h (.list (fleet.member i).servers.name) with
    ⟨values, regions, hlist, hvalues⟩
  rw [hname] at hvalues
  rcases hlists.heard_of_answers hvalues with ⟨live, hlive, hmem⟩
  rw [← hvalues.eq_of_list] at hlists
  exact ⟨values, regions, live, hlist, hlive, hmem, hlists⟩

omit [DecidableEq ι] in
theorem puts_of_available (h : w.available = true)
    (hlists : w.store.contents.Lists fleet.region rs)
    (hclaim : claim.serverId = (fleet.member i).id.text) :
    exists previous regions before,
      answers w (.call (.put (fleet.member i).servers.name (fleet.member i).id.text
        (Storable.encode claim))) (.ok previous) { w with regions } ∧
      heardPrevious (.ok previous) = .ok before ∧
      (World.store { w with regions }).contents.Lists fleet.region
        (claim.written :: rs.filter (·.serverId ≠ claim.serverId)) := by
  have hname : (fleet.member i).servers.name = fleet.region := fleet.region_eq i
  rcases answers_of_available h (.put (fleet.member i).servers.name (fleet.member i).id.text
    (Storable.encode claim)) with ⟨previous, regions, hput, hputs⟩
  rw [hname, ← hclaim] at hputs
  rcases hputs.put_ok with ⟨rfl, hcontents⟩
  rcases hlists.heardPrevious claim.serverId with ⟨before, hbefore⟩
  have hfits : claim.Fits := show Stored.Fits _ by
    rw [hclaim]
    exact fleet.fits i
  have hclaimed := hlists.put_written hfits
  rw [← hcontents] at hclaimed
  exact ⟨_, regions, before, hput, hbefore, hclaimed⟩

omit [DecidableEq ι] in
theorem removes_of_available (h : w.available = true)
    (hlists : w.store.contents.Lists fleet.region rs) (i : ι) :
    exists previous regions before,
      answers w (.call (.remove (fleet.member i).servers.name (fleet.member i).id.text))
        (.ok previous) { w with regions } ∧
      heardPrevious (.ok previous) = .ok before ∧
      (World.store { w with regions }).contents.Lists fleet.region
        (rs.filter (·.serverId ≠ (fleet.member i).id.text)) := by
  have hname : (fleet.member i).servers.name = fleet.region := fleet.region_eq i
  rcases answers_of_available h (.remove (fleet.member i).servers.name (fleet.member i).id.text)
    with ⟨previous, regions, hremove, hremoves⟩
  rw [hname] at hremoves
  rcases hremoves.remove_ok with ⟨rfl, hcontents⟩
  rcases hlists.heardPrevious (fleet.member i).id.text with ⟨before, hbefore⟩
  have hremoved := hlists.remove (fleet.member i).id.text
  rw [← hcontents] at hremoved
  exact ⟨_, regions, before, hremove, hbefore, hremoved⟩

end

/-- The world some time later, when the clock shows what it should by then. -/
def later (w : World) (millis : Nat) (t : Instant) : World :=
  { w with now := w.now + millis, clock := t }

omit [DecidableEq ι] in
theorem drifts_later {millis : Nat} {t : Instant} (hadvances : Advances millis w.clock t)
    (hrange : InRange t.millis) : (setting fleet).drifts w (later w millis t) := by
  refine ⟨Nat.le_add_right _ _, ?_, hrange, fun _ => rfl⟩
  change Advances (w.now + millis - w.now) w.clock t
  rw [Nat.add_sub_cancel_left]
  exact hadvances

theorem Idle.registers (h : Idle c) (hempty : Empty fleet c.world)
    (havailable : c.world.available = true) {t t' : Instant} (hclock : c.world.clock ≤ t)
    (hrange : InRange t.millis) {pause : Nat} (hpause : spreading fleet i = pause)
    (hadvances : Advances pause t t') (hrange' : InRange t'.millis)
    (hfresh : c.threads n = none)
    (hinactive : (c.standing i).status = .inactive) {remaining : Nat}
    (hattempts : (fleet.member i).config.settleAttempts.toNat = remaining + 1) :
    exists w, Relation.ReflTransGen (Moves (setting fleet)) c
        (c.moved n ⟨i, .finished (.registered (.ok 0)), w⟩
          ⟨.ready 0, some ⟨⟨(fleet.member i).id.text, 0, t⟩, ⟨0, 0⟩⟩⟩ w) ∧
      w.store.contents.Lists fleet.region [⟨(fleet.member i).id.text, 0, t.written⟩] ∧
      w.available = true ∧ w.clock = t' := by
  let claim : Registration := ⟨(fleet.member i).id.text, 0, t⟩
  let round : Round := ⟨1, remaining⟩
  let σ : Standing := { c.standing i with status := .registering }
  have hstart := moves_activate (S := setting fleet) hfresh (h.permits fun k h => nomatch h)
    hinactive hattempts
  have hcall {s : Spot} {last w : World} {b : Bool} : (setting fleet).permits
      ((c.moved n ⟨i, .waiting s, last⟩ σ w).enacted (setting fleet)) (.call n b) :=
    h.permits_moved _ _ _ rfl fun k h => nomatch h
  -- the region is listed, and nobody holds a number
  rcases lists_of_available havailable (Contents.lists_nil hempty) i with
    ⟨values, regions, live, hlist, hlive, hmem, hlists⟩
  cases List.eq_nil_iff_forall_not_mem.mpr fun r hr => nomatch (hmem r).mp hr
  have hnumber : Numbering.lowestFree (fleet.member i).id.text [] = 0 :=
    Numbering.lowestFree_eq .nil
  let w₁ : World := { c.world with regions }
  let w₂ : World := { w₁ with clock := t }
  have hnow : answers w₁ .now t w₂ := ⟨hclock, hrange, rfl⟩
  -- the claim is put, and spreads
  have hserver : claim.serverId = (fleet.member i).id.text := rfl
  rcases puts_of_available (w := w₂) havailable hlists hserver with
    ⟨previous, regions', before, hput, hbefore, hclaimed⟩
  let w₃ : World := { w₂ with regions := regions' }
  let w₄ := later w₃ pause t'
  -- no other claim is found
  rcases lists_of_available (w := w₄) havailable hclaimed i with
    ⟨values', regions'', live', hlist', hlive', hmem', hlists'⟩
  have hverdict : Numbering.verdict claim live' ≠ .lost := by
    refine Numbering.verdict_ne_lost_iff.mpr fun e he _ hother => ?_
    rw [List.mem_singleton.mp ((hmem' e).mp he)] at hother
    exact absurd rfl hother
  have hlisted : (setting fleet).Calls c n i σ (.listing .register round) c.world c.world
      (.ok values) w₁ := ⟨hcall, hlist⟩
  have hstaked : (setting fleet).Calls c n i σ (.staking .register round claim) w₁ w₂
      (.ok previous) w₃ := ⟨hcall, hput⟩
  have hverified : (setting fleet).Calls c n i σ (.verifying .register round claim) w₃ w₄
      (.ok values') _ := ⟨hcall, hlist'⟩
  have hround := reaches_round claim hserver hnumber.symm rfl
    (fun stage last w => h.permits_moved _ _ _ rfl fun k h => nomatch h) hlisted hlive hnow hstaked
    hbefore (.single (.drift ((h.moved rfl).permits fun k h => nomatch h)
      (drifts_later hadvances hrange')))
    (h.permits_wake (by rw [hpause]; exact Nat.le_refl _)) hverified hlive' hverdict rfl
    (.register rfl)
  exact ⟨_, .head hstart hround, hlists', havailable, rfl⟩

theorem Idle.deregisters (h : Idle c) {claim : Registration}
    (hclaim : claim.serverId = (fleet.member i).id.text)
    (hlists : c.world.store.contents.Lists fleet.region [claim])
    (havailable : c.world.available = true) (hfresh : c.threads n = none)
    (hready : (c.standing i).status.isReady = true) :
    exists w, Relation.ReflTransGen (Moves (setting fleet)) c
        (c.moved n ⟨i, .finished (.deregistered (.ok ())), w⟩ { status := .deactivated } w) ∧
      Empty fleet w ∧ w.available = true ∧ w.clock = c.world.clock := by
  have hstart : Moves (setting fleet) c (c.moved n ⟨i, .waiting .removing, c.world⟩
      { status := .deactivated } c.world) := by
    refine .start hfresh (h.permits fun k h => nomatch h) (.deactivate fun hgone => ?_)
    rw [hgone] at hready
    cases hready
  rcases removes_of_available havailable hlists i with
    ⟨previous, regions, before, hremove, hbefore, hremoved⟩
  have hturned := reaches_call (S := setting fleet) (c := c) (n := n) (i := i) (s := .removing)
    (σ := { status := .deactivated }) (w := c.world) c.world rfl
    ⟨h.permits_moved _ _ _ rfl fun k h => (nomatch h), hremove⟩ hbefore
    (h.permits_moved _ _ _ rfl fun k h => nomatch h) .removed
  refine ⟨_, .head hstart hturned, fun key => ?_, havailable, rfl⟩
  rw [List.filter_cons_of_neg (by simpa using hclaim), List.filter_nil] at hremoved
  cases hbytes : (World.store { c.world with regions }).contents fleet.region key with
  | none => rfl
  | some bytes =>
      rcases (hremoved.lookup key bytes).mp hbytes with ⟨r, hr, _⟩
      cases hr

end

end Uninterrupted
end Roster
