import Roster.Proofs.Deactivation
import Roster.Proofs.Interleaving.Issued
import Roster.Proofs.Lifecycle
import Roster.Proofs.Settling.Orderly

/-!
# What the registry says of a ready member

A heartbeat that looks for a new number overwrites the registration of its member with one claim
after another, while the member goes on issuing ids for its old number.  By the time that the
heartbeat ends, the registry says again which number the member relies on: the new claim has been
taken over, or the old one has been written again.

The registry may fail listings and puts, and others may write what they like under other keys.  Only
the put that writes the old claim again does not fail, and heartbeats do not overlap.
-/

namespace Roster
namespace Advertising

open Interleaving

/-!
# The setting
-/

def answers (w : Contents) : (e : Effect) → e.Answer → Contents → Prop
  | .call c, answer, w' => w.Answers c answer w'
  | .now, _, w' | .readingPast _, _, w' => w' = w
  | _, _, _ => False

/-- The thread is about to write a claim again that no other could take the place of. -/
def Restores (m : Member) (claim : Registration) (task : Task) : Prop :=
  exists next, task = .waiting ((m.restore claim).bind next)

def Lone (c : Cluster Unit Contents Task) : Prop :=
  forall n k t u, c.threads n = some t -> c.threads k = some u -> t.task.Pursues .heartbeat ->
    u.task.Pursues .heartbeat -> n = k

def setting (m : Member) : Setting Unit Contents where
  member := fun _ => m
  answers := fun _ => answers
  notes := fun w _ => w
  drifts := fun w w' => w' m.servers.name m.id.text = w m.servers.name m.id.text
  permits := fun c move => Lone c ∧
    forall n t claim, move = .call n false -> c.threads n = some t -> ¬ Restores m claim t.task

/-- A ready member is registered with the claim that it issues ids for. -/
def Advertises (m : Member) (c : Cluster Unit Contents Task) : Prop :=
  forall number, (c.standing ()).status = .ready number ->
    exists settled, (c.standing ()).settled = some settled ∧
      c.world.registration? m.servers.name m.id.text = some settled.claim.written ∧
      (settled.claim.claimedAt.HasText ->
        c.world.registration? m.servers.name m.id.text = some settled.claim) ∧
      settled.claim.serverId = m.id.text ∧ settled.claim.number = number ∧
      forall {ρ : Type} (around : (e : Effect) → ρ → e.Answer × ρ) r id,
        (Member.uniqueId.complete around (c.standing ()) r).1 = .ok id ->
          id.server.toNat = number.toNat

def shared {m : Member} (hfits : Stored.Fits m.id.text) : Shared (setting m) where
  contents := id
  region := m.servers.name
  region_eq := fun _ => rfl
  id_injective := fun _ _ _ => rfl
  fits := fun _ => hfits
  call := fun h => h
  now := fun h => h
  readingPast := fun h => h
  note := fun _ _ => rfl
  drift := fun h _ => h

def ledger {m : Member} (hfits : Stored.Fits m.id.text) : Ledger (setting m) :=
  (shared hfits).ledger

/-!
# Heartbeats for a claim
-/

def Serves (claim : Registration) : Spot → Prop
  | .listing aim _ | .staking aim _ _ | .spreading aim _ _ | .verifying aim _ _
  | .backingOff aim _ _ _ => aim = .renumber claim
  | .refreshing held | .checking held | .restoring held => held = claim
  | .withdrawing _ | .removing => False

/-- The thread has overwritten the claim of its member, or may do so, and has more to do. -/
def Amends : Stage → Prop
  | .waiting (.restoring _) => True
  | .waiting s | .due s _ => Deactivation.Settles s
  | .finished _ => False

theorem operation_of_serves {claim : Registration} {s : Spot} (h : Serves claim s) :
    s.operation = .heartbeat := by
  cases s with
  | listing aim round | staking aim round held | spreading aim round held
  | verifying aim round held | backingOff aim round last time =>
      cases h
      rfl
  | refreshing held | checking held | restoring held => rfl
  | withdrawing exit | removing => exact h.elim

section

variable {ι ω : Type} {S : Setting ι ω} {i : ι} {σ σ' : Standing} {w w' : ω} {aim : Aim}
  {stage : Stage} {s s' : Spot} {claim : Registration}

/-- How a heartbeat of a ready member goes on from a spot. -/
inductive Proceeds (claim : Registration) (σ : Standing) (s : Spot) : Stage → Standing → Prop where
  | amend {s' : Spot} (hserves : Serves claim s') (hamends : Amends (.waiting s')) :
      Proceeds claim σ s (.waiting s') σ
  | check (hs : ¬ Deactivation.Settles s) : Proceeds claim σ s (.waiting (.checking claim)) σ
  | finish (hs : ¬ Deactivation.Settles s) : Proceeds claim σ s (.finished .beaten) σ
  | renumber {aim : Aim} {round : Round} {settled : Settled}
      (hs : s = .verifying aim round settled.claim) :
      Proceeds claim σ s (.finished .beaten)
        { status := .ready settled.claim.number, settled := some settled }

section

variable (hready : σ.status.isReady = true)

include hready

theorem proceeds_of_quits {e : Error} (h : Quits S i σ w (.renumber claim) e stage w') :
    Proceeds claim σ s stage σ := by
  cases h with
  | restore _ => exact .amend rfl trivial
  | interrupt hlate => cases hready.symm.trans hlate

theorem proceeds_of_tries {attempt remaining : Nat} {last : Option RegistryError}
    (h : Tries S i σ w (.renumber claim) attempt last remaining stage w') :
    Proceeds claim σ s stage σ := by
  cases h with
  | list _ => exact .amend rfl trivial
  | barred hsettle _ => cases (Status.maySettle_of_isReady hready).symm.trans hsettle
  | exhausted hquit => exact proceeds_of_quits hready hquit

theorem proceeds_of_retries {round : Round} {last : Option RegistryError}
    (h : Retries S i σ w (.renumber claim) round last stage w') : Proceeds claim σ s stage σ := by
  cases h with
  | backOff _ _ => exact .amend rfl trivial
  | exhausted _ hquit => exact proceeds_of_quits hready hquit

theorem proceeds_of_resumes {reply : s.Reply} (h : Resumes S i σ w s reply stage σ' w')
    (hs : Serves claim s) : Proceeds claim σ s stage σ' := by
  cases h with
  | listed _ | staked | spread _ => exact .amend hs trivial
  | listingFailed hretry | stakingFailed hretry | verifyingFailed hretry | lost _ hretry =>
      cases hs
      exact proceeds_of_retries hready hretry
  | spreadBarred _ hquit | overflow _ _ hquit =>
      cases hs
      exact proceeds_of_quits hready hquit
  | upheld _ hsettled hwin =>
      cases hs
      have hclaim := (Settled.proper_of_ofClaim? hsettled rfl).1
      cases hwin with
      | renumber _ =>
          rw [← hclaim]
          exact .renumber rfl
      | interrupt hlate => cases hready.symm.trans hlate
  | backedOff htry =>
      cases hs
      exact proceeds_of_tries hready htry
  | refreshed _ =>
      cases hs
      exact .check fun h => h
  | contested _ htry =>
      cases hs
      exact proceeds_of_tries hready htry
  | refreshedLate hlate | restoredLate hlate => cases hready.symm.trans hlate
  | refreshingFailed | uncontested _ | checkingFailed | restored _ | restoringFailed =>
      exact .finish fun h => h
  | relinquished _ | left _ | removed | removingFailed => exact hs.elim

end

theorem not_ready_of_begins {op : Operation} {outcome : Outcome}
    (h : Begins S i σ w op (.finished outcome) σ' w') {id : String} (hσ : σ.Proper id)
    (houtcome : outcome = .beaten ∨ exists number, outcome = .registered (.ok number)) :
    ¬ σ'.status.isReady = true := by
  intro hready
  generalize hstage : Stage.finished outcome = stage at h
  cases h with
  | heartbeatIdle hidle => exact hσ.settled_of_ready hready (hidle hready)
  | activate _ htry =>
      rcases htry.retreats with ⟨s, rfl, _⟩
      cases hstage
  | heartbeat _ _ | deactivate _ => cases hstage
  | activateRefused _ | deactivateAgain _ | uniqueId _ _ | uniqueIdRefused _ =>
      cases hstage
      rcases houtcome with houtcome | ⟨number, houtcome⟩ <;> cases houtcome

theorem serves_of_begins {op : Operation} (h : Begins S i σ w op stage σ' w') {id : String}
    (hσ' : σ'.Proper id) {settled : Settled} (hsettled : σ'.settled = some settled)
    (hs : stage.spot? = some s) : Serves settled.claim s := by
  cases h with
  | activate _ _ => cases (hσ'.of_settled settled hsettled).1
  | heartbeat _ hbefore =>
      cases hbefore.symm.trans hsettled
      cases hs
      rfl
  | deactivate _ => cases hsettled
  | activateRefused _ | heartbeatIdle _ | deactivateAgain _ | uniqueId _ _ | uniqueIdRefused _ =>
      cases hs

theorem claim?_of_resumes {reply : s.Reply} (h : Resumes S i σ w s reply stage σ' w')
    {settled : Settled} (hsettled : σ'.settled = some settled) :
    σ.settled = some settled ∨ (Stage.due s reply).claim? = some settled.claim := by
  cases h with
  | upheld _ hof hwin =>
      have hclaim := (Settled.proper_of_ofClaim? hof rfl).1
      cases hwin with
      | register _ | renumber _ =>
          cases hsettled
          exact Or.inr (congrArg some hclaim.symm)
      | late _ | interrupt _ => exact Or.inl hsettled
  | _ => exact Or.inl hsettled

end

/-!
# What is on record
-/

section

variable {m : Member} (hfits : Stored.Fits m.id.text) {c c' : Cluster Unit Contents Stage}

/-- The claim of a ready member is on record, unless a heartbeat is about to amend the record. -/
structure Kept (c : Cluster Unit Contents Stage) : Prop where
  sole : Sole (setting m) c
  sound : (ledger hfits).sound c.world
  serves : forall n t s settled, c.threads n = some t -> t.task.spot? = some s ->
    (c.standing ()).settled = some settled -> Serves settled.claim s
  recorded : forall n t claim, c.threads n = some t -> t.task.claim? = some claim ->
    (c.standing ()).status.maySettle = true ->
      (ledger hfits).held c.world () = some claim.written
  kept : forall settled, (c.standing ()).settled = some settled ->
    (ledger hfits).held c.world () = some settled.claim.written ∨
      exists n t, c.threads n = some t ∧ Amends t.task

theorem Kept.initial {w : Contents} (hw : (ledger hfits).sound w) : Kept hfits (.initial w) where
  sole := .initial w
  sound := hw
  serves := fun _ _ _ _ h => (nomatch h)
  recorded := fun _ _ _ h => (nomatch h)
  kept := fun _ h => (nomatch h)

variable {hfits}

theorem Kept.alone (h : Kept hfits c) (hlone : Lone (c.enacted (setting m)))
    (hmay : (c.standing ()).status.maySettle = true) {n k : Nat}
    {t u : Thread Unit Contents Stage} {s s' : Spot} (ht : c.threads n = some t)
    (hs : t.task.spot? = some s) (hu : c.threads k = some u) (hs' : u.task.spot? = some s') :
    n = k := by
  cases hstatus : (c.standing ()).status with
  | registering => exact (h.sole.proper.alone hstatus ht hs hu rfl hs').symm
  | ready number =>
      have hready := Status.isReady_of_ready hstatus
      rcases Option.ne_none_iff_exists'.mp
        ((h.sole.proper.standing ()).settled_of_ready hready) with
        ⟨settled, hsettled⟩
      have hop := operation_of_serves (h.serves n t s settled ht hs hsettled)
      have hop' := operation_of_serves (h.serves k u s' settled hu hs' hsettled)
      exact hlone n k _ _ (threads_enacted ht) (threads_enacted hu)
        (pursues_task.mpr ⟨s, hs, hop⟩) (pursues_task.mpr ⟨s', hs', hop'⟩)
  | inactive | deactivated =>
      rw [hstatus] at hmay
      cases hmay

theorem Kept.maySettle (h : Kept hfits c) (hmove : Moves (setting m) c c') {n : Nat}
    {t : Thread Unit Contents Stage} {s : Spot} (ht : c.threads n = some t)
    (hs : t.task.spot? = some s) (hmay : (c'.standing ()).status.maySettle = true) :
    (c.standing ()).status.maySettle = true := by
  cases hstatus : (c.standing ()).status with
  | inactive => exact absurd hstatus (h.sole.proper.not_inactive ht hs)
  | deactivated =>
      rw [(h.sole.proper.shift hmove ()).deactivated hstatus] at hmay
      cases hmay
  | registering | ready number => rfl

theorem Kept.start (h : Kept hfits c) {n : Nat} {op : Operation} {stage : Stage} {σ : Standing}
    {w : Contents} (hfresh : c.threads n = none)
    (hbegin : Begins (setting m) () (c.standing ()) c.world op stage σ w)
    (hmove : Moves (setting m) c (c.moved n ⟨(), stage, w⟩ σ w)) :
    Kept hfits (c.moved n ⟨(), stage, w⟩ σ w) := by
  have hsole := h.sole.move hmove
  have hstanding : (c.moved n ⟨(), stage, w⟩ σ w).standing () = σ :=
    standing_moved_self ⟨(), stage, w⟩
  rcases (ledger hfits).begins hbegin h.sound with ⟨hsound, hheld⟩
  refine ⟨hsole, hsound, ?_, ?_, ?_⟩
  · intro k u s settled hu hs hsettled
    rw [hstanding] at hsettled
    rcases Cluster.thread_moved hu with ⟨rfl, rfl⟩ | ⟨_, hu⟩
    · have hσ := hsole.proper.standing ()
      rw [hstanding] at hσ
      exact serves_of_begins hbegin hσ hsettled hs
    · rcases hbegin.retains hsettled with ⟨before, hbefore, hretains⟩
      rw [hretains.claim_eq]
      exact h.serves k u s before hu hs hbefore
  · intro k u claim hu hclaim hmay
    change (ledger hfits).held w () = some claim.written
    rw [hheld]
    rcases Cluster.thread_moved hu with ⟨rfl, rfl⟩ | ⟨_, hu⟩
    · cases hbegin.claim?_eq.symm.trans hclaim
    · rcases spot?_of_claim? hclaim with ⟨s, hs⟩
      exact h.recorded k u claim hu hclaim (h.maySettle hmove hu hs hmay)
  · intro settled hsettled
    rw [hstanding] at hsettled
    rcases hbegin.retains hsettled with ⟨before, hbefore, hretains⟩
    change (ledger hfits).held w () = some settled.claim.written ∨ _
    rw [hheld, hretains.claim_eq]
    rcases h.kept before hbefore with hkept | ⟨k, u, hu, hamends⟩
    · exact Or.inl hkept
    · refine Or.inr ⟨k, u, (Function.update_of_ne ?_ ..).trans hu, hamends⟩
      rintro rfl
      cases hfresh.symm.trans hu

theorem amends_of_serves {claim : Registration} {s : Spot} {reply : s.Reply}
    {entry : Option Registration} (hs : Serves claim s) (hwritten : s.written? = some entry) :
    entry = some claim ∨ Amends (.due s reply) := by
  cases s with
  | staking aim round held => exact Or.inr trivial
  | refreshing held | restoring held =>
      cases hs
      cases hwritten
      exact Or.inl rfl
  | listing aim round | spreading aim round held | verifying aim round held
  | backingOff aim round last time | checking held => cases hwritten
  | withdrawing exit | removing => exact hs.elim

theorem amends_waiting {s : Spot} (h : Amends (.waiting s)) :
    (exists claim, s = .restoring claim) ∨ Deactivation.Settles s := by
  cases s with
  | restoring claim => exact Or.inl ⟨claim, rfl⟩
  | listing aim round | staking aim round claim | spreading aim round claim
  | verifying aim round claim | backingOff aim round last time | withdrawing exit
  | refreshing claim | checking claim | removing => exact Or.inr h

theorem spot?_of_amends {stage : Stage} (h : Amends stage) : exists s, stage.spot? = some s := by
  cases stage with
  | waiting s | due s reply => exact ⟨s, rfl⟩
  | finished outcome => exact h.elim

theorem Kept.replied (h : Kept hfits c) (hlone : Lone (c.enacted (setting m))) {n : Nat}
    {t : Thread Unit Contents Stage} {s : Spot} {reply : s.Reply} {last w : Contents}
    (ht : c.threads n = some t) (htask : t.task = .waiting s) (hsound : (ledger hfits).sound w)
    (hheld : (Stage.due s reply).wrote? = none ∧
        (ledger hfits).held w = (ledger hfits).held c.world ∨
      exists entry, s.written? = some entry ∧ (Stage.due s reply).wrote? = entry ∧
        (ledger hfits).held w () = entry.map Registration.written)
    (hrestored : forall claim, s = .restoring claim ->
      (ledger hfits).held w () = some claim.written) :
    Kept hfits (c.moved n ⟨(), .due s reply, last⟩ (c.standing ()) w) := by
  have hspot := spot?_of_waiting htask
  have hstanding : (c.moved n ⟨(), .due s reply, last⟩ (c.standing ()) w).standing () =
      c.standing () := standing_moved_self ⟨(), .due s reply, last⟩
  refine ⟨h.sole.replied ht htask, hsound, ?_, ?_, ?_⟩
  · intro k u s' settled hu hs' hsettled
    rw [hstanding] at hsettled
    rcases Cluster.thread_moved hu with ⟨rfl, rfl⟩ | ⟨_, hu⟩
    · exact h.serves k t s' settled ht (hspot.trans hs') hsettled
    · exact h.serves k u s' settled hu hs' hsettled
  · intro k u claim hu hclaim hmay
    rw [hstanding] at hmay
    change (ledger hfits).held w () = some claim.written
    rcases Cluster.thread_moved hu with ⟨rfl, rfl⟩ | ⟨hk, hu⟩
    · rcases wrote?_or_of_claim? hclaim with hwrote | ⟨hunwritten, hbefore⟩
      · rcases hheld with ⟨hnone, _⟩ | ⟨entry, _, hentry, hheld⟩
        · cases hnone.symm.trans hwrote
        · rw [hheld, ← hentry, hwrote]
          rfl
      · rcases hheld with ⟨_, hheld⟩ | ⟨entry, hwritten, _⟩
        · rw [hheld]
          exact h.recorded k t claim ht (by rw [htask]; exact hbefore) hmay
        · cases hunwritten.symm.trans hwritten
    · rcases spot?_of_claim? hclaim with ⟨s', hs'⟩
      exact absurd (h.alone hlone hmay hu hs' ht hspot) hk
  · intro settled hsettled
    rw [hstanding] at hsettled
    change (ledger hfits).held w () = some settled.claim.written ∨ _
    have hmay : (c.standing ()).status.maySettle = true := by
      rw [((h.sole.proper.standing ()).of_settled settled hsettled).1]
      rfl
    have hamended (hamends : Amends (.due s reply)) : exists k u,
        (c.moved n ⟨(), .due s reply, last⟩ (c.standing ()) w).threads k = some u ∧
          Amends u.task := ⟨n, _, thread_moved_self _, hamends⟩
    rcases hheld with ⟨_, hheld⟩ | ⟨entry, hwritten, _, hheld⟩
    · rcases h.kept settled hsettled with hkept | ⟨k, u, hu, hamends⟩
      · rw [hheld]
        exact Or.inl hkept
      · rcases spot?_of_amends hamends with ⟨s', hs'⟩
        cases h.alone hlone hmay hu hs' ht hspot
        cases hu.symm.trans ht
        rw [htask] at hamends
        rcases amends_waiting hamends with ⟨claim, rfl⟩ | hsettles
        · have hserves : claim = settled.claim :=
            h.serves _ t (.restoring claim) settled ht hspot hsettled
          rw [← hserves]
          exact Or.inl (hrestored claim rfl)
        · exact Or.inr (hamended hsettles)
    · rw [hheld]
      rcases amends_of_serves (h.serves n t s settled ht hspot hsettled) hwritten with
        hentry | hamends
      · exact Or.inl (congrArg _ hentry)
      · exact Or.inr (hamended hamends)

theorem held_restored (hfits : Stored.Fits m.id.text) {claim : Registration}
    (hclaim : claim.serverId = m.id.text) {w w' : Contents} {previous : Option Bytes}
    (hanswer : answers w (.call (.put m.servers.name m.id.text (Storable.encode claim)))
      (.ok previous) w') : (ledger hfits).held w' () = some claim.written := by
  have hput := Contents.Answers.put_ok hanswer
  rw [hput.2]
  exact Contents.registration?_assign_self _ (by rw [hclaim]; exact hfits)

theorem Kept.turn (h : Kept hfits c) (hlone : Lone (c.enacted (setting m))) {n : Nat}
    {t : Thread Unit Contents Stage} {s : Spot} {reply : s.Reply} {stage : Stage} {σ : Standing}
    {w : Contents} (ht : c.threads n = some t) (htask : t.task = .due s reply)
    (hresume : Resumes (setting m) () (c.standing ()) c.world s reply stage σ w)
    (hmove : Moves (setting m) c (c.moved n ⟨(), stage, t.last⟩ σ w)) :
    Kept hfits (c.moved n ⟨(), stage, t.last⟩ σ w) := by
  have hspot := spot?_of_due htask
  have hsole := h.sole.move hmove
  have hstanding : (c.moved n ⟨(), stage, t.last⟩ σ w).standing () = σ :=
    standing_moved_self ⟨(), stage, t.last⟩
  rcases (ledger hfits).resumes hresume h.sound with ⟨hsound, hheld⟩
  -- a settled member is ready, and its heartbeat proceeds
  have hmay (settled : Settled) (hsettled : σ.settled = some settled) :
      (c.standing ()).status.maySettle = true := by
    refine h.maySettle hmove ht hspot ?_
    have hσ := hsole.proper.standing ()
    rw [hstanding] at hσ ⊢
    rw [(hσ.of_settled settled hsettled).1]
    rfl
  have hproceeds (settled : Settled) (hsettled : (c.standing ()).settled = some settled) :
      Proceeds settled.claim (c.standing ()) s stage σ := by
    refine proceeds_of_resumes ?_ hresume (h.serves n t s settled ht hspot hsettled)
    rw [((h.sole.proper.standing ()).of_settled settled hsettled).1]
    rfl
  refine ⟨hsole, hsound, ?_, ?_, ?_⟩
  · intro k u s' settled hu hs' hsettled
    rw [hstanding] at hsettled
    rcases Cluster.thread_moved hu with ⟨rfl, rfl⟩ | ⟨hk, hu⟩
    · have hsame := hresume.standing_eq hs'
      rw [hsame] at hsettled
      cases hproceeds settled hsettled with
      | amend hserves _ =>
          cases hs'
          exact hserves
      | check _ =>
          cases hs'
          rfl
      | finish _ | renumber _ => cases hs'
    · exact absurd (h.alone hlone (hmay settled hsettled) hu hs' ht hspot) hk
  · intro k u claim hu hclaim hmay'
    change (ledger hfits).held w () = some claim.written
    rw [hheld]
    have hbefore := h.maySettle hmove ht hspot hmay'
    rcases Cluster.thread_moved hu with ⟨rfl, rfl⟩ | ⟨hk, hu⟩
    · exact h.recorded k t claim ht (by rw [htask]; exact (hresume.claim?_eq hclaim).1) hbefore
    · rcases spot?_of_claim? hclaim with ⟨s', hs'⟩
      exact absurd (h.alone hlone hbefore hu hs' ht hspot) hk
  · intro settled hsettled
    rw [hstanding] at hsettled
    change (ledger hfits).held w () = some settled.claim.written ∨ _
    rw [hheld]
    have hrecorded (hclaim : (Stage.due s reply).claim? = some settled.claim) :
        (ledger hfits).held c.world () = some settled.claim.written :=
      h.recorded n t settled.claim ht (by rw [htask]; exact hclaim) (hmay settled hsettled)
    rcases claim?_of_resumes hresume hsettled with hbefore | hclaim
    · rcases h.kept settled hbefore with hkept | ⟨k, u, hu, hamends⟩
      · exact Or.inl hkept
      · rcases spot?_of_amends hamends with ⟨s', hs'⟩
        cases h.alone hlone (hmay settled hsettled) hu hs' ht hspot
        cases hu.symm.trans ht
        rw [htask] at hamends
        cases hproceeds settled hbefore with
        | amend _ hamends' => exact Or.inr ⟨_, _, thread_moved_self _, hamends'⟩
        | check hs | finish hs => exact absurd hamends hs
        | renumber hs =>
            cases hsettled
            subst hs
            exact Or.inl (hrecorded rfl)
    · exact Or.inl (hrecorded hclaim)

theorem Kept.move (h : Kept hfits c) (hmove : Moves (setting m) c c') : Kept hfits c' := by
  cases hmove with
  | start hfresh hpermits hbegin => exact h.start hfresh hbegin (.start hfresh hpermits hbegin)
  | @call n t s w ht htask hcall answer hpermits hanswer =>
      have hnamed := h.sole.proper.named n t s ht (spot?_of_waiting htask)
      rcases (ledger hfits).calls h.sound hnamed hcall hanswer with ⟨hsound, hheld⟩
      refine h.replied hpermits.1 ht htask hsound ?_ ?_
      · rcases hheld with hkept | ⟨entry, hwritten, hwrote, hheld⟩
        · exact Or.inl hkept
        · refine Or.inr ⟨entry, hwritten, hwrote, ?_⟩
          rw [hheld]
          exact Function.update_self ..
      · rintro claim rfl
        cases answer with
        | error e =>
            refine absurd ?_ (hpermits.2 n _ claim rfl (threads_enacted ht))
            refine ⟨fun _ => .done .beaten, ?_⟩
            change t.task.task m = _
            rw [htask, Spot.proc_restoring]
            rfl
        | ok previous => exact held_restored hfits hnamed hanswer
  | wake ht htask hpermits hpause reply =>
      refine h.replied hpermits.1 ht htask h.sound
        (Or.inl ⟨Stage.wrote?_of_pauses hpause reply, rfl⟩) ?_
      rintro claim rfl
      cases hpause
  | turn ht htask hpermits hresume =>
      exact h.turn hpermits.1 ht htask hresume (.turn ht htask hpermits hresume)
  | drift hpermits hdrift =>
      rcases (ledger hfits).drift h.sound hdrift with ⟨hsound, hheld⟩
      refine ⟨h.sole.move (.drift hpermits hdrift), hsound, h.serves, ?_, ?_⟩
      · intro n t claim ht hclaim hmay
        rw [hheld]
        exact h.recorded n t claim ht hclaim hmay
      · intro settled hsettled
        rw [hheld]
        exact h.kept settled hsettled

/-!
# After heartbeats
-/

theorem Kept.advertises (h : Kept hfits c)
    (hidle : forall n t s, c.threads n = some t -> t.task.spot? = some s ->
      s.operation ≠ .heartbeat) : Advertises m (c.enacted (setting m)) := by
  intro number hstatus
  have hproper := h.sole.proper.standing ()
  rcases hproper.coherent.ready_iff.mp ⟨number, hstatus⟩ with ⟨settled, hsettled⟩
  rcases hproper.coherent.agree number settled hstatus hsettled with ⟨hserverId, hnumber, _⟩
  have hkept : c.world.registration? m.servers.name m.id.text = some settled.claim.written := by
    rcases h.kept settled hsettled with hkept | ⟨n, t, ht, hamends⟩
    · exact hkept
    · rcases spot?_of_amends hamends with ⟨s, hs⟩
      exact absurd (operation_of_serves (h.serves n t s settled ht hs hsettled)) (hidle n t s ht hs)
  refine ⟨settled, hsettled, hkept, fun htext => ?_, hserverId, hnumber, ?_⟩
  · exact hkept.trans (congrArg some (Registration.written_eq_self.mpr htext))
  · intro ρ around r id hid
    exact hproper.answers.agree around r number id
      ((hproper.answers.serverNumber around r number).mpr hstatus) hid

theorem Kept.advertises_move (h : Kept hfits c) (hmove : Moves (setting m) c c') {n : Nat}
    {t : Thread Unit Contents Stage} {outcome : Outcome} (ht : c'.threads n = some t)
    (hnew : c.threads n ≠ some t) (htask : t.task = .finished outcome)
    (houtcome : outcome = .beaten ∨ exists number, outcome = .registered (.ok number)) :
    Advertises m (c'.enacted (setting m)) := by
  have hchanged : c'.threads n ≠ c.threads n := fun hsame => hnew (hsame.symm.trans ht)
  have hthread := ht
  cases arrives_of_moves hmove ht with
  | stay ht => exact absurd ht hnew
  | start _ _ hbegin =>
      cases htask
      intro number hstatus
      exact absurd (Status.isReady_of_ready hstatus)
        (not_ready_of_begins hbegin (h.sole.proper.standing ()) houtcome)
  | call _ _ _ _ _ _ _ | wake _ _ _ _ _ _ _ => cases htask
  | turn hu hdue hpermits hresume =>
      cases htask
      intro number hstatus
      have hspot := spot?_of_due hdue
      have hready := Status.isReady_of_ready hstatus
      have hmay := h.maySettle hmove hu hspot (Status.maySettle_of_isReady hready)
      refine (h.move hmove).advertises (fun k v s hv hs => ?_) number hstatus
      by_cases hk : k = n
      · subst hk
        cases hthread.symm.trans hv
        cases hs
      · rw [others_of_moves hmove hchanged hk] at hv
        exact absurd (h.alone hpermits.1 hmay hv hs hu hspot) hk

/-- Whenever no heartbeat is under way, and whenever a heartbeat or a registration has just ended, a
member that is ready is registered with the claim that it issues ids for. -/
theorem registration_advertised (hfits : Stored.Fits m.id.text) {w : Contents}
    (hw : w.Sound m.servers.name m.id.text) {c : Cluster Unit Contents Task}
    (hrun : Runs (setting m) (.initial w) c) :
    ((forall n t, c.threads n = some t -> ¬ t.task.Pursues .heartbeat) -> Advertises m c) ∧
    forall c' n t outcome, Step (setting m) c c' -> c'.threads n = some t ->
      c.threads n ≠ some t -> t.task = .finished outcome ->
      (outcome = .beaten ∨ exists number, outcome = .registered (.ok number)) ->
        Advertises m c' := by
  rcases holds_of_runs (P := Kept hfits) (fun _ _ hmove h => h.move hmove)
    (.initial hfits fun _ => hw) hrun with ⟨c, rfl, h⟩
  have hthread {c : Cluster Unit Contents Stage} {n : Nat} {t : Thread Unit Contents Stage}
      (ht : c.threads n = some t) :
      (c.enacted (setting m)).threads n = some (t.enacted (setting m)) :=
    congrArg (Option.map (Thread.enacted (setting m))) ht
  constructor
  · intro hidle
    refine h.advertises fun n t s ht hs hop => ?_
    exact hidle n _ (hthread ht) (pursues_task.mpr ⟨s, hs, hop⟩)
  · intro d n u outcome hstep hu hnew htask houtcome
    rcases moves_of_step hstep with ⟨c', hmove, rfl⟩
    rcases thread_of_enacted hu with ⟨t, ht, rfl⟩
    exact h.advertises_move hmove ht (fun hsame => hnew (hthread hsame))
      (Deactivation.stage_of_finished htask) houtcome

end

/-!
# A member on its own
-/

section

open Deactivation (lone lone_fits)

variable {c : Cluster Unit Contents Stage} {n : Nat} {σ σ' : Standing} {w w' : Contents}

def Quiet (c : Cluster Unit Contents Stage) : Prop :=
  forall n t, c.threads n = some t -> t.task.spot? = none

theorem Quiet.permits_moved (h : Quiet c) (t : Thread Unit Contents Stage) (σ : Standing)
    (w : Contents) {move : Move} (hmove : forall k, move ≠ .call k false) :
    (setting lone).permits ((c.moved n t σ w).enacted (setting lone)) move := by
  have hbusy {k : Nat} {u : Thread Unit Contents Task}
      (hu : ((c.moved n t σ w).enacted (setting lone)).threads k = some u)
      (hpursues : u.task.Pursues .heartbeat) : k = n := by
    rcases thread_of_enacted hu with ⟨u, hthread, rfl⟩
    rcases pursues_task.mp hpursues with ⟨s, hs, _⟩
    rcases Cluster.thread_moved hthread with ⟨hk, _⟩ | ⟨_, hbefore⟩
    · exact hk
    · cases (h k u hbefore).symm.trans hs
  constructor
  · intro k k' u u' hu hu' hpursues hpursues'
    rw [hbusy hu hpursues, hbusy hu' hpursues']
  · intro k u claim hcall
    exact absurd hcall (hmove k)

theorem Quiet.permits (h : Quiet c) {move : Move} (hmove : forall k, move ≠ .call k false) :
    (setting lone).permits (c.enacted (setting lone)) move := by
  constructor
  · intro k k' u u' hu hu' hpursues hpursues'
    rcases thread_of_enacted hu with ⟨t, ht, rfl⟩
    rcases pursues_task.mp hpursues with ⟨s, hs, _⟩
    cases (h k t ht).symm.trans hs
  · intro k u claim hcall
    exact absurd hcall (hmove k)

theorem Quiet.moved (h : Quiet c) (outcome : Outcome) (last : Contents) :
    Quiet (c.moved n ⟨(), .finished outcome, last⟩ σ w) := by
  intro k t ht
  rcases Cluster.thread_moved ht with ⟨_, rfl⟩ | ⟨_, ht⟩
  · rfl
  · exact h k t ht

theorem Quiet.settles (h : Quiet c) {rs : List Registration} {claim : Registration}
    {settled : Settled} {aim : Aim} {round : Round} {stage : Stage}
    (hlists : w.Lists lone.servers.name rs) (hserver : claim.serverId = lone.id.text)
    (hnumber : claim.number = Numbering.lowestFree lone.id.text rs)
    (hverdict : Numbering.verdict claim
      (claim.written :: rs.filter (·.serverId ≠ claim.serverId)) ≠ .lost)
    (hsettled : Settled.ofClaim? claim = some settled) (hsettle : σ.status.maySettle = true)
    (last : Contents)
    (hwin : Wins (setting lone) () σ (w.assign lone.servers.name claim.serverId
      (some (Storable.encode claim))) settled aim stage σ' w') :
    exists last', Relation.ReflTransGen (Moves (setting lone))
      (c.moved n ⟨(), .waiting (.listing aim round), last⟩ σ w)
      (c.moved n ⟨(), stage, last'⟩ σ' w') := by
  have hfits : claim.Fits := by
    unfold Registration.Fits
    rw [hserver]
    exact lone_fits
  have hclaimed := hlists.put_written hfits
  have hput : w.Answers (.put lone.servers.name lone.id.text (Storable.encode claim))
      (.ok (w lone.servers.name lone.id.text))
      (w.assign lone.servers.name claim.serverId (some (Storable.encode claim))) := by
    rw [hserver]
    exact .put
  refine ⟨_, reaches_round claim hserver hnumber hsettle
    (fun _ _ _ => h.permits_moved _ _ _ fun _ h => nomatch h)
    ⟨h.permits_moved _ _ _ fun _ h => (nomatch h), hlists.answers⟩ hlists.heard rfl
    ⟨h.permits_moved _ _ _ fun _ h => (nomatch h), hput⟩ (hlists.heardPrevious _).choose_spec .refl
    (h.permits_moved _ _ _ fun _ h => (nomatch h))
    ⟨h.permits_moved _ _ _ fun _ h => (nomatch h), hclaimed.answers⟩ hclaimed.heard hverdict
    hsettled hwin⟩

theorem Quiet.contested (h : Quiet c) {rs : List Registration} {claim : Registration}
    {remaining : Nat} (hlists : w.Lists lone.servers.name rs)
    (hserver : claim.serverId = lone.id.text) (hready : σ.status.isReady = true)
    (hverdict : Numbering.verdict claim
      (claim.written :: rs.filter (·.serverId ≠ claim.serverId)) = .lost)
    (hattempts : lone.config.settleAttempts.toNat = remaining + 1) (last : Contents) :
    exists last' w',
      w'.Lists lone.servers.name (claim.written :: rs.filter (·.serverId ≠ claim.serverId)) ∧
      Relation.ReflTransGen (Moves (setting lone))
        (c.moved n ⟨(), .waiting (.refreshing claim), last⟩ σ w)
        (c.moved n ⟨(), .waiting (.listing (.renumber claim) ⟨1, remaining⟩), last'⟩ σ w') := by
  have hfits : claim.Fits := by
    unfold Registration.Fits
    rw [hserver]
    exact lone_fits
  have hclaimed := hlists.put_written hfits
  let w₁ := w.assign lone.servers.name claim.serverId (some (Storable.encode claim))
  have hput : w.Answers (.put lone.servers.name lone.id.text (Storable.encode claim))
      (.ok (w lone.servers.name lone.id.text)) w₁ := by
    unfold w₁
    rw [hserver]
    exact .put
  have hcall {s : Spot} {last w : Contents} : (setting lone).permits
      ((c.moved n ⟨(), .waiting s, last⟩ σ w).enacted (setting lone)) (.call n true) :=
    h.permits_moved _ _ _ fun _ h => nomatch h
  have hturn {stage : Stage} {last w : Contents} : (setting lone).permits
      ((c.moved n ⟨(), stage, last⟩ σ w).enacted (setting lone)) (.turn n) :=
    h.permits_moved _ _ _ fun _ h => nomatch h
  have hrefreshed := reaches_call (S := setting lone) (c := c) (n := n) (i := ())
    (s := .refreshing claim) last rfl ⟨hcall, hput⟩ (hlists.heardPrevious _).choose_spec hturn
    (.refreshed hready)
  have htry : Tries (setting lone) () σ w₁ (.renumber claim) 1 none (remaining + 1) _ w₁ :=
    .list (Status.maySettle_of_isReady hready)
  rw [← hattempts] at htry
  have hchecked := reaches_call (S := setting lone) (c := c) (n := n) (i := ())
    (s := .checking claim) (σ := σ) (w := w₁) w₁ rfl ⟨hcall, hclaimed.answers⟩ hclaimed.heard hturn
    (.contested hverdict htry)
  exact ⟨w₁, w₁, hclaimed, hrefreshed.trans hchecked⟩

/-- The number of the member is contested after it has registered, and a heartbeat finds another
one. -/
theorem lone_advertised : exists c number,
    Runs (setting lone) (.initial fun _ _ => none) c ∧ (c.standing ()).status = .ready number ∧
      number ≠ 0 ∧ exists claim, c.world.registration? lone.servers.name lone.id.text = some claim ∧
        claim.number = number := by
  let rival : Registration := ⟨"A", 0, .epoch⟩
  let old : Registration := ⟨"a", 0, .epoch⟩
  let new : Registration := ⟨"a", 1, .epoch⟩
  have hold : old.serverId = lone.id.text := rfl
  have hnew : new.serverId = lone.id.text := rfl
  let c₀ : Cluster Unit Contents Stage := .initial fun _ _ => none
  have hquiet₀ : Quiet c₀ := fun _ _ h => nomatch h
  have hempty : Contents.Lists (fun _ _ => none) lone.servers.name [] :=
    Contents.lists_nil fun _ => rfl
  have hnumber : (0 : UInt32) = Numbering.lowestFree "a" [] := by
    rw [Numbering.lowestFree_eq (by decide)]
    rfl
  have hnumber' : (1 : UInt32) = Numbering.lowestFree "a" [old, rival] := by
    rw [Numbering.lowestFree_eq (by decide)]
    rfl
  -- the member registers
  have hstart := moves_activate (S := setting lone) (c := c₀) (n := 0) (i := ()) rfl
    (hquiet₀.permits fun _ h => nomatch h) rfl (show _ = 9 + 1 from rfl)
  rcases hquiet₀.settles (n := 0) (σ := { status := .registering }) hempty hold hnumber (by decide)
    rfl rfl (fun _ _ => none) (.register rfl) with ⟨last, hregistered⟩
  let settled : Settled := ⟨old, ⟨0, 0⟩⟩
  let σ : Standing := ⟨.ready 0, some settled⟩
  let w₁ : Contents := Contents.assign (fun _ _ => none) lone.servers.name old.serverId
    (some (Storable.encode old))
  let c₁ := c₀.moved 0 ⟨(), .finished (.registered (.ok 0)), last⟩ σ w₁
  have hquiet₁ : Quiet c₁ := hquiet₀.moved _ _
  -- a rival with an earlier claim turns up
  let w₂ : Contents := w₁.assign lone.servers.name rival.serverId (some (Storable.encode rival))
  let c₂ := c₀.moved 0 ⟨(), .finished (.registered (.ok 0)), last⟩ σ w₂
  have hquiet₂ : Quiet c₂ := hquiet₀.moved _ _
  have hlists₂ : w₂.Lists lone.servers.name [rival, old] :=
    (hempty.put (r := old) ⟨lone_fits, by decide⟩).put (r := rival)
      ⟨Stored.fits_of_size (by decide), by decide⟩
  have hrival : Moves (setting lone) c₁ c₂ :=
    .drift (hquiet₁.permits fun _ h => nomatch h) (w₁.assign_of_ne _ (by decide))
  -- a heartbeat finds it, and takes over another number
  have hbegin :
      Begins (setting lone) () σ w₂ .heartbeat (.waiting (.refreshing settled.claim)) σ w₂ :=
    .heartbeat rfl rfl
  have hheartbeat : Moves (setting lone) c₂ _ :=
    .start (n := 1) rfl (hquiet₂.permits fun _ h => nomatch h) hbegin
  rcases hquiet₂.contested (n := 1) (σ := σ) hlists₂ hold rfl (by decide)
    (show _ = 9 + 1 from rfl) w₂ with ⟨last', w₃, hlists₃, hcontested⟩
  rcases hquiet₂.settles (n := 1) (σ := σ) hlists₃ hnew hnumber' (by decide) rfl rfl last'
    (.renumber rfl) with ⟨last'', hrenumbered⟩
  have hrun := runs_of_moves (.head hstart (hregistered.trans (.head hrival (.head hheartbeat
    (hcontested.trans hrenumbered)))))
  have hidle {σ : Standing} {w : Contents} :
      Quiet (c₂.moved 1 ⟨(), .finished .beaten, last''⟩ σ w) := hquiet₂.moved _ _
  have hsound : Contents.Sound (fun _ _ => none) lone.servers.name lone.id.text :=
    fun _ h => nomatch h
  have hadvertised := (registration_advertised lone_fits hsound hrun).1 fun n t ht hpursues => by
    rcases thread_of_enacted ht with ⟨u, hu, rfl⟩
    rcases pursues_task.mp hpursues with ⟨s, hs, _⟩
    cases (hidle n u hu).symm.trans hs
  rcases hadvertised 1 rfl with ⟨settled, _, hstored, _, _, hclaim, _⟩
  exact ⟨_, 1, hrun, rfl, by decide, settled.claim.written, hstored, hclaim⟩

/-- The member registers in a leap second inside a minute, and its record is read as a later one. -/
theorem lone_record_reads_later : exists c settled record,
    Runs (setting lone) (.initial fun _ _ => none) c ∧
      (exists t, c.threads 0 = some t ∧ t.task = .finished (.registered (.ok 0))) ∧
      (forall n t, c.threads n = some t -> ¬ t.task.Pursues .heartbeat) ∧
      (c.standing ()).status = .ready 0 ∧ (c.standing ()).settled = some settled ∧
      c.world.registration? lone.servers.name lone.id.text = some record ∧
      settled.claim.claimedAt < record.claimedAt := by
  let claim : Registration := ⟨"a", 0, .insideMinute⟩
  let c₀ : Cluster Unit Contents Stage := .initial fun _ _ => none
  have hquiet : Quiet c₀ := fun _ _ h => nomatch h
  have hclaim : claim.serverId = lone.id.text := rfl
  have hempty : Contents.Lists (fun _ _ => none) lone.servers.name [] :=
    Contents.lists_nil fun _ => rfl
  have hnumber : (0 : UInt32) = Numbering.lowestFree "a" [] := by
    rw [Numbering.lowestFree_eq (by decide)]
    rfl
  have hstart := moves_activate (S := setting lone) (c := c₀) (n := 0) (i := ()) rfl
    (hquiet.permits fun _ h => nomatch h) rfl (show _ = 9 + 1 from rfl)
  rcases hquiet.settles (n := 0) (σ := { status := .registering }) hempty hclaim hnumber
    (by decide) rfl rfl (fun _ _ => none) (.register rfl) with ⟨last, hregistered⟩
  refine ⟨_, ⟨claim, ⟨0, 0⟩⟩, claim.written, runs_of_moves (.head hstart hregistered),
    ⟨_, rfl, rfl⟩, fun n t ht hpursues => ?_, rfl, rfl, ?_, by decide⟩
  · rcases thread_of_enacted ht with ⟨u, hu, rfl⟩
    rcases pursues_task.mp hpursues with ⟨s, hs, _⟩
    cases ((hquiet.moved _ _) n u hu).symm.trans hs
  · exact Contents.registration?_assign_self _ lone_fits

end

end Advertising
end Roster
