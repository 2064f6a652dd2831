import Roster.Proofs.Interleaving.Issued
import Roster.Proofs.Settling.Ledger

/-!
# Orderly clusters

As long as no ready member loses its number, no member settles twice: a ready member only refreshes
and checks the claim it holds, and what is read under the id of a member is the claim it relies on.
-/

namespace Roster
namespace Interleaving

variable {ι ω : Type}

namespace Spot

def Beats (claim : Registration) : Spot → Prop
  | refreshing held | checking held => held = claim
  | _ => False

def Steady : Spot → Prop
  | listing aim _ | staking aim _ _ | spreading aim _ _ | verifying aim _ _
  | backingOff aim _ _ _ => aim = .register
  | restoring _ => False
  | withdrawing _ | refreshing _ | checking _ | removing => True

theorem Registers.steady {s : Spot} (h : s.Registers) : s.Steady := by
  cases s with
  | listing aim round | staking aim round claim | spreading aim round claim
  | verifying aim round claim | backingOff aim round last time => exact h
  | withdrawing exit => exact trivial
  | refreshing claim | checking claim | restoring claim | removing => exact h.elim

end Spot

namespace Stage

def claim? : Stage → Option Registration
  | due (.staking _ _ claim) (.ok _) => some claim
  | waiting (.spreading _ _ claim) | due (.spreading _ _ claim) _ => some claim
  | waiting (.verifying _ _ claim) | due (.verifying _ _ claim) _ => some claim
  | _ => none

def Contested : Stage → Prop
  | due (.checking claim) (.ok live) => Numbering.verdict claim live = .lost
  | _ => False

end Stage

theorem check_of_contested {stage : Stage} (h : stage.Contested) :
    exists claim live, stage = .due (.checking claim) (.ok live) ∧
      Numbering.verdict claim live = .lost := by
  cases stage with
  | waiting s | finished outcome => exact h.elim
  | due s reply =>
      cases s with
      | checking claim =>
          cases reply with
          | error e => exact h.elim
          | ok live => exact ⟨claim, live, rfl, h⟩
      | listing aim round | staking aim round held | spreading aim round held
      | verifying aim round held | backingOff aim round last time | withdrawing exit
      | refreshing held | restoring held | removing => exact h.elim

/-!
# Turns without renumbering
-/

section

variable {S : Setting ι ω} {i : ι} {σ σ' : Standing} {w w' : ω} {aim : Aim} {stage : Stage}
  {s s' : Spot}

theorem Stage.Retreats.claim?_eq (h : stage.Retreats) : stage.claim? = none := by
  rcases h with ⟨s, rfl, hs⟩
  cases s with
  | listing aim round | backingOff aim round last time | withdrawing exit | restoring held => rfl
  | staking aim round held | spreading aim round held | verifying aim round held
  | refreshing held | checking held | removing => exact hs.elim

theorem Resumes.claim?_eq {reply : s.Reply} {claim : Registration}
    (h : Resumes S i σ w s reply stage σ' w') (hclaim : stage.claim? = some claim) :
    (Stage.due s reply).claim? = some claim ∧ σ' = σ := by
  cases h.ensues with
  | spread | verify => exact ⟨hclaim, rfl⟩
  | retreat hretreats => cases hretreats.claim?_eq.symm.trans hclaim
  | stake _ | check | register | beat | deregister => cases hclaim

theorem Begins.claim?_eq {op : Operation} (h : Begins S i σ w op stage σ' w') :
    stage.claim? = none := by
  cases h with
  | activate _ htry => exact htry.retreats.claim?_eq
  | activateRefused _ | heartbeat _ _ | heartbeatIdle _ | deactivate _ | deactivateAgain _
  | uniqueId _ _ | uniqueIdRefused _ => rfl

theorem Quits.steady {e : Error} (h : Quits S i σ w aim e stage w')
    (haim : aim = .register ∨ σ.status = .deactivated) (hs' : stage.spot? = some s') :
    s'.Steady := by
  cases h with
  | abandon | interrupt _ =>
      cases hs'
      exact trivial
  | restore hready =>
      rcases haim with haim | hstatus
      · cases haim
      · rw [hstatus] at hready
        cases hready

theorem Tries.steady {attempt remaining : Nat} {last : Option RegistryError}
    (h : Tries S i σ w aim attempt last remaining stage w')
    (haim : aim = .register ∨ σ.status = .deactivated) (hs' : stage.spot? = some s') :
    s'.Steady := by
  cases h with
  | list hsettle =>
      rcases haim with haim | hstatus
      · cases hs'
        exact haim
      · rw [hstatus] at hsettle
        cases hsettle
  | barred _ hquit | exhausted hquit => exact hquit.steady haim hs'

theorem Resumes.steady {reply : s.Reply} (h : Resumes S i σ w s reply stage σ' w')
    (hs : s.Steady) (hcontested : (Stage.due s reply).Contested -> σ.status = .deactivated)
    (hs' : stage.spot? = some s') : s'.Steady := by
  cases h with
  | listed _ | staked | spread _ =>
      cases hs'
      exact hs
  | refreshed _ | refreshedLate _ =>
      cases hs'
      exact trivial
  | listingFailed hretry | stakingFailed hretry | verifyingFailed hretry | lost _ hretry =>
      exact (hretry.registers hs hs').steady
  | spreadBarred _ hquit | overflow _ _ hquit => exact hquit.steady (Or.inl hs) hs'
  | upheld _ _ hwin => exact (hwin.registers hs hs').steady
  | backedOff htry => exact (htry.registers hs hs').steady
  | contested hverdict htry => exact htry.steady (Or.inr (hcontested hverdict)) hs'
  | restoredLate _ => exact hs.elim
  | relinquished _ | left _ | refreshingFailed | uncontested _ | checkingFailed | restored _
  | restoringFailed | removed | removingFailed => cases hs'

theorem Begins.steady {op : Operation} (h : Begins S i σ w op stage σ' w')
    (hs' : stage.spot? = some s') : s'.Steady := by
  cases h with
  | activate _ htry => exact (htry.registers rfl hs').steady
  | heartbeat _ _ | deactivate _ =>
      cases hs'
      exact trivial
  | activateRefused _ | heartbeatIdle _ | deactivateAgain _ | uniqueId _ _ | uniqueIdRefused _ =>
      cases hs'

theorem Resumes.beats {reply : s.Reply} {claim : Registration}
    (h : Resumes S i σ w s reply stage σ' w') (hready : σ.status.isReady = true)
    (hs : s.Beats claim) (hcontested : ¬ (Stage.due s reply).Contested)
    (hs' : stage.spot? = some s') : s'.Beats claim ∧ σ' = σ := by
  cases h with
  | refreshed _ =>
      cases hs'
      exact ⟨hs, rfl⟩
  | refreshedLate hnot => exact nomatch hready.symm.trans hnot
  | contested hverdict _ => exact absurd hverdict hcontested
  | refreshingFailed | uncontested _ | checkingFailed => cases hs'
  | listed _ | listingFailed _ | staked | stakingFailed _ | spread _ | spreadBarred _ _
  | upheld _ _ _ | overflow _ _ _ | lost _ _ | verifyingFailed _ | backedOff _ | relinquished _
  | left _ | restored _ | restoredLate _ | restoringFailed | removed | removingFailed =>
      exact hs.elim

theorem Resumes.settled_of {reply : s.Reply} {settled : Settled}
    (h : Resumes S i σ w s reply stage σ' w') (hs : s.Steady)
    (hsettled : σ'.settled = some settled) :
    σ.settled = some settled ∨
      stage.spot? = none ∧ σ.status = .registering ∧
        exists aim round live,
          Stage.due s reply = .due (.verifying aim round settled.claim) (.ok live) ∧
          Numbering.verdict settled.claim live ≠ .lost ∧ settled.issuer.previous = 0 := by
  cases h with
  | upheld hverdict hof hwin =>
      cases hwin with
      | register hstatus =>
          cases hsettled
          rcases Settled.proper_of_ofClaim? hof rfl with ⟨rfl, hprevious, _⟩
          exact Or.inr ⟨rfl, hstatus, _, _, _, rfl, hverdict, hprevious⟩
      | renumber _ => cases hs
      | late _ | interrupt _ => exact Or.inl hsettled
  | relinquished _ => exact Or.inl hsettled
  | _ => exact Or.inl hsettled

theorem Begins.beats {op : Operation} {settled : Settled} (h : Begins S i σ w op stage σ' w')
    (hσ' : σ'.Proper (S.member i).id.text) (hsettled : σ'.settled = some settled)
    (hs' : stage.spot? = some s') : s'.Beats settled.claim := by
  cases h with
  | activate _ _ =>
      have hready := (hσ'.of_settled _ hsettled).1
      cases hready
  | heartbeat _ hbefore =>
      cases hs'
      cases hbefore.symm.trans hsettled
      rfl
  | deactivate _ => cases hsettled
  | activateRefused _ | heartbeatIdle _ | deactivateAgain _ | uniqueId _ _ | uniqueIdRefused _ =>
      cases hs'

theorem wrote?_or_of_claim? {reply : s.Reply} {claim : Registration}
    (h : (Stage.due s reply).claim? = some claim) :
    (Stage.due s reply).wrote? = some claim ∨
      s.written? = none ∧ (Stage.waiting s).claim? = some claim := by
  cases s with
  | staking aim round held =>
      cases reply with
      | error e => cases h
      | ok previous => exact Or.inl h
  | spreading aim round held | verifying aim round held => exact Or.inr ⟨rfl, h⟩
  | listing aim round | backingOff aim round last time | withdrawing exit | refreshing held
  | checking held | restoring held | removing => cases h

theorem Spot.Beats.written? {claim : Registration} {entry : Option Registration}
    (hs : s.Beats claim) (hentry : s.written? = some entry) : entry = some claim := by
  cases s with
  | refreshing held =>
      cases hs
      cases hentry
      rfl
  | checking held => cases hentry
  | listing aim round | staking aim round held | spreading aim round held
  | verifying aim round held | backingOff aim round last time | withdrawing exit | restoring held
  | removing => exact hs.elim

end

/-!
# Orderly clusters
-/

structure Orderly [DecidableEq ι] {S : Setting ι ω} (L : Ledger S) (c : Cluster ι ω Stage) :
    Prop where
  proper : Proper S c
  sound : L.sound c.world
  steady : forall n t s, c.threads n = some t -> t.task.spot? = some s -> s.Steady
  beats : forall n t s settled, c.threads n = some t -> t.task.spot? = some s ->
    (c.standing t.owner).settled = some settled -> s.Beats settled.claim
  claimed : forall n t claim, c.threads n = some t -> t.task.claim? = some claim ->
    (c.standing t.owner).status = .registering -> L.held c.world t.owner = some claim.written
  settled : forall i settled, (c.standing i).settled = some settled ->
    L.held c.world i = some settled.claim.written

def Undisputed (c : Cluster ι ω Stage) : Prop :=
  forall n t, c.threads n = some t -> t.task.Contested ->
    (c.standing t.owner).status.isReady = false

theorem spot?_of_claim? {stage : Stage} {claim : Registration} (h : stage.claim? = some claim) :
    exists s, stage.spot? = some s := by
  cases stage with
  | waiting s | due s reply => exact ⟨s, rfl⟩
  | finished outcome => cases h

section

variable [DecidableEq ι] {S : Setting ι ω} {L : Ledger S} {c c' : Cluster ι ω Stage}

theorem Orderly.initial {w : ω} (hw : L.sound w) : Orderly L (.initial w) where
  proper := .initial w
  sound := hw
  steady := fun _ _ _ h => (nomatch h)
  beats := fun _ _ _ _ h => (nomatch h)
  claimed := fun _ _ _ h => (nomatch h)
  settled := fun _ _ h => (nomatch h)

theorem Orderly.deactivated_of_contested (h : Orderly L c) (hund : Undisputed c) {n : Nat}
    {t : Thread ι ω Stage} (ht : c.threads n = some t) (hcontested : t.task.Contested) :
    (c.standing t.owner).status = .deactivated := by
  rcases check_of_contested hcontested with ⟨claim, live, htask, _⟩
  have hspot := spot?_of_due htask
  have hready := hund n t ht hcontested
  cases hstatus : (c.standing t.owner).status with
  | inactive => exact absurd hstatus (h.proper.not_inactive ht hspot)
  | registering => exact (h.proper.registers hstatus ht hspot).elim
  | ready number =>
      rw [hstatus] at hready
      cases hready
  | deactivated => rfl

theorem Orderly.settled_of_moves (h : Orderly L c) (hmove : Moves S c c') {i : ι}
    {settled : Settled} (hsettled : (c'.standing i).settled = some settled) :
    (exists before, (c.standing i).settled = some before ∧
        Retains S i c.world before c'.world settled) ∨
      exists n t aim round live, c.threads n = some t ∧ t.owner = i ∧
        (c.standing i).status = .registering ∧
        t.task = .due (.verifying aim round settled.claim) (.ok live) ∧
        Numbering.verdict settled.claim live ≠ .lost ∧ settled.issuer.previous = 0 ∧
        exists u, c'.threads n = some u ∧ u.task.spot? = none := by
  cases stands_of_moves hmove i with
  | keep hkept =>
      rw [hkept] at hsettled
      exact Or.inl ⟨settled, hsettled, .same⟩
  | start _ _ hbegin => exact Or.inl (hbegin.retains hsettled)
  | @turn n t _ _ _ ht howner htask ht' hresume =>
      subst howner
      have hsteady := h.steady n t _ ht (spot?_of_due htask)
      rcases hresume.settled_of hsteady hsettled with hbefore |
        ⟨hidle, hstatus, aim, round, live, hdue, hverdict, hprevious⟩
      · exact Or.inl ⟨settled, hbefore, .same⟩
      · exact Or.inr ⟨n, t, aim, round, live, ht, rfl, hstatus, htask.trans hdue, hverdict,
          hprevious, _, ht', hidle⟩

theorem Orderly.steady_move (h : Orderly L c) (hund : Undisputed c) (hmove : Moves S c c') {n : Nat}
    {t : Thread ι ω Stage} {s : Spot} (ht : c'.threads n = some t) (hs : t.task.spot? = some s) :
    s.Steady := by
  cases arrives_of_moves hmove ht with
  | stay ht => exact h.steady n t s ht hs
  | start _ _ hbegin => exact hbegin.steady hs
  | call hu htask _ _ _ _ _ | wake hu htask _ _ _ _ _ =>
      exact h.steady n _ s hu ((spot?_of_waiting htask).trans hs)
  | turn hu htask _ hresume =>
      refine hresume.steady (h.steady n _ _ hu (spot?_of_due htask)) (fun hcontested => ?_) hs
      exact h.deactivated_of_contested hund hu (by rw [htask]; exact hcontested)

theorem Orderly.beats_move (h : Orderly L c) (hund : Undisputed c) (hmove : Moves S c c') {n : Nat}
    {t : Thread ι ω Stage} {s : Spot} {settled : Settled} (ht : c'.threads n = some t)
    (hs : t.task.spot? = some s) (hsettled : (c'.standing t.owner).settled = some settled) :
    s.Beats settled.claim := by
  rcases h.settled_of_moves hmove hsettled with ⟨before, hbefore, hretains⟩ |
    ⟨k, u, _, _, _, hu, howner, hstatus, hdue, _, _, u', hu', hidle⟩
  · have hclaim := hretains.claim_eq
    cases arrives_of_moves hmove ht with
    | stay ht =>
        rw [hclaim]
        exact h.beats n t s before ht hs hbefore
    | start _ _ hbegin => exact hbegin.beats ((h.proper.move hmove).standing _) hsettled hs
    | call hu htask _ _ _ _ _ | wake hu htask _ _ _ _ _ =>
        rw [hclaim]
        exact h.beats n _ s before hu ((spot?_of_waiting htask).trans hs) hbefore
    | @turn u _ _ _ hu htask _ hresume =>
        have hready := Status.isReady_of_ready
          ((h.proper.standing u.owner).of_settled before hbefore).1
        rw [hclaim]
        refine (hresume.beats hready (h.beats n u _ before hu (spot?_of_due htask) hbefore) ?_
          hs).1
        intro hcontested
        exact nomatch hready.symm.trans (hund n u hu (by rw [htask]; exact hcontested))
  · -- a registering member has no other thread with anything to do
    have hne : n ≠ k := by
      rintro rfl
      cases ht.symm.trans hu'
      cases hidle.symm.trans hs
    have hended : c'.threads k ≠ c.threads k := by
      rw [hu, hu']
      rintro ⟨rfl⟩
      cases hidle.symm.trans (spot?_of_due hdue)
    rw [others_of_moves hmove hended hne] at ht
    rw [← howner] at hstatus
    exact absurd (h.proper.alone hstatus hu (spot?_of_due hdue) ht howner.symm hs) hne

theorem Orderly.claimed_move (h : Orderly L c) (hmove : Moves S c c') {n : Nat}
    {t : Thread ι ω Stage} {claim : Registration} (ht : c'.threads n = some t)
    (hclaim : t.task.claim? = some claim)
    (hstatus : (c'.standing t.owner).status = .registering) :
    L.held c'.world t.owner = some claim.written := by
  have hthread := ht
  cases arrives_of_moves hmove ht with
  | stay ht =>
      rcases spot?_of_claim? hclaim with ⟨s, hs⟩
      have hbefore := h.proper.registering_of_moves hmove ht hs hstatus
      have hheld := h.claimed n t claim ht hclaim hbefore
      cases L.records_of_moves h.proper h.sound hmove t.owner with
      | keep hkept => exact hkept.trans hheld
      | write _ hu howner htask hu' _ _ _ _ _ =>
          cases h.proper.alone hbefore ht hs hu howner (spot?_of_waiting htask)
          cases ht.symm.trans hu
          cases htask.symm.trans (congrArg Thread.task (Option.some.inj (hthread.symm.trans hu')))
  | start _ _ hbegin => cases hbegin.claim?_eq.symm.trans hclaim
  | @call u s hu htask hcall answer _ hanswer hkept =>
      have hnamed := h.proper.named n u s hu (spot?_of_waiting htask)
      rw [hkept] at hstatus
      rcases wrote?_or_of_claim? hclaim with hwrote | ⟨hnone, hbefore⟩
      · rcases (L.calls h.sound hnamed hcall hanswer).2 with ⟨hnone, _⟩ | ⟨entry, _, hentry, hheld⟩
        · cases hnone.symm.trans hwrote
        · rw [hheld, Function.update_self, ← hentry, hwrote]
          rfl
      · rcases (L.calls h.sound hnamed hcall hanswer).2 with ⟨_, hheld⟩ | ⟨entry, hentry, _⟩
        · rw [hheld]
          exact h.claimed n u claim hu (by rw [htask]; exact hbefore) hstatus
        · cases hnone.symm.trans hentry
  | @wake u s hu htask _ hpause reply hkept hworld =>
      rw [hkept] at hstatus
      rcases wrote?_or_of_claim? hclaim with hwrote | ⟨_, hbefore⟩
      · cases (Stage.wrote?_of_pauses hpause reply).symm.trans hwrote
      · rw [hworld]
        exact h.claimed n u claim hu (by rw [htask]; exact hbefore) hstatus
  | @turn u _ _ _ hu htask _ hresume =>
      rcases hresume.claim?_eq hclaim with ⟨hbefore, hσ⟩
      rw [hσ] at hstatus
      rw [(L.resumes hresume h.sound).2]
      exact h.claimed n u claim hu (by rw [htask]; exact hbefore) hstatus

theorem Orderly.settled_move (h : Orderly L c) (hmove : Moves S c c') {i : ι} {settled : Settled}
    (hsettled : (c'.standing i).settled = some settled) :
    L.held c'.world i = some settled.claim.written := by
  cases L.records_of_moves h.proper h.sound hmove i with
  | keep hkept =>
      rw [hkept]
      rcases h.settled_of_moves hmove hsettled with ⟨before, hbefore, hretains⟩ |
        ⟨n, t, _, _, _, ht, rfl, hstatus, htask, _⟩
      · rw [hretains.claim_eq]
        exact h.settled i before hbefore
      · exact h.claimed n t settled.claim ht (by rw [htask]; rfl) hstatus
  | write _ ht howner htask _ _ hkept hwritten _ hheld =>
      subst howner
      rw [hkept] at hsettled
      rw [hheld, (h.beats _ _ _ settled ht (spot?_of_waiting htask) hsettled).written? hwritten]
      rfl

theorem Orderly.move (h : Orderly L c) (hund : Undisputed c) (hmove : Moves S c c') :
    Orderly L c' where
  proper := h.proper.move hmove
  sound := L.sound_of_moves h.proper h.sound hmove
  steady := fun _ _ _ ht hs => h.steady_move hund hmove ht hs
  beats := fun _ _ _ _ ht hs hsettled => h.beats_move hund hmove ht hs hsettled
  claimed := fun _ _ _ ht hclaim hstatus => h.claimed_move hmove ht hclaim hstatus
  settled := fun _ _ hsettled => h.settled_move hmove hsettled

/-- No ready member finds its number lost where no listing shows a ready member that it is. -/
theorem Orderly.undisputed_move (h : Orderly L c) (hund : Undisputed c) (hmove : Moves S c c')
    (hkept : forall i settled answer w live, (c.standing i).settled = some settled ->
      S.answers i c.world (.call (.list (S.member i).servers.name)) answer w ->
      heardListing answer = .ok live -> Numbering.verdict settled.claim live ≠ .lost) :
    Undisputed c' := by
  intro n t ht hcontested
  rcases check_of_contested hcontested with ⟨claim, live, htask, hverdict⟩
  rcases due_of_moves hmove ht htask with hsame |
    ⟨before, hbefore, howner, hwaiting, hstanding, hpause | ⟨answer, hreply, _, hanswer⟩⟩
  · have hgone := h.deactivated_of_contested hund hsame hcontested
    rw [(h.proper.shift hmove t.owner).deactivated hgone]
    rfl
  · cases hpause
  · rw [hstanding]
    by_contra hready
    rw [Bool.not_eq_false] at hready
    have hproper := h.proper.standing t.owner
    cases hsettled : (c.standing t.owner).settled with
    | none => exact hproper.settled_of_ready hready hsettled
    | some settled =>
        have hbeats := h.beats n before _ settled hbefore (spot?_of_waiting hwaiting)
          (by rw [howner]; exact hsettled)
        have hclaim : claim = settled.claim := hbeats
        refine hkept t.owner settled answer _ live hsettled hanswer hreply.symm ?_
        rw [← hclaim]
        exact hverdict

end

end Interleaving
end Roster
