import Roster.Proofs.Interleaving.Hearing
import Roster.Proofs.Interleaving.Proper

/-!
# What a registration has been told

A registration settles its number in rounds.  A round that settles nothing ends where the registry
fails it, or when its claim is lost.  When the rounds end without a number, the registration is
abandoned, and the last thing that it hears of the registry is the answer to its withdrawal.
-/

namespace Roster
namespace Registering

open Interleaving

/-!
# Rounds
-/

def listed (m : Member) (answer : Except RegistryError (List Bytes)) : Heard :=
  ⟨.list m.servers.name, answer⟩

def staked (m : Member) (claim : Registration) (answer : Except RegistryError (Option Bytes)) :
    Heard :=
  ⟨.put m.servers.name m.id.text (Storable.encode claim), answer⟩

def withdrawn (m : Member) (answer : Except RegistryError (Option Bytes)) : Heard :=
  ⟨.remove m.servers.name m.id.text, answer⟩

theorem withdrawn_inj {m : Member} {answer answer' : Except RegistryError (Option Bytes)}
    (h : withdrawn m answer = withdrawn m answer') : answer = answer' := by
  injection h

/-- The claim is one to the lowest free number of a listing. -/
structure Chosen (m : Member) (answer : Except RegistryError (List Bytes)) (claim : Registration) :
    Prop where
  live : exists live, heardListing answer = .ok live ∧
    claim.number = Numbering.lowestFree m.id.text live
  serverId : claim.serverId = m.id.text

inductive Claims (m : Member) : List Heard → Registration → Prop where
  | stake {list claim put previous} (hchosen : Chosen m list claim)
      (hprevious : heardPrevious put = .ok previous) :
      Claims m [listed m list, staked m claim put] claim

/-- A round that has settled nothing, with the error in which it has ended, if it was one. -/
inductive Fruitless (m : Member) : List Heard → Option RegistryError → Prop where
  | unlisted {list e} (he : heardListing list = .error e) :
      Fruitless m [listed m list] (some e)
  | unstaked {list claim put e} (hchosen : Chosen m list claim)
      (he : heardPrevious put = .error e) :
      Fruitless m [listed m list, staked m claim put] (some e)
  | unverified {told claim list e} (hclaims : Claims m told claim)
      (he : heardListing list = .error e) :
      Fruitless m (told ++ [listed m list]) (some e)
  | lost {told claim list live} (hclaims : Claims m told claim)
      (hlive : heardListing list = .ok live) (hverdict : Numbering.verdict claim live = .lost) :
      Fruitless m (told ++ [listed m list]) none

/-- Rounds that have settled nothing, one after the other, with the error of the last one. -/
inductive Rounds (m : Member) : List Heard → Nat → Option RegistryError → Prop where
  | none : Rounds m [] 0 none
  | next {told k last round last'} (h : Rounds m told k last) (hround : Fruitless m round last') :
      Rounds m (told ++ round) (k + 1) last'

/-- After as many rounds, the registration has ended without a number.  It may do so early only when
the member is `gone`, or when its claim has stood and is to a number for which there are no ids. -/
inductive Ends (m : Member) (gone : Prop) : List Heard → Nat → Error → Prop where
  | exhausted {told last} (h : Rounds m told m.config.settleAttempts.toNat last) :
      Ends m gone told m.config.settleAttempts.toNat (m.exhausted last)
  | barred {told k last} (h : Rounds m told k last) (hk : k < m.config.settleAttempts.toNat)
      (hgone : gone) : Ends m gone told k (.invalidState .registering .deactivated)
  | interrupted {told k last round claim} (h : Rounds m told k last)
      (hk : k < m.config.settleAttempts.toNat) (hclaims : Claims m round claim) (hgone : gone) :
      Ends m gone (told ++ round) (k + 1) (.invalidState .registering .deactivated)
  | late {told k last round claim list live} (h : Rounds m told k last)
      (hk : k < m.config.settleAttempts.toNat) (hclaims : Claims m round claim)
      (hlive : heardListing list = .ok live) (hverdict : Numbering.verdict claim live ≠ .lost)
      (hgone : gone) :
      Ends m gone (told ++ (round ++ [listed m list])) (k + 1)
        (.invalidState .registering .deactivated)
  | overflow {told k last round claim list live} (h : Rounds m told k last)
      (hk : k < m.config.settleAttempts.toNat) (hclaims : Claims m round claim)
      (hlive : heardListing list = .ok live) (hverdict : Numbering.verdict claim live ≠ .lost)
      (hnumber : 65535 < claim.number.toNat) :
      Ends m gone (told ++ (round ++ [listed m list])) (k + 1) (.numberOverflow claim.number)

section

variable {m : Member} {gone gone' : Prop} {told : List Heard} {k : Nat} {e : Error}

theorem Ends.mono (h : Ends m gone told k e) (hgone : gone -> gone') : Ends m gone' told k e := by
  cases h with
  | exhausted h => exact .exhausted h
  | barred h hk hg => exact .barred h hk (hgone hg)
  | interrupted h hk hclaims hg => exact .interrupted h hk hclaims (hgone hg)
  | late h hk hclaims hlive hverdict hg => exact .late h hk hclaims hlive hverdict (hgone hg)
  | overflow h hk hclaims hlive hverdict hnumber =>
      exact .overflow h hk hclaims hlive hverdict hnumber

theorem Ends.le (h : Ends m gone told k e) : k ≤ m.config.settleAttempts.toNat := by
  cases h with
  | exhausted _ => exact Nat.le_refl _
  | barred _ hk _ => exact Nat.le_of_lt hk
  | interrupted _ hk _ _ | late _ hk _ _ _ _ | overflow _ hk _ _ _ _ => exact hk

/-- A registration that was neither interrupted nor given a number without ids has used up its
rounds, and fails with what has happened in the last one. -/
theorem Ends.cause (h : Ends m gone told k e) :
    (e = .invalidState .registering .deactivated ∧ gone) ∨
      (exists number, e = .numberOverflow number ∧ 65535 < number.toNat) ∨
      (k = m.config.settleAttempts.toNat ∧ exists last, Rounds m told k last ∧
        ((exists e', last = some e' ∧ e = .registry e') ∨
          (last = none ∧ e = .unsettled m.config.settleAttempts))) := by
  cases h with
  | barred _ _ hgone | interrupted _ _ _ hgone | late _ _ _ _ _ hgone =>
      exact Or.inl ⟨rfl, hgone⟩
  | overflow _ _ _ _ _ hnumber => exact Or.inr (Or.inl ⟨_, rfl, hnumber⟩)
  | @exhausted _ last h =>
      refine Or.inr (Or.inr ⟨rfl, last, h, ?_⟩)
      cases last with
      | some e' => exact Or.inl ⟨e', rfl, rfl⟩
      | none => exact Or.inr ⟨rfl, rfl⟩

end

/-!
# Where a registration is
-/

structure Follows (m : Member) (k : Nat) (round : Round) : Prop where
  attempt : round.attempt = k + 1
  remaining : round.attempt + round.remaining = m.config.settleAttempts.toNat

theorem Follows.total {m : Member} {k : Nat} {round : Round} (h : Follows m k round) :
    k + 1 + round.remaining = m.config.settleAttempts.toNat := by
  rw [← h.attempt]
  exact h.remaining

theorem Follows.lt {m : Member} {k : Nat} {round : Round} (h : Follows m k round) :
    k < m.config.settleAttempts.toNat := by
  have htotal := h.total
  omega

/-- What a registration has been told when it comes to a spot. -/
inductive Leads (m : Member) (gone : Prop) : List Heard → Spot → Prop where
  | listing {told k last round} (h : Rounds m told k last) (hround : Follows m k round) :
      Leads m gone told (.listing .register round)
  | staking {told k last round list claim} (h : Rounds m told k last) (hround : Follows m k round)
      (hchosen : Chosen m list claim) :
      Leads m gone (told ++ [listed m list]) (.staking .register round claim)
  | spreading {told k last round part claim} (h : Rounds m told k last)
      (hround : Follows m k round) (hclaims : Claims m part claim) :
      Leads m gone (told ++ part) (.spreading .register round claim)
  | verifying {told k last round part claim} (h : Rounds m told k last)
      (hround : Follows m k round) (hclaims : Claims m part claim) :
      Leads m gone (told ++ part) (.verifying .register round claim)
  | backingOff {told last k round time} (h : Rounds m told (k + 1) last)
      (hround : Follows m k round) : Leads m gone told (.backingOff .register round last time)
  | abandoning {told k e} (h : Ends m gone told k e) :
      Leads m gone told (.withdrawing (.abandoning e))
  | late {told k} (h : Ends m gone told k (.invalidState .registering .deactivated))
      (hgone : gone) : Leads m gone told (.withdrawing (.late .deactivated))

def Recounts (m : Member) (gone : Prop) (told : List Heard) : Stage → Prop
  | .waiting s => Leads m gone told s
  | .due s reply => exists before answer, Leads m gone before s ∧
      told = before ++ (heard? (s.effect m) answer).toList ∧ s.reply m answer = reply
  | .finished (.registered (.error e)) => exists before k answer, Ends m gone before k e ∧
      told = before ++ [withdrawn m answer]
  | .finished _ => True

section

variable {m : Member} {gone gone' : Prop} {told : List Heard} {stage : Stage} {s : Spot}

theorem Leads.mono (h : Leads m gone told s) (hgone : gone -> gone') : Leads m gone' told s := by
  cases h with
  | listing h hround => exact .listing h hround
  | staking h hround hchosen => exact .staking h hround hchosen
  | spreading h hround hclaims => exact .spreading h hround hclaims
  | verifying h hround hclaims => exact .verifying h hround hclaims
  | backingOff h hround => exact .backingOff h hround
  | abandoning h => exact .abandoning (h.mono hgone)
  | late h hg => exact .late (h.mono hgone) (hgone hg)

theorem Recounts.mono (h : Recounts m gone told stage) (hgone : gone -> gone') :
    Recounts m gone' told stage := by
  cases stage with
  | waiting s => exact Leads.mono h hgone
  | due s reply =>
      rcases h with ⟨before, answer, hleads, htold, hreply⟩
      exact ⟨before, answer, hleads.mono hgone, htold, hreply⟩
  | finished outcome =>
      cases outcome with
      | registered result =>
          cases result with
          | error e =>
              rcases h with ⟨before, k, answer, hends, htold⟩
              exact ⟨before, k, answer, hends.mono hgone, htold⟩
          | ok number => exact trivial
      | beaten | deregistered result | issued result => exact trivial

theorem Leads.registers (h : Leads m gone told s) : s.Registers := by
  cases h with
  | listing _ _ | staking _ _ _ | spreading _ _ _ | verifying _ _ _ | backingOff _ _ => exact rfl
  | abandoning _ | late _ _ => exact fun hquiet => nomatch hquiet

theorem Recounts.registers (h : Recounts m gone told stage) (hs : stage.spot? = some s) :
    s.Registers := by
  cases stage with
  | waiting s =>
      cases hs
      exact Leads.registers h
  | due s reply =>
      cases hs
      rcases h with ⟨before, answer, hleads, _⟩
      exact hleads.registers
  | finished outcome => cases hs

end

/-!
# Turns
-/

section

variable {ι ω : Type} {S : Setting ι ω} {i : ι} {σ σ' : Standing} {w w' : ω} {stage : Stage}
  {s : Spot} {told : List Heard} {k : Nat} {last : Option RegistryError}

theorem recounts_of_quits {gone : Prop} {e : Error} (hends : Ends (S.member i) gone told k e)
    (h : Quits S i σ w .register e stage w') : Recounts (S.member i) gone told stage := by
  cases h with
  | abandon => exact Leads.abandoning hends

theorem deactivated_of_not_maySettle (hσ : σ.status = .registering ∨ σ.status = .deactivated)
    (hsettle : σ.status.maySettle = false) : σ.status = .deactivated := by
  rcases hσ with hregistering | hgone
  · rw [hregistering] at hsettle
    cases hsettle
  · exact hgone

theorem recounts_of_tries (hσ : σ.status = .registering ∨ σ.status = .deactivated)
    (hrounds : Rounds (S.member i) told k last) {remaining : Nat}
    (hk : k + remaining = (S.member i).config.settleAttempts.toNat)
    (h : Tries S i σ w .register (k + 1) last remaining stage w') :
    Recounts (S.member i) (σ.status = .deactivated) told stage := by
  cases h with
  | @list remaining _ =>
      have htotal : k + 1 + remaining = (S.member i).config.settleAttempts.toNat := by omega
      exact Leads.listing hrounds ⟨rfl, htotal⟩
  | barred hsettle hquit =>
      have hgone := deactivated_of_not_maySettle hσ hsettle
      rw [hgone] at hquit
      exact recounts_of_quits (.barred hrounds (by omega) hgone) hquit
  | exhausted hquit =>
      rw [Nat.add_zero] at hk
      rw [hk] at hrounds
      exact recounts_of_quits (.exhausted hrounds) hquit

theorem recounts_of_retries {gone : Prop} {round : Round}
    (hrounds : Rounds (S.member i) told (k + 1) last) (hround : Follows (S.member i) k round)
    (h : Retries S i σ w .register round last stage w') :
    Recounts (S.member i) gone told stage := by
  cases h with
  | backOff _ words => exact Leads.backingOff hrounds hround
  | exhausted hremaining hquit =>
      have hall := hround.total
      rw [hremaining, Nat.add_zero] at hall
      rw [hall] at hrounds
      exact recounts_of_quits (.exhausted hrounds) hquit

theorem overflow_of_ofClaim? {claim : Registration} (h : Settled.ofClaim? claim = none) :
    65535 < claim.number.toNat := by
  by_contra hle
  rw [Settled.ofClaim?_of_lt (show claim.number.toNat < UniqueId.serverRange by
    unfold UniqueId.serverRange; omega)] at h
  cases h

theorem recounts_of_resumes (hσ : σ.status = .registering ∨ σ.status = .deactivated)
    {reply : s.Reply} (h : Resumes S i σ w s reply stage σ' w')
    (hs : Recounts (S.member i) (σ.status = .deactivated) told (.due s reply)) :
    Recounts (S.member i) (σ.status = .deactivated) told stage := by
  rcases hs with ⟨before, answer, hleads, rfl, hreply⟩
  cases h with
  | listed _ =>
      cases hleads with
      | listing hrounds hround =>
          exact Leads.staking hrounds hround ⟨⟨_, hreply, rfl⟩, rfl⟩
  | listingFailed hretry =>
      cases hleads with
      | listing hrounds hround =>
          exact recounts_of_retries (hrounds.next (.unlisted hreply)) hround hretry
  | staked =>
      cases hleads with
      | staking hrounds hround hchosen =>
          rw [List.append_assoc]
          exact Leads.spreading hrounds hround (.stake hchosen hreply)
  | stakingFailed hretry =>
      cases hleads with
      | staking hrounds hround hchosen =>
          rw [List.append_assoc]
          exact recounts_of_retries (hrounds.next (.unstaked hchosen hreply)) hround hretry
  | spread _ =>
      cases hleads with
      | spreading hrounds hround hclaims =>
          rw [heard?_of_pause rfl, Option.toList_none, List.append_nil]
          exact Leads.verifying hrounds hround hclaims
  | spreadBarred hsettle hquit =>
      cases hleads with
      | spreading hrounds hround hclaims =>
          have hgone := deactivated_of_not_maySettle hσ hsettle
          rw [heard?_of_pause rfl, Option.toList_none, List.append_nil]
          rw [hgone] at hquit
          exact recounts_of_quits (.interrupted hrounds hround.lt hclaims hgone) hquit
  | upheld hverdict hsettled hwin =>
      cases hleads with
      | verifying hrounds hround hclaims =>
          cases hwin with
          | register _ => exact trivial
          | late hstatus =>
              have hgone := hσ.resolve_left hstatus
              have hphase : σ.status.phase = .deactivated := by
                rw [hgone]
                rfl
              rw [List.append_assoc, hphase]
              exact Leads.late (.late hrounds hround.lt hclaims hreply hverdict hgone) hgone
  | overflow hverdict hsettled hquit =>
      cases hleads with
      | verifying hrounds hround hclaims =>
          rw [List.append_assoc]
          exact recounts_of_quits (.overflow hrounds hround.lt hclaims hreply hverdict
            (overflow_of_ofClaim? hsettled)) hquit
  | lost hverdict hretry =>
      cases hleads with
      | verifying hrounds hround hclaims =>
          rw [List.append_assoc]
          exact recounts_of_retries (hrounds.next (.lost hclaims hreply hverdict)) hround hretry
  | verifyingFailed hretry =>
      cases hleads with
      | verifying hrounds hround hclaims =>
          rw [List.append_assoc]
          exact recounts_of_retries (hrounds.next (.unverified hclaims hreply)) hround hretry
  | backedOff htry =>
      cases hleads with
      | backingOff hrounds hround =>
          rw [heard?_of_pause rfl, Option.toList_none, List.append_nil]
          rw [hround.attempt] at htry
          exact recounts_of_tries hσ hrounds hround.total htry
  | relinquished _ =>
      cases hleads with
      | abandoning hends => exact ⟨before, _, answer, hends, rfl⟩
  | left _ =>
      cases hleads with
      | abandoning hends | late hends _ => exact ⟨before, _, answer, hends, rfl⟩
  | refreshed _ | refreshedLate _ | refreshingFailed | uncontested _ | contested _ _
  | checkingFailed | restored _ | restoredLate _ | restoringFailed | removed | removingFailed =>
      cases hleads

theorem recounts_of_begins {gone : Prop} (h : Begins S i σ w .activate stage σ' w')
    (hinactive : σ.status = .inactive) : Recounts (S.member i) gone [] stage := by
  cases h with
  | activate _ htry =>
      have hrecounts := recounts_of_tries (Or.inl rfl) .none (Nat.zero_add _) htry
      exact hrecounts.mono fun hgone => nomatch hgone
  | activateRefused hstatus => exact absurd hinactive hstatus

theorem status_of_failed (hσ : σ.status = .registering ∨ σ.status = .deactivated)
    {reply : s.Reply} (h : Resumes S i σ w s reply stage σ' w')
    (hleads : Leads (S.member i) (σ.status = .deactivated) told s) {e : Error}
    (hstage : stage = .finished (.registered (.error e))) :
    σ'.status = .inactive ∨ σ'.status = .deactivated := by
  have hretreats : ¬ stage.Retreats := by
    rintro ⟨_, rfl, _⟩
    cases hstage
  cases h with
  | listingFailed hretry | stakingFailed hretry | verifyingFailed hretry | lost _ hretry =>
      exact absurd hretry.retreats hretreats
  | spreadBarred _ hquit | overflow _ _ hquit => exact absurd hquit.retreats hretreats
  | backedOff htry | contested _ htry => exact absurd htry.retreats hretreats
  | upheld _ _ hwin =>
      cases hwin with
      | register _ | late _ | renumber _ | interrupt _ => cases hstage
  | relinquished _ => exact Or.inl rfl
  | left hstatus =>
      cases hleads with
      | abandoning _ => exact Or.inr (hσ.resolve_left fun hregistering =>
          hstatus hregistering _ rfl)
      | late _ hgone => exact Or.inr hgone
  | listed _ | staked | spread _ | refreshed _ | refreshedLate _ | refreshingFailed
  | uncontested _ | checkingFailed | restored _ | restoredLate _ | restoringFailed | removed
  | removingFailed => cases hstage

end

end Registering
end Roster
