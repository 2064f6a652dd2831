import Roster.Proofs.Numbering
import Roster.Proofs.Registry.Contents
import Roster.Proofs.Settling.Orderly

/-!
# Rivals and claims on record

A thread is a rival for a number from the listing that the number is taken from until it is claimed.
Then its claim is on record, until it has been verified.
-/

namespace Roster
namespace Interleaving

variable {ι ω : Type} {S : Setting ι ω}

/-!
# Rivals
-/

def stakes? (id : String) : Stage → Option UInt32
  | .due (.listing _ _) (.ok live) => some (Numbering.lowestFree id live)
  | .waiting (.staking _ _ claim) => some claim.number
  | _ => none

section

variable {i : ι} {σ σ' : Standing} {w w' : ω} {stage : Stage}

theorem stakes?_of_retreats (id : String) (h : stage.Retreats) : stakes? id stage = none := by
  rcases h with ⟨s, rfl, hs⟩
  cases s with
  | listing aim round | backingOff aim round last time | withdrawing exit | restoring held => rfl
  | staking aim round held | spreading aim round held | verifying aim round held
  | refreshing held | checking held | removing => exact hs.elim

theorem stakes?_of_resumes {s : Spot} {reply : s.Reply} {number : UInt32}
    (h : Resumes S i σ w s reply stage σ' w')
    (hstakes : stakes? (S.member i).id.text stage = some number) :
    stakes? (S.member i).id.text (.due s reply) = some number := by
  cases h.ensues with
  | stake hread => exact hstakes
  | retreat hretreats => cases (stakes?_of_retreats _ hretreats).symm.trans hstakes
  | spread | verify | check | register | beat | deregister => cases hstakes

theorem now_of_resumes {s : Spot} {reply : s.Reply} {aim : Aim} {round : Round}
    {claim : Registration}
    (h : Resumes S i σ w s reply (.waiting (.staking aim round claim)) σ' w') :
    S.answers i w .now claim.claimedAt w' := by
  cases h.ensues with
  | stake hread => exact hread
  | retreat hretreats => cases stakes?_of_retreats "" hretreats

theorem stakes?_of_begins {op : Operation} (id : String)
    (h : Begins S i σ w op stage σ' w') : stakes? id stage = none := by
  cases h with
  | activate _ htry => exact stakes?_of_retreats id htry.retreats
  | activateRefused _ | heartbeat _ _ | heartbeatIdle _ | deactivate _ | deactivateAgain _
  | uniqueId _ _ | uniqueIdRefused _ => rfl

end

theorem number_lt_highest {id : String} {settled : Settled} (h : settled.Proper id) :
    settled.claim.number.toNat < Numbering.highest := by
  have hserver := settled.issuer.server.toNat_lt
  rw [h.server_eq] at hserver
  unfold Numbering.highest
  omega

theorem Shared.serverId_ne (R : Shared S) {w : ω} (hsound : R.sound w) {i j : ι} (hne : j ≠ i)
    {claim : Registration} (hheld : R.held w j = some claim) :
    claim.serverId ≠ (S.member i).id.text := by
  rw [show claim.serverId = (S.member j).id.text from (hsound j).serverId_eq hheld]
  exact fun heq => hne (R.id_injective j i heq)

/-- A listing never leads to the number of a claim that it shows. -/
theorem Shared.stakes?_ne_of_listing (R : Shared S) {w w' : ω} (hsound : R.sound w)
    (hexclusive : R.Exclusive w) {i j : ι} (hne : j ≠ i) {claim : Registration}
    (hheld : R.held w i = some claim) (hnumber : claim.number.toNat < Numbering.highest)
    {answer : Except RegistryError (List Bytes)}
    (hanswer : S.answers j w (.call (.list (S.member j).servers.name)) answer w')
    {live : List Registration} (hlive : heardListing answer = .ok live) :
    Numbering.lowestFree (S.member j).id.text live ≠ claim.number := by
  intro heq
  have hmem : claim ∈ live :=
    (R.mem_listing hexclusive hanswer hlive claim).mpr ⟨i, hheld⟩
  exact Numbering.number_ne_lowestFree (by rw [heq]; exact hnumber) hmem
    (R.serverId_ne hsound hne.symm hheld) heq.symm

/-- A listing says that a claim is not lost just when it outranks what the others hold of its
number. -/
theorem Shared.verdict_ne_lost_iff (R : Shared S) {w w' : ω} (hsound : R.sound w)
    (hexclusive : R.Exclusive w) {i : ι} {claim : Registration}
    (hclaim : claim.serverId = (S.member i).id.text)
    {answer : Except RegistryError (List Bytes)} {live : List Registration}
    (hanswer : S.answers i w (.call (.list (S.member i).servers.name)) answer w')
    (hlive : heardListing answer = .ok live) :
    Numbering.verdict claim live ≠ .lost ↔
      forall j e, j ≠ i -> R.held w j = some e -> e.number = claim.number ->
        claim.outranks e = true := by
  rw [Numbering.verdict_ne_lost_iff, hclaim]
  constructor
  · intro h j e hne hj hnumber
    exact h e ((R.mem_listing hexclusive hanswer hlive e).mpr ⟨j, hj⟩) hnumber
      (R.serverId_ne hsound hne hj)
  · intro h e he hnumber hother
    rcases (R.mem_listing hexclusive hanswer hlive e).mp he with ⟨j, hj⟩
    refine h j e ?_ hj hnumber
    rintro rfl
    exact hother ((hsound j).serverId_eq hj)

section

variable [DecidableEq ι] {c c' : Cluster ι ω Stage}

theorem now_of_moves (hmove : Moves S c c') {n : Nat} {t : Thread ι ω Stage} {aim : Aim}
    {round : Round} {claim : Registration} (ht : c'.threads n = some t)
    (htask : t.task = .waiting (.staking aim round claim)) :
    c.threads n = some t ∨ S.answers t.owner c.world .now claim.claimedAt c'.world := by
  cases arrives_of_moves hmove ht with
  | stay ht => exact Or.inl ht
  | start _ _ hbegin =>
      cases htask
      cases stakes?_of_begins "" hbegin
  | call _ _ _ _ _ _ _ | wake _ _ _ _ _ _ _ => cases htask
  | turn _ _ _ hresume =>
      cases htask
      exact Or.inr (now_of_resumes hresume)

/-- No rival for a number turns up while the registry shows a claim to it. -/
theorem Shared.rival_of_moves (R : Shared S) (hsound : R.sound c.world)
    (hexclusive : R.Exclusive c.world) (hmove : Moves S c c') {i : ι} {claim : Registration}
    (hheld : R.held c.world i = some claim) (hnumber : claim.number.toNat < Numbering.highest)
    {k : Nat} {u : Thread ι ω Stage} (hu : c'.threads k = some u) (hne : u.owner ≠ i)
    (hstakes : stakes? (S.member u.owner).id.text u.task = some claim.number) :
    exists before, c.threads k = some before ∧ before.owner = u.owner ∧ before.last = u.last ∧
      stakes? (S.member u.owner).id.text before.task = some claim.number := by
  cases arrives_of_moves hmove hu with
  | stay hu => exact ⟨u, hu, rfl, rfl, hstakes⟩
  | start _ _ hbegin => cases (stakes?_of_begins _ hbegin).symm.trans hstakes
  | @call t s ht htask hcall answer _ hanswer _ =>
      cases s with
      | listing aim round =>
          cases hreply : heardListing answer with
          | error e =>
              simp only [Spot.reply, hreply, stakes?] at hstakes
              cases hstakes
          | ok live =>
              simp only [Spot.reply, hreply, stakes?] at hstakes
              exact absurd (Option.some.inj hstakes)
                (R.stakes?_ne_of_listing hsound hexclusive hne hheld hnumber hanswer hreply)
      | staking aim round held | spreading aim round held | verifying aim round held
      | backingOff aim round last time | withdrawing exit | refreshing held | checking held
      | restoring held | removing => cases hstakes
  | @wake t s ht htask _ hpause reply _ _ =>
      cases s with
      | listing aim round => cases hpause
      | staking aim round held | spreading aim round held | verifying aim round held
      | backingOff aim round last time | withdrawing exit | refreshing held | checking held
      | restoring held | removing => cases hstakes
  | turn ht htask _ hresume =>
      refine ⟨_, ht, rfl, rfl, ?_⟩
      rw [htask]
      exact stakes?_of_resumes hresume hstakes

end

/-!
# Claims on record
-/

theorem staked_of_claim? {s : Spot} {reply : s.Reply} {claim : Registration}
    (h : (Stage.due s reply).claim? = some claim) :
    (exists aim round, s = .staking aim round claim) ∨
      (Stage.waiting s).claim? = some claim := by
  cases s with
  | staking aim round held =>
      cases reply with
      | error e => cases h
      | ok previous =>
          cases h
          exact Or.inl ⟨aim, round, rfl⟩
  | spreading aim round held | verifying aim round held => exact Or.inr h
  | listing aim round | backingOff aim round last time | withdrawing exit | refreshing held
  | checking held | restoring held | removing => cases h

section

variable [DecidableEq ι] {c c' : Cluster ι ω Stage}

theorem claim_of_moves (hmove : Moves S c c') {n : Nat} {t : Thread ι ω Stage}
    {claim : Registration} (ht : c'.threads n = some t) (hclaim : t.task.claim? = some claim) :
    exists before, c.threads n = some before ∧ before.owner = t.owner ∧
      ((exists aim round, before.task = .waiting (.staking aim round claim)) ∧ t.last = c'.world ∨
        before.task.claim? = some claim ∧ (t.last = before.last ∨ t.last = c'.world)) := by
  cases arrives_of_moves hmove ht with
  | stay ht => exact ⟨t, ht, rfl, Or.inr ⟨hclaim, Or.inl rfl⟩⟩
  | start _ _ hbegin => cases hbegin.claim?_eq.symm.trans hclaim
  | @call before s hu htask _ answer _ _ _ =>
      refine ⟨before, hu, rfl, ?_⟩
      rw [htask]
      rcases staked_of_claim? hclaim with ⟨aim, round, rfl⟩ | hbefore
      · exact Or.inl ⟨⟨aim, round, rfl⟩, rfl⟩
      · exact Or.inr ⟨hbefore, Or.inr rfl⟩
  | @wake before s hu htask _ hpause reply _ _ =>
      refine ⟨before, hu, rfl, ?_⟩
      rw [htask]
      rcases staked_of_claim? hclaim with ⟨aim, round, rfl⟩ | hbefore
      · cases hpause
      · exact Or.inr ⟨hbefore, Or.inl rfl⟩
  | @turn before _ _ _ hu htask _ hresume =>
      refine ⟨before, hu, rfl, Or.inr ⟨?_, Or.inl rfl⟩⟩
      rw [htask]
      exact (hresume.claim?_eq hclaim).1

end

end Interleaving
end Roster
