import Roster.Proofs.Interleaving.Staged

/-!
# Claims of threads

A thread holds the claim that it settles or refreshes, and the old one while it renumbers.  New
claims are made of what a listing has shown, so a property that every new claim has is one of all
claims that threads hold.
-/

namespace Roster
namespace Interleaving

variable {ι ω : Type}

def Aim.Holds (P : Registration → Prop) : Aim → Prop
  | register => True
  | renumber old => P old

def Spot.Holds (P : Registration → Prop) : Spot → Prop
  | listing aim _ | backingOff aim _ _ _ => aim.Holds P
  | staking aim _ claim | spreading aim _ claim | verifying aim _ claim => aim.Holds P ∧ P claim
  | refreshing claim | checking claim | restoring claim => P claim
  | withdrawing _ | removing => True

/-- The claims that the thread holds have the property, and so has the one that it is about to
make. -/
def Stage.Holds (id : String) (P : Registration → Prop) : Stage → Prop
  | waiting s => s.Holds P
  | due (.listing aim _) (.ok live) =>
      aim.Holds P ∧ forall t, P ⟨id, Numbering.lowestFree id live, t⟩
  | due s _ => s.Holds P
  | finished _ => True

section

variable {S : Setting ι ω} {i : ι} {σ σ' : Standing} {w w' : ω} {aim : Aim} {stage : Stage}
  {s : Spot} {P : Registration → Prop} {id : String}

theorem Spot.Holds.mono {Q : Registration → Prop} (h : s.Holds P)
    (himp : forall claim, P claim -> Q claim) : s.Holds Q := by
  have haim {aim : Aim} (h : aim.Holds P) : aim.Holds Q := by
    cases aim with
    | register => exact trivial
    | renumber old => exact himp old h
  cases s with
  | listing aim round | backingOff aim round last time => exact haim h
  | staking aim round claim | spreading aim round claim | verifying aim round claim =>
      exact ⟨haim h.1, himp claim h.2⟩
  | refreshing claim | checking claim | restoring claim => exact himp claim h
  | withdrawing exit | removing => exact trivial

theorem Spot.Holds.of_put {m : Member} (h : s.Holds P) {region key : String} {bytes : Bytes}
    {next : (Effect.call (.put region key bytes)).Answer → Proc Outcome}
    (hproc : s.proc m = .ask (.call (.put region key bytes)) next) :
    exists claim, P claim ∧ bytes = Storable.encode claim := by
  cases s with
  | staking aim round claim =>
      cases hproc
      exact ⟨claim, h.2, rfl⟩
  | refreshing claim | restoring claim =>
      cases hproc
      exact ⟨claim, h, rfl⟩
  | _ => cases hproc

theorem Stage.holds_spot {reply : s.Reply} (h : (Stage.due s reply).Holds id P) : s.Holds P := by
  cases s with
  | listing aim round =>
      cases reply with
      | error e => exact h
      | ok live => exact h.1
  | _ => exact h

theorem Quits.holds {e : Error} (h : Quits S i σ w aim e stage w') (haim : aim.Holds P) :
    stage.Holds id P := by
  cases h with
  | abandon => exact trivial
  | restore hready => exact haim
  | interrupt hready => exact trivial

theorem Tries.holds {attempt remaining : Nat} {last : Option RegistryError}
    (h : Tries S i σ w aim attempt last remaining stage w') (haim : aim.Holds P) :
    stage.Holds id P := by
  cases h with
  | list hsettle => exact haim
  | barred hsettle hquit => exact hquit.holds haim
  | exhausted hquit => exact hquit.holds haim

theorem Retries.holds {round : Round} {last : Option RegistryError}
    (h : Retries S i σ w aim round last stage w') (haim : aim.Holds P) : stage.Holds id P := by
  cases h with
  | backOff hremaining words => exact haim
  | exhausted hremaining hquit => exact hquit.holds haim

theorem Wins.holds {settled : Settled} (h : Wins S i σ w settled aim stage σ' w') :
    stage.Holds id P := by
  cases h with
  | register _ | late _ | renumber _ | interrupt _ => exact trivial

theorem Resumes.holds {reply : s.Reply} (h : Resumes S i σ w s reply stage σ' w')
    (hs : (Stage.due s reply).Holds (S.member i).id.text P) :
    stage.Holds (S.member i).id.text P := by
  cases h with
  | listed hread => exact ⟨hs.1, hs.2 _⟩
  | staked | spread _ | refreshed _ => exact hs
  | refreshedLate _ | restoredLate _ => exact trivial
  | listingFailed hretry => exact hretry.holds hs
  | stakingFailed hretry | verifyingFailed hretry | lost _ hretry => exact hretry.holds hs.1
  | spreadBarred _ hquit | overflow _ _ hquit => exact hquit.holds hs.1
  | upheld _ _ hwin => exact hwin.holds
  | backedOff htry | contested _ htry => exact htry.holds hs
  | relinquished _ | left _ | refreshingFailed | uncontested _ | checkingFailed | restored _
  | restoringFailed | removed | removingFailed => exact trivial

end

end Interleaving
end Roster
