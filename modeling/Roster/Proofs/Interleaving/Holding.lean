import Roster.Proofs.Interleaving.Proper

/-!
# What members hold

The claim of a thread becomes that of its member when it is settled, and heartbeats begin with it
then.  So a property that is kept by all claims made of what listings show is one of all claims that
members and their threads hold.
-/

namespace Roster

def Standing.Holds (P : Registration → Prop) (σ : Standing) : Prop :=
  forall settled, σ.settled = some settled -> P settled.claim

theorem Standing.holds_some {P : Registration → Prop} {settled : Settled} (h : P settled.claim)
    (status : Status) : Standing.Holds P ⟨status, some settled⟩ := by
  intro settled' hsettled
  cases hsettled
  exact h

theorem Standing.holds_none (P : Registration → Prop) (status : Status) :
    Standing.Holds P ⟨status, none⟩ := by
  intro settled hsettled
  cases hsettled

namespace Interleaving

variable {ι ω : Type}

/-!
# Claims that are settled
-/

section

variable {S : Setting ι ω} {i : ι} {σ σ' : Standing} {w w' : ω} {aim : Aim} {stage : Stage}
  {s : Spot} {P : Registration → Prop} {id : String}

theorem Wins.standing {settled : Settled} (h : Wins S i σ w settled aim stage σ' w')
    (hsettled : P settled.claim) (hσ : σ.Holds P) : σ'.Holds P := by
  cases h with
  | register _ | renumber _ => exact Standing.holds_some hsettled _
  | late _ | interrupt _ => exact hσ

theorem Resumes.standing {reply : s.Reply} (h : Resumes S i σ w s reply stage σ' w')
    (hs : (Stage.due s reply).Holds id P) (hσ : σ.Holds P) : σ'.Holds P := by
  cases h with
  | upheld _ hsettled hwin =>
      apply hwin.standing ?_ hσ
      rw [(Settled.proper_of_ofClaim? hsettled rfl).1]
      exact hs.2
  | _ => exact hσ

theorem Begins.holds {op : Operation} (h : Begins S i σ w op stage σ' w') (hσ : σ.Holds P) :
    stage.Holds id P := by
  cases h with
  | activate _ htry => exact htry.holds trivial
  | heartbeat _ hsettled => exact hσ _ hsettled
  | _ => exact trivial

theorem Begins.standing {op : Operation} (h : Begins S i σ w op stage σ' w') (hσ : σ.Holds P) :
    σ'.Holds P := by
  cases h with
  | uniqueId hsettled _ =>
      have hclaim := hσ _ hsettled
      intro settled' hissued
      cases hissued
      exact hclaim
  | deactivate _ | deactivateAgain _ => exact Standing.holds_none P _
  | activate _ _ => exact hσ
  | _ => exact hσ

end

/-!
# Claims of clusters
-/

/-- All claims that members hold have the property, for the member that holds them. -/
structure Holding (S : Setting ι ω) (P : ι → Registration → Prop) (c : Cluster ι ω Stage) :
    Prop where
  thread : forall n t, c.threads n = some t ->
    t.task.Holds (S.member t.owner).id.text (P t.owner)
  standing : forall i, (c.standing i).Holds (P i)

section

variable {S : Setting ι ω} {P : ι → Registration → Prop} {c c' : Cluster ι ω Stage}

theorem Holding.initial (w : ω) : Holding S P (.initial w) where
  thread := fun _ _ h => (nomatch h)
  standing := fun _ => Standing.holds_none _ _

variable [DecidableEq ι]

theorem Holding.moved (h : Holding S P c) {n : Nat} {t : Thread ι ω Stage} {σ : Standing} {w : ω}
    (hthread : t.task.Holds (S.member t.owner).id.text (P t.owner)) (hσ : σ.Holds (P t.owner)) :
    Holding S P (c.moved n t σ w) where
  thread := by
    intro k u hu
    rcases Cluster.thread_moved hu with ⟨_, rfl⟩ | ⟨_, hu⟩
    · exact hthread
    · exact h.thread k u hu
  standing := by
    intro i
    rcases c.standing_moved (n := n) (t := t) (σ := σ) (w := w) i with ⟨rfl, heq⟩ | ⟨_, heq⟩
    · rw [heq]
      exact hσ
    · rw [heq]
      exact h.standing i

theorem Holding.move (h : Holding S P c) (hmove : Moves S c c')
    (hlisted : forall {n t aim round answer w live}, c.threads n = some t ->
      t.task = .waiting (.listing aim round) ->
      S.answers t.owner c.world (.call (.list (S.member t.owner).servers.name)) answer w ->
      heardListing answer = .ok live -> forall time, P t.owner
        ⟨(S.member t.owner).id.text,
          Numbering.lowestFree (S.member t.owner).id.text live, time⟩) : Holding S P c' := by
  cases hmove with
  | @start n i op stage σ w hfresh hpermits hbegin =>
      exact h.moved (hbegin.holds (h.standing i)) (hbegin.standing (h.standing i))
  | @call n t s w ht htask hcall answer hpermits hanswer =>
      refine h.moved ?_ (h.standing t.owner)
      have hs := h.thread n t ht
      rw [htask] at hs
      cases s with
      | listing aim round =>
          change Stage.Holds _ _ (.due (.listing aim round) (heardListing answer))
          cases hheard : heardListing answer with
          | error e => exact hs
          | ok live =>
              have hnew := hlisted ht htask hanswer hheard
              exact ⟨hs, hnew⟩
      | _ => exact hs
  | @wake n t s ht htask hpermits hpause reply =>
      refine h.moved ?_ (h.standing t.owner)
      have hs := h.thread n t ht
      rw [htask] at hs
      cases s with
      | listing aim round => cases hpause
      | _ => exact hs
  | @turn n t s reply stage σ w ht htask hpermits hresume =>
      have hs := h.thread n t ht
      rw [htask] at hs
      exact h.moved (hresume.holds hs) (hresume.standing hs (h.standing t.owner))
  | drift hpermits hdrift => exact ⟨h.thread, h.standing⟩

end

end Interleaving
end Roster
