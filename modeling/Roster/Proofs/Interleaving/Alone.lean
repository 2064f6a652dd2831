import Roster.Proofs.Interleaving.Staged

/-!
# Threads that move alone

When one thread moves and all others stand still, its moves follow one another.  A round whose
claim is not contested ends with the number taken over.
-/

namespace Roster
namespace Interleaving

variable {ι ω : Type} [DecidableEq ι] {S : Setting ι ω} {c : Cluster ι ω Stage} {i : ι} {n : Nat}
  {σ σ' : Standing} {last w w' : ω} {s : Spot}

/-!
# Single moves
-/

theorem moved_moved (stage stage' : Stage) (last last' : ω) :
    (c.moved n ⟨i, stage, last⟩ σ w).moved n ⟨i, stage', last'⟩ σ' w' =
      c.moved n ⟨i, stage', last'⟩ σ' w' := by
  unfold Cluster.moved
  simp only [Function.update_idem]

/-- Threads of different members do not mind in which order they have come where they are. -/
theorem moved_comm {k : Nat} {t u : Thread ι ω Stage} (hne : n ≠ k) (howner : t.owner ≠ u.owner)
    (τ : Standing) (w₁ w₂ : ω) :
    (c.moved n t σ w₁).moved k u τ w = (c.moved k u τ w₂).moved n t σ w := by
  unfold Cluster.moved
  simp only [Function.update_comm hne, Function.update_comm howner]

theorem thread_moved_self (t : Thread ι ω Stage) : (c.moved n t σ w).threads n = some t :=
  Function.update_self ..

theorem standing_moved_self (t : Thread ι ω Stage) :
    (c.moved n t σ w).standing t.owner = σ :=
  Function.update_self ..

theorem standing_moved_lone {c : Cluster Unit ω Stage} (n : Nat) (t : Thread Unit ω Stage)
    (σ : Standing) (w : ω) : (c.moved n t σ w).standing () = σ :=
  standing_moved_self t

theorem moved_eq_self {t : Thread ι ω Stage} (ht : c.threads n = some t)
    (hσ : c.standing t.owner = σ) (hw : c.world = w) : c.moved n t σ w = c := by
  unfold Cluster.moved
  rw [← hσ, ← hw, Function.update_eq_self, ← ht, Function.update_eq_self]

theorem moves_activate (hfresh : c.threads n = none) (hpermits : S.permits (c.enacted S) (.start n))
    (hinactive : (c.standing i).status = .inactive) {remaining : Nat}
    (hattempts : (S.member i).config.settleAttempts.toNat = remaining + 1) :
    Moves S c (c.moved n
      ⟨i, .waiting (.listing .register ⟨1, remaining⟩), S.reported i c.world .registering⟩
      { c.standing i with status := .registering } (S.reported i c.world .registering)) := by
  refine .start hfresh hpermits (.activate hinactive ?_)
  rw [hattempts]
  exact .list rfl

def Setting.Calls (S : Setting ι ω) (c : Cluster ι ω Stage) (n : Nat) (i : ι) (σ : Standing)
    (s : Spot) (last w : ω) (answer : (s.effect (S.member i)).Answer) (w' : ω) : Prop :=
  S.permits ((c.moved n ⟨i, .waiting s, last⟩ σ w).enacted S) (.call n (succeeds _ answer)) ∧
    S.answers i w (s.effect (S.member i)) answer w'

theorem moves_call (hcall : s.pauses = false) {answer : (s.effect (S.member i)).Answer}
    (h : S.Calls c n i σ s last w answer w') :
    Moves S (c.moved n ⟨i, .waiting s, last⟩ σ w)
      (c.moved n ⟨i, .due s (s.reply (S.member i) answer), w'⟩ σ w') := by
  have hmove := Moves.call (c := c.moved n ⟨i, .waiting s, last⟩ σ w)
    (t := ⟨i, .waiting s, last⟩) (thread_moved_self _) rfl hcall answer h.1 h.2
  rw [standing_moved_self, moved_moved] at hmove
  exact hmove

theorem moves_wake (hpause : s.pauses = true) (reply : s.Reply)
    (hpermits : S.permits ((c.moved n ⟨i, .waiting s, last⟩ σ w).enacted S) (.wake n)) :
    Moves S (c.moved n ⟨i, .waiting s, last⟩ σ w) (c.moved n ⟨i, .due s reply, last⟩ σ w) := by
  have hmove := Moves.wake (c := c.moved n ⟨i, .waiting s, last⟩ σ w)
    (t := ⟨i, .waiting s, last⟩) (thread_moved_self _) rfl hpermits hpause reply
  rw [standing_moved_self, moved_moved] at hmove
  exact hmove

theorem moves_turn {reply : s.Reply} {stage : Stage}
    (hpermits : S.permits ((c.moved n ⟨i, .due s reply, last⟩ σ w).enacted S) (.turn n))
    (hresume : Resumes S i σ w s reply stage σ' w') :
    Moves S (c.moved n ⟨i, .due s reply, last⟩ σ w) (c.moved n ⟨i, stage, last⟩ σ' w') := by
  have hmove := Moves.turn (c := c.moved n ⟨i, .due s reply, last⟩ σ w)
    (t := ⟨i, .due s reply, last⟩) (thread_moved_self _) rfl hpermits
    (by rw [standing_moved_self]; exact hresume)
  rw [moved_moved] at hmove
  exact hmove

theorem reaches_call {stage : Stage} {σ' : Standing} (last : ω) {w₁ w₂ : ω}
    (hcall : s.pauses = false)
    {answer : (s.effect (S.member i)).Answer} (h : S.Calls c n i σ s last w answer w₁)
    {reply : s.Reply} (hreply : s.reply (S.member i) answer = reply)
    (hturn : S.permits ((c.moved n ⟨i, .due s reply, w₁⟩ σ w₁).enacted S) (.turn n))
    (hresume : Resumes S i σ w₁ s reply stage σ' w₂) :
    Relation.ReflTransGen (Moves S) (c.moved n ⟨i, .waiting s, last⟩ σ w)
      (c.moved n ⟨i, stage, w₁⟩ σ' w₂) := by
  have hmove := moves_call hcall h
  rw [hreply] at hmove
  exact .head hmove (.single (moves_turn hturn hresume))

/-!
# A round that stands
-/

theorem reaches_verdict {aim : Aim} {round : Round} {claim : Registration} {w₁ w₂ : ω}
    {values : List Bytes} {live : List Registration} {settled : Settled} {stage : Stage}
    (hsettle : σ.status.maySettle = true)
    (hturn : forall stage last w,
      S.permits ((c.moved n ⟨i, stage, last⟩ σ w).enacted S) (.turn n))
    (hwake : S.permits
      ((c.moved n ⟨i, .waiting (.spreading aim round claim), last⟩ σ w).enacted S) (.wake n))
    (hlist : S.Calls c n i σ (.verifying aim round claim) last w (.ok values) w₁)
    (hlive : heardListing (.ok values) = .ok live)
    (hverdict : Numbering.verdict claim live ≠ .lost)
    (hsettled : Settled.ofClaim? claim = some settled)
    (hwin : Wins S i σ w₁ settled aim stage σ' w₂) :
    Relation.ReflTransGen (Moves S)
      (c.moved n ⟨i, .waiting (.spreading aim round claim), last⟩ σ w)
      (c.moved n ⟨i, stage, w₁⟩ σ' w₂) := by
  have hspread := (Relation.ReflTransGen.single (moves_wake rfl () hwake)).tail
    (moves_turn (hturn _ _ _) (.spread hsettle))
  have hverified := reaches_call _ rfl hlist hlive (hturn _ _ _) (.upheld hverdict hsettled hwin)
  exact hspread.trans hverified

/-- A thread lists the registrations, claims a number, lets the claim spread, and takes the number
over when it is still uncontested. -/
theorem reaches_round (claim : Registration) {aim : Aim} {round : Round} {w₁ w₂ w₃ w₄ w₅ w₆ : ω}
    {values values' : List Bytes} {previous : Option Bytes} {live live' : List Registration}
    {before : Option Registration} {settled : Settled} {stage : Stage}
    (hserver : claim.serverId = (S.member i).id.text)
    (hnumber : claim.number = Numbering.lowestFree (S.member i).id.text live)
    (hsettle : σ.status.maySettle = true)
    (hturn : forall stage last w,
      S.permits ((c.moved n ⟨i, stage, last⟩ σ w).enacted S) (.turn n))
    (hlist : S.Calls c n i σ (.listing aim round) last w (.ok values) w₁)
    (hlive : heardListing (.ok values) = .ok live)
    (hnow : S.answers i w₁ .now claim.claimedAt w₂)
    (hput : S.Calls c n i σ (.staking aim round claim) w₁ w₂ (.ok previous) w₃)
    (hbefore : heardPrevious (.ok previous) = .ok before)
    (hwait : Relation.ReflTransGen (Moves S)
      (c.moved n ⟨i, .waiting (.spreading aim round claim), w₃⟩ σ w₃)
      (c.moved n ⟨i, .waiting (.spreading aim round claim), w₃⟩ σ w₄))
    (hwake : S.permits
      ((c.moved n ⟨i, .waiting (.spreading aim round claim), w₃⟩ σ w₄).enacted S) (.wake n))
    (hlist' : S.Calls c n i σ (.verifying aim round claim) w₃ w₄ (.ok values') w₅)
    (hlive' : heardListing (.ok values') = .ok live')
    (hverdict : Numbering.verdict claim live' ≠ .lost)
    (hsettled : Settled.ofClaim? claim = some settled)
    (hwin : Wins S i σ w₅ settled aim stage σ' w₆) :
    Relation.ReflTransGen (Moves S) (c.moved n ⟨i, .waiting (.listing aim round), last⟩ σ w)
      (c.moved n ⟨i, stage, w₅⟩ σ' w₆) := by
  have hlisted := reaches_call _ rfl hlist hlive (hturn _ _ _) (.listed hnow)
  rw [← hnumber, ← hserver] at hlisted
  have hstaked := reaches_call _ rfl hput hbefore (hturn _ _ _) .staked
  have hverified := reaches_verdict hsettle hturn hwake hlist' hlive' hverdict hsettled hwin
  exact hlisted.trans (hstaked.trans (hwait.trans hverified))

end Interleaving
end Roster
