import Roster.Proofs.Interleaving.Proper
import Roster.Proofs.Record.Stored

/-!
# Ledgers

A ledger tells what is read under the ids of the members.  Only a put or a removal of a member
changes it, at the id of that member and only where the call succeeds; nothing else that happens in
the setting does.
-/

namespace Roster
namespace Interleaving

variable {ι ω : Type}

/-- What the call at a spot puts under the id of the member. -/
def Spot.written? : Spot → Option (Option Registration)
  | staking _ _ claim | refreshing claim | restoring claim => some (some claim)
  | withdrawing _ | removing => some none
  | listing _ _ | spreading _ _ _ | verifying _ _ _ | backingOff _ _ _ _ | checking _ => none

def Stage.wrote? : Stage → Option Registration
  | due (.staking _ _ claim) (.ok _) | due (.refreshing claim) (.ok _)
  | due (.restoring claim) (.ok _) => some claim
  | _ => none

theorem Stage.wrote?_of_pauses {s : Spot} (h : s.pauses = true) (reply : s.Reply) :
    (Stage.due s reply).wrote? = none := by
  cases s with
  | spreading aim round claim | backingOff aim round last time => rfl
  | listing aim round | staking aim round claim | verifying aim round claim
  | withdrawing exit | refreshing claim | checking claim | restoring claim | removing => cases h

structure Ledger [DecidableEq ι] (S : Setting ι ω) where
  sound : ω → Prop
  held : ω → ι → Option Registration
  put : forall {i w} {claim : Registration} {answer w'}, sound w ->
    claim.serverId = (S.member i).id.text ->
    S.answers i w (.call (.put (S.member i).servers.name (S.member i).id.text
      (Storable.encode claim))) answer w' ->
    sound w' ∧
      ((exists previous, heardPrevious answer = .ok previous) ∧
          held w' = Function.update (held w) i (some claim.written) ∨
        (exists e, heardPrevious answer = .error e) ∧ held w' = held w)
  remove : forall {i w answer w'}, sound w ->
    S.answers i w (.call (.remove (S.member i).servers.name (S.member i).id.text)) answer w' ->
    sound w' ∧
      ((exists previous, heardPrevious answer = .ok previous) ∧
          held w' = Function.update (held w) i none ∨
        (exists e, heardPrevious answer = .error e) ∧ held w' = held w)
  list : forall {i w answer w'}, sound w ->
    S.answers i w (.call (.list (S.member i).servers.name)) answer w' ->
    sound w' ∧ held w' = held w
  now : forall {i w t w'}, sound w -> S.answers i w .now t w' -> sound w' ∧ held w' = held w
  readingPast : forall {i w previous reading w'}, sound w ->
    S.answers i w (.readingPast previous) reading w' -> sound w' ∧ held w' = held w
  note : forall {w} event, sound w -> sound (S.notes w event) ∧ held (S.notes w event) = held w
  drift : forall {w w'}, sound w -> S.drifts w w' -> sound w' ∧ held w' = held w

namespace Ledger

variable [DecidableEq ι] {S : Setting ι ω} (L : Ledger S) {i : ι} {σ σ' : Standing} {w w' : ω}
  {aim : Aim} {stage : Stage} {s : Spot}

theorem calls {answer : (s.effect (S.member i)).Answer} (hw : L.sound w)
    (hnamed : s.Named (S.member i).id.text) (hcall : s.pauses = false)
    (hanswer : S.answers i w (s.effect (S.member i)) answer w') :
    L.sound w' ∧
      ((Stage.due s (s.reply (S.member i) answer)).wrote? = none ∧ L.held w' = L.held w ∨
        exists entry, s.written? = some entry ∧
          (Stage.due s (s.reply (S.member i) answer)).wrote? = entry ∧
          L.held w' = Function.update (L.held w) i (entry.map Registration.written)) := by
  cases s with
  | listing aim round | verifying aim round claim | checking claim =>
      rcases L.list hw hanswer with ⟨hsound, hheld⟩
      exact ⟨hsound, Or.inl ⟨rfl, hheld⟩⟩
  | spreading aim round claim | backingOff aim round last time => cases hcall
  | staking aim round claim =>
      rcases L.put hw hnamed.2 hanswer with
        ⟨hsound, ⟨⟨previous, hok⟩, hheld⟩ | ⟨⟨e, herror⟩, hheld⟩⟩
      · refine ⟨hsound, Or.inr ⟨some claim, rfl, ?_, hheld⟩⟩
        simp only [Spot.reply, hok, Stage.wrote?]
      · refine ⟨hsound, Or.inl ⟨?_, hheld⟩⟩
        simp only [Spot.reply, herror, Stage.wrote?]
  | refreshing claim | restoring claim =>
      rcases L.put hw hnamed hanswer with ⟨hsound, ⟨⟨previous, hok⟩, hheld⟩ | ⟨⟨e, herror⟩, hheld⟩⟩
      · refine ⟨hsound, Or.inr ⟨some claim, rfl, ?_, hheld⟩⟩
        simp only [Spot.reply, hok, Stage.wrote?]
      · refine ⟨hsound, Or.inl ⟨?_, hheld⟩⟩
        simp only [Spot.reply, herror, Stage.wrote?]
  | withdrawing exit | removing =>
      rcases L.remove hw hanswer with ⟨hsound, ⟨_, hheld⟩ | ⟨_, hheld⟩⟩
      · exact ⟨hsound, Or.inr ⟨none, rfl, rfl, hheld⟩⟩
      · exact ⟨hsound, Or.inl ⟨rfl, hheld⟩⟩

theorem resumes {reply : s.Reply} (h : Resumes S i σ w s reply stage σ' w') (hw : L.sound w) :
    L.sound w' ∧ L.held w' = L.held w := by
  refine h.keeps (P := fun after => L.sound after ∧ L.held after = L.held w) ?_ ?_ ⟨hw, rfl⟩
  · intro before event hbefore
    have hnote := L.note event hbefore.1
    exact ⟨hnote.1, hnote.2.trans hbefore.2⟩
  · intro before t after hread hbefore
    have hnow := L.now hbefore.1 hread
    exact ⟨hnow.1, hnow.2.trans hbefore.2⟩

theorem begins {op : Operation} (h : Begins S i σ w op stage σ' w') (hw : L.sound w) :
    L.sound w' ∧ L.held w' = L.held w := by
  refine h.keeps (P := fun after => L.sound after ∧ L.held after = L.held w) ?_ ?_ ⟨hw, rfl⟩
  · intro before event hbefore
    have hnote := L.note event hbefore.1
    exact ⟨hnote.1, hnote.2.trans hbefore.2⟩
  · intro before previous reading after hread hbefore
    have hreading := L.readingPast hbefore.1 hread
    exact ⟨hreading.1, hreading.2.trans hbefore.2⟩

theorem sound_of_moves {c c' : Cluster ι ω Stage} (hproper : Proper S c) (hw : L.sound c.world)
    (h : Moves S c c') : L.sound c'.world := by
  cases h with
  | start _ _ hbegin => exact (L.begins hbegin hw).1
  | call ht htask hcall _ _ hanswer =>
      have hnamed := hproper.named _ _ _ ht (by rw [htask]; rfl)
      exact (L.calls hw hnamed hcall hanswer).1
  | wake _ _ _ _ _ => exact hw
  | turn _ _ _ hresume => exact (L.resumes hresume hw).1
  | drift _ hdrift => exact (L.drift hw hdrift).1

/-- How the entry of a member has come about in a move. -/
inductive Records (c c' : Cluster ι ω Stage) (j : ι) : Prop where
  | keep (hkept : L.held c'.world j = L.held c.world j)
  | write {n t s entry} (answer : (s.effect (S.member t.owner)).Answer) (ht : c.threads n = some t)
      (howner : t.owner = j) (htask : t.task = .waiting s)
      (ht' : c'.threads n = some ⟨t.owner, .due s (s.reply (S.member t.owner) answer), c'.world⟩)
      (hpermits : S.permits (c.enacted S) (.call n (succeeds _ answer)))
      (hkept : c'.standing = c.standing) (hwritten : s.written? = some entry)
      (hwrote : (Stage.due s (s.reply (S.member t.owner) answer)).wrote? = entry)
      (hheld : L.held c'.world j = entry.map Registration.written)

/-- The registry changes only under the id of a member that has called it. -/
theorem records_of_moves {c c' : Cluster ι ω Stage} (hproper : Proper S c) (hw : L.sound c.world)
    (hmove : Moves S c c') (j : ι) : L.Records c c' j := by
  cases hmove with
  | start _ _ hbegin => exact .keep (congrFun (L.begins hbegin hw).2 j)
  | @call n t s w ht htask hcall answer hpermits hanswer =>
      have hnamed := hproper.named n t s ht (spot?_of_waiting htask)
      rcases L.calls hw hnamed hcall hanswer with ⟨_, ⟨_, hheld⟩ | ⟨entry, hwritten, hwrote, hheld⟩⟩
      · exact .keep (congrFun hheld j)
      · by_cases hj : j = t.owner
        · subst hj
          have hentry : L.held w t.owner = entry.map Registration.written := by
            rw [hheld, Function.update_self]
          exact .write answer ht rfl htask (Function.update_self ..) hpermits
            (Cluster.standing_kept ..) hwritten hwrote hentry
        · exact .keep ((congrFun hheld j).trans (Function.update_of_ne hj ..))
  | wake _ _ _ _ _ => exact .keep rfl
  | turn _ _ _ hresume => exact .keep (congrFun (L.resumes hresume hw).2 j)
  | drift _ hdrift => exact .keep (congrFun (L.drift hw hdrift).2 j)

theorem written_of_moves {c c' : Cluster ι ω Stage} (hproper : Proper S c) (hw : L.sound c.world)
    (hmove : Moves S c c') {j : ι} {e : Registration} (he : L.held c'.world j = some e) :
    L.held c.world j = some e ∨
      exists n t s claim, exists answer : (s.effect (S.member t.owner)).Answer,
        c.threads n = some t ∧ t.owner = j ∧ t.task = .waiting s ∧
        S.permits (c.enacted S) (.call n (succeeds _ answer)) ∧ s.written? = some (some claim) ∧
        (Stage.due s (s.reply (S.member t.owner) answer)).wrote? = some claim ∧
        e = claim.written := by
  cases L.records_of_moves hproper hw hmove j with
  | keep hkept => exact Or.inl (hkept.symm.trans he)
  | @write n t s entry answer ht howner htask _ hpermits _ hwritten hwrote hheld =>
      cases entry with
      | none => cases he.symm.trans hheld
      | some claim =>
          exact Or.inr ⟨n, t, s, claim, answer, ht, howner, htask, hpermits, hwritten, hwrote,
            Option.some.inj (he.symm.trans hheld)⟩

end Ledger
end Interleaving
end Roster
