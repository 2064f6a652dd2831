import Roster.Proofs.Interleaving.Proper
import Roster.Proofs.UniqueId

/-!
# Issued ids

A thread that has issued an id has done so in one turn, from the settled claim of its member.  The
settled claim changes only in such turns and when a number is taken over.
-/

namespace Roster

theorem Settled.issue_of_lt {settled : Settled} {reading : Int}
    (hlt : settled.issuer.previous < UniqueId.elapsedAt reading)
    (hrange : UniqueId.InRange reading) :
    (settled.issuer.issue (UniqueId.elapsedAt reading)).1.server = settled.issuer.server ∧
      (settled.issuer.issue (UniqueId.elapsedAt reading)).1.elapsed = UniqueId.elapsedAt reading ∧
      (settled.afterIssue reading).issuer.server = settled.issuer.server ∧
      (settled.afterIssue reading).issuer.previous = UniqueId.elapsedAt reading := by
  have hcount := UniqueId.elapsedAt_lt hrange
  unfold Settled.afterIssue
  rw [Issuer.issue_of_lt hlt]
  exact ⟨UniqueId.server_ofParts _ hcount, UniqueId.elapsed_ofParts _ hcount, rfl, rfl⟩

namespace Interleaving

variable {ι ω : Type}

/-- The thread has issued the id, in the world that it has left behind. -/
def Issues (c : Cluster ι ω Task) (n : Nat) (id : UniqueId) (w : ω) : Prop :=
  exists t, c.threads n = some t ∧ t.task = .finished (.issued (.ok id)) ∧ t.last = w

def IssuedIn (P : ω → Prop) (c : Cluster ι ω Stage) : Prop :=
  forall n t id, c.threads n = some t -> t.task.issued? = some id -> P t.last

/-- The member still relies on its claim, and may have issued an id for it. -/
inductive Retains (S : Setting ι ω) (i : ι) (w : ω) (before : Settled) (w' : ω) :
    Settled → Prop where
  | same : Retains S i w before w' before
  | issue {reading : Int}
      (hread : S.answers i w (.readingPast before.issuer.previous) reading w') :
      Retains S i w before w' (before.afterIssue reading)

/-- How a member has come in a move by the claim that it relies on, and by its count. -/
inductive Gains (S : Setting ι ω) (c c' : Cluster ι ω Stage) (i : ι) : Settled → Prop where
  | keep {settled} (hbefore : (c.standing i).settled = some settled) : Gains S c c' i settled
  | issue {n t before reading} (ht : c'.threads n = some t) (hlast : t.last = c'.world)
      (hid : t.task.issued? = some (before.issuer.issue (UniqueId.elapsedAt reading)).1)
      (hbefore : (c.standing i).settled = some before)
      (hread : S.answers i c.world (.readingPast before.issuer.previous) reading c'.world) :
      Gains S c c' i (before.afterIssue reading)
  | register {settled} (hstatus : (c.standing i).status = .registering)
      (hprevious : settled.issuer.previous = 0) : Gains S c c' i settled
  | renumber {settled} {old : UInt32} (hprevious : settled.issuer.previous = 0)
      (hreport : c'.world = S.reported i c.world (.renumbered old settled.claim.number)) :
      Gains S c c' i settled

section

variable {S : Setting ι ω} {i : ι} {σ σ' : Standing} {w w' : ω} {stage : Stage}
  {before settled : Settled}

theorem Retains.claim_eq (h : Retains S i w before w' settled) : settled.claim = before.claim := by
  cases h with
  | same | issue hread => rfl

theorem Retains.issuer_le (h : Retains S i w before w' settled)
    (hread : forall reading, S.answers i w (.readingPast before.issuer.previous) reading w' ->
      before.issuer.previous < UniqueId.elapsedAt reading ∧ UniqueId.InRange reading) :
    settled.issuer.server = before.issuer.server ∧
      before.issuer.previous ≤ settled.issuer.previous := by
  cases h with
  | same => exact ⟨rfl, Nat.le_refl _⟩
  | issue hreading =>
      rcases hread _ hreading with ⟨hlt, hrange⟩
      rcases Settled.issue_of_lt hlt hrange with ⟨_, _, hserver, hprevious⟩
      rw [hserver, hprevious]
      exact ⟨rfl, Nat.le_of_lt hlt⟩

theorem Resumes.settled_or {s : Spot} {reply : s.Reply} (h : Resumes S i σ w s reply stage σ' w')
    (hsettled : σ'.settled = some settled) :
    σ.settled = some settled ∨ settled.issuer.previous = 0 ∧
      (σ.status = .registering ∨
        exists old, w' = S.reported i w (.renumbered old settled.claim.number)) := by
  cases h with
  | upheld _ hof hwin =>
      have hprevious := (Settled.proper_of_ofClaim? hof rfl).2.1
      cases hwin with
      | register hstatus =>
          cases hsettled
          exact Or.inr ⟨hprevious, Or.inl hstatus⟩
      | renumber _ =>
          cases hsettled
          exact Or.inr ⟨hprevious, Or.inr ⟨_, rfl⟩⟩
      | late _ | interrupt _ => exact Or.inl hsettled
  | _ => exact Or.inl hsettled

theorem Begins.counts {op : Operation} (h : Begins S i σ w op stage σ' w')
    (hsettled : σ'.settled = some settled) :
    σ.settled = some settled ∨ exists before reading,
      stage.issued? = some (before.issuer.issue (UniqueId.elapsedAt reading)).1 ∧
        σ.settled = some before ∧
        S.answers i w (.readingPast before.issuer.previous) reading w' ∧
        settled = before.afterIssue reading := by
  cases h with
  | uniqueId hbefore hread =>
      cases hsettled
      exact Or.inr ⟨_, _, rfl, hbefore, hread, rfl⟩
  | deactivate _ | deactivateAgain _ => cases hsettled
  | activate _ _ | activateRefused _ | heartbeat _ _ | heartbeatIdle _ | uniqueIdRefused _ =>
      exact Or.inl hsettled

theorem Begins.retains {op : Operation} (h : Begins S i σ w op stage σ' w')
    (hsettled : σ'.settled = some settled) :
    exists before, σ.settled = some before ∧ Retains S i w before w' settled := by
  rcases h.counts hsettled with hbefore | ⟨before, reading, _, hbefore, hread, rfl⟩
  · exact ⟨settled, hbefore, .same⟩
  · exact ⟨before, hbefore, .issue hread⟩

theorem Begins.issues {op : Operation} (h : Begins S i σ w op stage σ' w') {id : UniqueId}
    (hid : stage.issued? = some id) :
    exists before reading, σ.settled = some before ∧
      S.answers i w (.readingPast before.issuer.previous) reading w' ∧
      id = (before.issuer.issue (UniqueId.elapsedAt reading)).1 ∧
      σ'.settled = some (before.afterIssue reading) := by
  cases h with
  | uniqueId hbefore hread =>
      cases hid
      exact ⟨_, _, hbefore, hread, rfl, rfl⟩
  | activate _ htry => cases htry.retreats.issued?_eq.symm.trans hid
  | activateRefused _ | heartbeat _ _ | heartbeatIdle _ | deactivate _ | deactivateAgain _
  | uniqueIdRefused _ => cases hid

end

section

variable [DecidableEq ι] {S : Setting ι ω} {c c' : Cluster ι ω Stage}

theorem gains_of_moves (hmove : Moves S c c') {i : ι} {settled : Settled}
    (hsettled : (c'.standing i).settled = some settled) : Gains S c c' i settled := by
  cases stands_of_moves hmove i with
  | keep hkept =>
      rw [hkept] at hsettled
      exact .keep hsettled
  | start _ ht hbegin =>
      rcases hbegin.counts hsettled with hbefore | ⟨before, reading, hid, hbefore, hread, rfl⟩
      · exact .keep hbefore
      · exact .issue ht rfl hid hbefore hread
  | turn _ _ _ _ hresume =>
      rcases hresume.settled_or hsettled with hbefore | ⟨hprevious, hstatus | ⟨old, hreport⟩⟩
      · exact .keep hbefore
      · exact .register hstatus hprevious
      · exact .renumber hprevious hreport

theorem issued_of_moves (hmove : Moves S c c') {n : Nat} {t : Thread ι ω Stage} {id : UniqueId}
    (ht : c'.threads n = some t) (hid : t.task.issued? = some id) :
    c.threads n = some t ∨
      c.threads n = none ∧ t.last = c'.world ∧
        exists before reading, (c.standing t.owner).settled = some before ∧
          S.answers t.owner c.world (.readingPast before.issuer.previous) reading c'.world ∧
          id = (before.issuer.issue (UniqueId.elapsedAt reading)).1 ∧
          (c'.standing t.owner).settled = some (before.afterIssue reading) := by
  cases arrives_of_moves hmove ht with
  | stay ht => exact Or.inl ht
  | start hfresh _ hbegin =>
      rcases hbegin.issues hid with ⟨before, reading, hbefore, hread, heq, hafter⟩
      exact Or.inr ⟨hfresh, rfl, before, reading, hbefore, hread, heq, hafter⟩
  | call _ _ _ _ _ _ _ | wake _ _ _ _ _ _ _ => cases hid
  | turn _ _ _ hresume => cases hresume.issued?_eq.symm.trans hid

theorem issued_stays (hmove : Moves S c c') {n : Nat} {t : Thread ι ω Stage} {id : UniqueId}
    (ht : c.threads n = some t) (hid : t.task.issued? = some id) : c'.threads n = some t := by
  rcases persists_of_moves hmove ht with ⟨t', ht'⟩
  cases arrives_of_moves hmove ht' with
  | stay hu =>
      cases hu.symm.trans ht
      exact ht'
  | start hfresh _ _ => cases hfresh.symm.trans ht
  | call hu htask _ _ _ _ _ | wake hu htask _ _ _ _ _ | turn hu htask _ _ =>
      cases hu.symm.trans ht
      rw [htask] at hid
      cases hid

theorem IssuedIn.of_moves {P : ω → Prop} (hmove : Moves S c c') (h : IssuedIn P c') :
    IssuedIn P c := by
  intro n t id ht hid
  exact h n t id (issued_stays hmove ht hid) hid

omit [DecidableEq ι] in
theorem issued_of_issues {n : Nat} {id : UniqueId} {w : ω} (h : Issues (c.enacted S) n id w) :
    exists t, c.threads n = some t ∧ t.task.issued? = some id ∧ t.last = w := by
  rcases h with ⟨u, hu, htask, hlast⟩
  rcases thread_of_enacted hu with ⟨t, ht, rfl⟩
  refine ⟨t, ht, ?_, hlast⟩
  cases hstage : t.task with
  | waiting s | due s reply =>
      have hstep := congrArg (Stage.task (S.member t.owner)) hstage
      cases hstep.symm.trans htask
  | finished outcome =>
      have hstep := congrArg (Stage.task (S.member t.owner)) hstage
      cases hstep.symm.trans htask
      rfl

omit [DecidableEq ι] in
theorem issues_of_issued {n : Nat} {t : Thread ι ω Stage} {id : UniqueId}
    (ht : c.threads n = some t) (hid : t.task.issued? = some id) :
    Issues (c.enacted S) n id t.last := by
  have htask : t.task = .finished (.issued (.ok id)) := by
    cases hstage : t.task with
    | waiting s | due s reply =>
        rw [hstage] at hid
        cases hid
    | finished outcome =>
        rw [hstage] at hid
        cases outcome with
        | issued result =>
            cases result with
            | error e => cases hid
            | ok id' =>
                cases hid
                rfl
        | registered result | beaten | deregistered result => cases hid
  exact ⟨t.enacted S, threads_enacted ht, congrArg (Stage.task _) htask, rfl⟩

omit [DecidableEq ι] in
theorem issuedIn_of_issues {P : ω → Prop}
    (h : forall n id w, Issues (c.enacted S) n id w -> P w) : IssuedIn P c := by
  intro n t id ht hid
  exact h n id t.last (issues_of_issued ht hid)

end

end Interleaving
end Roster
