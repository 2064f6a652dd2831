import Roster.Proofs.Completion
import Roster.Proofs.Deactivation
import Roster.Proofs.Interleaving.Pursuit
import Roster.Proofs.UniqueId

/-!
# The life of a member

Whatever the registry answers, and in whatever order operations run, the status of a member follows
its life: it registers, becomes ready, keeps or changes its number, and is deactivated for good.  It
has a settled claim exactly while it is ready, and then all agree on the number.
-/

namespace Roster

/-!
# Queries
-/

/-- Ready, settled and able to issue ids is all the same, and the number is one. -/
structure Standing.Coherent (id : String) (σ : Standing) : Prop where
  ready_iff : (exists n, σ.status = .ready n) ↔ exists settled, σ.settled = some settled
  agree : forall n settled, σ.status = .ready n -> σ.settled = some settled ->
    settled.claim.serverId = id ∧ settled.claim.number = n ∧
      settled.issuer.server.toNat = n.toNat ∧ n.toNat ≤ 65535

/-- The queries give a number and an id exactly when the member is ready, and both show its number,
whatever else goes on around them. -/
structure Standing.Answers (σ : Standing) : Prop where
  serverNumber : forall {ρ : Type} (around : (e : Effect) → ρ → e.Answer × ρ) r n,
    (Member.serverNumber.complete around σ r).1 = .ok n ↔ σ.status = .ready n
  uniqueId : forall {ρ : Type} (around : (e : Effect) → ρ → e.Answer × ρ) r,
    (exists id, (Member.uniqueId.complete around σ r).1 = .ok id) ↔ exists n, σ.status = .ready n
  agree : forall {ρ : Type} (around : (e : Effect) → ρ → e.Answer × ρ) r n id,
    (Member.serverNumber.complete around σ r).1 = .ok n ->
      (Member.uniqueId.complete around σ r).1 = .ok id -> id.server.toNat = n.toNat

namespace Standing

variable {id : String} {σ : Standing}

theorem Proper.coherent (h : σ.Proper id) : σ.Coherent id where
  ready_iff := by
    constructor
    · rintro ⟨n, hn⟩
      exact Option.ne_none_iff_exists'.mp (h.settled_of_ready (by rw [hn]; rfl))
    · rintro ⟨settled, hsettled⟩
      exact ⟨_, (h.of_settled settled hsettled).1⟩
  agree := by
    intro n settled hn hsettled
    rcases h.of_settled settled hsettled with ⟨hready, hproper⟩
    cases hn.symm.trans hready
    have hlt := settled.issuer.server.toNat_lt
    have hserver := hproper.server_eq
    exact ⟨hproper.serverId_eq, rfl, hserver, by omega⟩

section

variable {ρ : Type} {around : (e : Effect) → ρ → e.Answer × ρ} {r : ρ}

theorem serverNumber_eq (n : UInt32) :
    (Member.serverNumber.complete around σ r).1 = .ok n ↔ σ.status = .ready n := by
  rcases σ with ⟨status, settled⟩
  cases status with
  | ready m =>
      change (Except.ok m : Except Error UInt32) = .ok n ↔ Status.ready m = .ready n
      rw [Except.ok.injEq, Status.ready.injEq]
  | inactive | registering | deactivated =>
      exact ⟨fun h => (nomatch h), fun h => nomatch h⟩

theorem uniqueId_eq : (Member.uniqueId.complete around σ r).1 =
    match σ.settled with
    | none => .error .notReady
    | some settled =>
        .ok (settled.issuer.issue (UniqueId.elapsedAt
          (around (.readingPast settled.issuer.previous) r).1)).1 := by
  rcases σ with ⟨status, settled⟩
  cases settled with
  | none => rfl
  | some settled => rfl

end

theorem Proper.answers (h : σ.Proper id) : σ.Answers where
  serverNumber := fun _ _ n => serverNumber_eq n
  uniqueId := by
    intro ρ around r
    rw [h.coherent.ready_iff, uniqueId_eq]
    constructor
    · rintro ⟨id, hid⟩
      cases hsettled : σ.settled with
      | none =>
          rw [hsettled] at hid
          cases hid
      | some settled => exact ⟨settled, rfl⟩
    · rintro ⟨settled, hsettled⟩
      rw [hsettled]
      exact ⟨_, rfl⟩
  agree := by
    intro ρ around r n id hn hid
    have hready := (serverNumber_eq n).mp hn
    rw [uniqueId_eq] at hid
    cases hsettled : σ.settled with
    | none =>
        rw [hsettled] at hid
        cases hid
    | some settled =>
        rw [hsettled] at hid
        cases hid
        rw [Issuer.server_issue]
        exact (h.coherent.agree n settled hready hsettled).2.2.1

theorem Proper.refuses (h : σ.Proper id) (hstatus : σ.status = .inactive ∨ σ.status = .deactivated)
    {ρ : Type} (around : (e : Effect) → ρ → e.Answer × ρ) (r : ρ) :
    (Member.serverNumber.complete around σ r).1 = .error .notReady ∧
      (Member.uniqueId.complete around σ r).1 = .error .notReady := by
  rcases σ with ⟨status, settled⟩
  cases settled with
  | some settled =>
      have hready := (h.of_settled settled rfl).1
      rcases hstatus with hstatus | hstatus <;> cases hstatus.symm.trans hready
  | none => rcases hstatus with rfl | rfl <;> exact ⟨rfl, rfl⟩

end Standing

/-!
# Statuses
-/

inductive Status.Follows : Status → Status → Prop where
  | stay (status : Status) : Follows status status
  | register : Follows .inactive .registering
  | settle (n : UInt32) : Follows .registering (.ready n)
  | relinquish : Follows .registering .inactive
  | renumber (n n' : UInt32) : Follows (.ready n) (.ready n')
  | deactivate (status : Status) : Follows status .deactivated

theorem Standing.Shift.follows {id : String} {σ σ' : Standing} (h : Shift id σ σ') :
    σ.status.Follows σ'.status := by
  cases h with
  | stay | issue _ _ => exact .stay _
  | register hstatus =>
      rw [hstatus]
      exact .register
  | relinquish hstatus =>
      rw [hstatus]
      exact .relinquish
  | settle hstatus hsettled =>
      cases hbefore : σ.status with
      | registering => exact .settle _
      | ready n => exact .renumber _ _
      | inactive | deactivated =>
          rw [hbefore] at hstatus
          cases hstatus
  | deactivate => exact .deactivate _

namespace Interleaving

/-!
# One registration at a time
-/

variable {ι ω : Type} {S : Setting ι ω}

/-- At most one thread of a member registers it, and until it ends the member is registering or has
been deactivated. -/
structure Sole (S : Setting ι ω) (c : Cluster ι ω Stage) : Prop where
  proper : Proper S c
  status : forall n t s, c.threads n = some t -> t.task.spot? = some s -> s.Registers ->
    (c.standing t.owner).status = .registering ∨ (c.standing t.owner).status = .deactivated
  sole : forall n k t u s s', c.threads n = some t -> c.threads k = some u -> t.owner = u.owner ->
    t.task.spot? = some s -> s.Registers -> u.task.spot? = some s' -> s'.Registers -> n = k

section

variable {i : ι} {σ σ' : Standing} {w w' : ω} {stage : Stage} {s s' : Spot}

theorem Begins.registering {op : Operation} (h : Begins S i σ w op stage σ' w')
    (hs : stage.spot? = some s) (hregisters : s.Registers) :
    σ.status = .inactive ∧ σ'.status = .registering := by
  have hop := h.operation_eq hs
  rw [Spot.registers_iff.mp hregisters] at hop
  subst hop
  cases h with
  | activate hstatus htry => exact ⟨hstatus, rfl⟩
  | activateRefused _ => cases hs

theorem Begins.undisturbed {op : Operation} (h : Begins S i σ w op stage σ' w')
    (hσ : σ.status = .registering ∨ σ.status = .deactivated) :
    σ'.status = .registering ∨ σ'.status = .deactivated := by
  cases h with
  | activate hstatus htry => exact Or.inl rfl
  | deactivate _ | deactivateAgain _ => exact Or.inr rfl
  | activateRefused _ | heartbeat _ _ | heartbeatIdle _ | uniqueId _ _ | uniqueIdRefused _ =>
      exact hσ

theorem Resumes.standing_eq {reply : s.Reply} (h : Resumes S i σ w s reply stage σ' w')
    (hs' : stage.spot? = some s') : σ' = σ := by
  cases h with
  | upheld _ _ hwin =>
      cases hwin with
      | register _ | renumber _ => cases hs'
      | late _ | interrupt _ => rfl
  | relinquished _ => cases hs'
  | _ => rfl

end

theorem Sole.initial (w : ω) : Sole S (.initial w) where
  proper := .initial w
  status := fun _ _ _ h => (nomatch h)
  sole := fun _ _ _ _ _ _ h => (nomatch h)

section

variable [DecidableEq ι] {c c' : Cluster ι ω Stage}

theorem Sole.moved (h : Sole S c) {n : Nat} {i : ι} {stage : Stage} {last w : ω} {σ : Standing}
    (hproper : Proper S (c.moved n ⟨i, stage, last⟩ σ w))
    (hnew : forall s, stage.spot? = some s -> s.Registers ->
      (σ.status = .registering ∨ σ.status = .deactivated) ∧
        forall k u s', k ≠ n -> c.threads k = some u -> u.owner = i -> u.task.spot? = some s' ->
          ¬ s'.Registers)
    (hold : forall k u s', k ≠ n -> c.threads k = some u -> u.owner = i ->
      u.task.spot? = some s' -> s'.Registers ->
        σ.status = .registering ∨ σ.status = .deactivated) :
    Sole S (c.moved n ⟨i, stage, last⟩ σ w) where
  proper := hproper
  status := by
    intro k t s ht hs hregisters
    rcases c.standing_moved (n := n) (t := ⟨i, stage, last⟩) (σ := σ) (w := w) t.owner with
      ⟨howner, heq⟩ | ⟨hne, heq⟩
    · rw [heq]
      rcases Cluster.thread_moved ht with ⟨rfl, rfl⟩ | ⟨hk, ht⟩
      · exact (hnew s hs hregisters).1
      · exact hold k t s hk ht howner hs hregisters
    · rw [heq]
      rcases Cluster.thread_moved ht with ⟨rfl, rfl⟩ | ⟨hk, ht⟩
      · exact absurd rfl hne
      · exact h.status k t s ht hs hregisters
  sole := by
    intro k k' t u s s' ht hu howner hs hregisters hs' hregisters'
    rcases Cluster.thread_moved ht with ⟨hk, rfl⟩ | ⟨hk, hbefore⟩
    · rcases Cluster.thread_moved hu with ⟨hk', _⟩ | ⟨hk', hbefore'⟩
      · exact hk.trans hk'.symm
      · exact absurd hregisters' ((hnew s hs hregisters).2 k' u s' hk' hbefore' howner.symm hs')
    · rcases Cluster.thread_moved hu with ⟨hk', rfl⟩ | ⟨hk', hbefore'⟩
      · exact absurd hregisters ((hnew s' hs' hregisters').2 k t s hk hbefore howner hs)
      · exact h.sole k k' t u s s' hbefore hbefore' howner hs hregisters hs' hregisters'

theorem Sole.replied (h : Sole S c) {n : Nat} {t : Thread ι ω Stage} {s : Spot} {reply : s.Reply}
    {last w : ω} (ht : c.threads n = some t) (htask : t.task = .waiting s) :
    Sole S (c.moved n ⟨t.owner, .due s reply, last⟩ (c.standing t.owner) w) := by
  have hspot := spot?_of_waiting htask
  refine h.moved (h.proper.replied ht htask) ?_ ?_
  · intro s' hs' hregisters
    have hs := hspot.trans hs'
    constructor
    · exact h.status n t s' ht hs hregisters
    · intro k u s'' hk hu howner hs'' hregisters''
      exact hk (h.sole k n u t s'' s' hu ht howner hs'' hregisters'' hs hregisters)
  · intro k u s' hk hu howner hs' hregisters
    rw [← howner]
    exact h.status k u s' hu hs' hregisters

theorem Sole.move (h : Sole S c) (hmove : Moves S c c') : Sole S c' := by
  have hproper := h.proper.move hmove
  cases hmove with
  | start hfresh hpermits hbegin =>
      refine h.moved hproper ?_ ?_
      · intro s hs hregisters
        rcases hbegin.registering hs hregisters with ⟨hbefore, hafter⟩
        refine ⟨Or.inl hafter, fun k u s' _ hu howner hs' hregisters' => ?_⟩
        have hstatus := h.status k u s' hu hs' hregisters'
        rw [howner, hbefore] at hstatus
        rcases hstatus with hstatus | hstatus <;> cases hstatus
      · intro k u s' _ hu howner hs' hregisters'
        have hstatus := h.status k u s' hu hs' hregisters'
        rw [howner] at hstatus
        exact hbegin.undisturbed hstatus
  | call ht htask hcall answer hpermits hanswer => exact h.replied ht htask
  | wake ht htask hpermits hpause reply => exact h.replied ht htask
  | @turn n t s reply stage σ w ht htask hpermits hresume =>
      have hspot := spot?_of_due htask
      refine h.moved hproper ?_ ?_
      · intro s' hs' hregisters'
        have hregisters : s.Registers := by
          rw [Spot.registers_iff, ← hresume.operation_eq hs']
          exact Spot.registers_iff.mp hregisters'
        rw [hresume.standing_eq hs']
        refine ⟨h.status n t s ht hspot hregisters, fun k u s'' hk hu howner hs'' hregisters'' =>
          ?_⟩
        exact hk (h.sole k n u t s'' s hu ht howner hs'' hregisters'' hspot hregisters)
      · intro k u s' hk hu howner hs' hregisters'
        have hstatus := h.status k u s' hu hs' hregisters'
        rw [howner] at hstatus
        rcases hstatus with hregistering | hgone
        · -- a registering member has only one thread with anything to do
          exact absurd (h.proper.alone hregistering ht hspot hu howner hs') hk
        · exact Or.inr ((hresume.shift (h.proper.named n t s ht hspot)).deactivated hgone)
  | drift hpermits hdrift => exact ⟨hproper, h.status, h.sole⟩

/-!
# Along every run
-/

/-- In every cluster that a run leads to, each member is ready exactly when it is settled, its
status only goes where it may, and at most one of its activations is under way. -/
theorem members_coherent {w : ω} {c : Cluster ι ω Task} (hrun : Runs S (.initial w) c) :
    (forall i, (c.standing i).Coherent (S.member i).id.text ∧ (c.standing i).Answers) ∧
    (forall c' i, Step S c c' -> (c.standing i).status.Follows (c'.standing i).status) ∧
    forall n k t u, c.threads n = some t -> c.threads k = some u -> t.owner = u.owner ->
      t.task.Pursues .activate -> u.task.Pursues .activate -> n = k := by
  rcases holds_of_runs (P := Sole S) (fun _ _ hmove h => h.move hmove) (.initial w) hrun with
    ⟨c, rfl, h⟩
  constructor
  · intro i
    exact ⟨(h.proper.standing i).coherent, (h.proper.standing i).answers⟩
  · constructor
    · intro d i hstep
      rcases moves_of_step hstep with ⟨c', hmove, rfl⟩
      exact (h.proper.shift hmove i).follows
    · intro n k t u ht hu howner hpursues hpursues'
      rcases thread_of_enacted ht with ⟨t, hthread, rfl⟩
      rcases thread_of_enacted hu with ⟨u, hthread', rfl⟩
      rcases pursues_task.mp hpursues with ⟨s, hs, hop⟩
      rcases pursues_task.mp hpursues' with ⟨s', hs', hop'⟩
      exact h.sole n k t u s s' hthread hthread' howner hs (Spot.registers_iff.mpr hop) hs'
        (Spot.registers_iff.mpr hop')

end

/-- A member on its own is ready with the lowest number, for which it has a claim. -/
theorem lone_coherent : exists (c : Cluster Unit Contents Task) (settled : Settled),
    Runs (Deactivation.setting Deactivation.lone) (.initial fun _ _ => none) c ∧
      (c.standing ()).status = .ready 0 ∧ (c.standing ()).settled = some settled ∧
      settled.claim.serverId = Deactivation.lone.id.text ∧ settled.claim.number = 0 ∧
      settled.issuer.server.toNat = 0 := by
  rcases Deactivation.lone_registers (w := fun _ _ => none) fun _ => rfl with
    ⟨outcome, settled, last, w, hregistered, _⟩
  have hrun := runs_of_moves hregistered
  rcases (members_coherent hrun).1 () with ⟨hcoherent, _⟩
  rcases hcoherent.agree 0 settled rfl rfl with ⟨hserverId, hnumber, hserver, _⟩
  exact ⟨_, settled, hrun, rfl, rfl, hserverId, hnumber, hserver⟩

end Interleaving
end Roster
