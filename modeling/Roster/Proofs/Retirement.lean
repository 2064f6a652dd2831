import Roster.Proofs.Deactivation

/-!
# What deactivated members still write

A round of claiming looks at the status before it lists the registrations, and writes its claim with
what the listing has told, without looking again.  So a member that is deactivated during the
listing writes one more claim.  Nothing else that it has under way writes anything any more, and
whatever it begins later writes nothing.
-/

namespace Roster
namespace Retirement

open Interleaving

/-!
# Threads that issue puts
-/

/-- The thread is about to list the registrations with which a round begins, or has been told
them. -/
inductive Opens (m : Member) : Task → Prop where
  | lists (expected : Phase) (next : Except Error (Option Registration) → Proc Outcome) :
      Opens m (.waiting ((m.claimRound expected).bind next))
  | told (expected : Phase) (live : List Registration)
      (next : Except Error (Option Registration) → Proc Outcome) :
      Opens m (.due ((Proc.now.bind fun claimedAt => m.stake expected
        { serverId := m.id.text, number := Numbering.lowestFree m.id.text live, claimedAt }).bind
          next))

/-- The thread has issued a put to the region that has not taken effect yet. -/
def Puts (region : String) (task : Task) : Prop :=
  exists key bytes next, task = .waiting (.ask (.call (.put region key bytes)) next)

section

variable {ι ω τ : Type}

def Has (c : Cluster ι ω τ) (i : ι) (P : τ → Prop) (n : Nat) : Prop :=
  exists t, c.threads n = some t ∧ t.owner = i ∧ P t.task

def Issues (S : Setting ι ω) (i : ι) (c c' : Cluster ι ω Task) (n : Nat) : Prop :=
  ¬ Has c i (Puts (S.member i).servers.name) n ∧ Has c' i (Puts (S.member i).servers.name) n

end

def Opening : Stage → Prop
  | .waiting (.listing _ _) => True
  | .due (.listing _ _) reply => reply.isOk = true
  | _ => False

def Putting : Stage → Prop
  | .waiting (.staking _ _ _) | .waiting (.refreshing _) | .waiting (.restoring _) => True
  | _ => False

theorem opens_of_opening {m : Member} {stage : Stage} (h : Opening stage) :
    Opens m (stage.task m) := by
  cases stage with
  | waiting s =>
      cases s with
      | listing aim round =>
          have hproc := Spot.proc_listing m aim round
          change Opens m (.waiting ((Spot.listing aim round).proc m))
          rw [← hproc]
          exact .lists aim.phase (aim.concluded m round)
      | staking _ _ _ | spreading _ _ _ | verifying _ _ _ | backingOff _ _ _ _ | withdrawing _
      | refreshing _ | checking _ | restoring _ | removing => exact h.elim
  | due s reply =>
      cases s with
      | listing aim round =>
          cases reply with
          | error e => cases h
          | ok live => exact .told aim.phase live (aim.concluded m round)
      | staking _ _ _ | spreading _ _ _ | verifying _ _ _ | backingOff _ _ _ _ | withdrawing _
      | refreshing _ | checking _ | restoring _ | removing => exact h.elim
  | finished outcome => exact h.elim

theorem opening_of_due {s : Spot} {reply : s.Reply} (h : Opening (.due s reply)) :
    Opening (.waiting s) := by
  cases s with
  | listing aim round => exact trivial
  | staking _ _ _ | spreading _ _ _ | verifying _ _ _ | backingOff _ _ _ _ | withdrawing _
  | refreshing _ | checking _ | restoring _ | removing => exact h.elim

theorem puts_iff_putting {m : Member} {stage : Stage} :
    Puts m.servers.name (stage.task m) ↔ Putting stage := by
  constructor
  · rintro ⟨key, bytes, next, htask⟩
    cases stage with
    | waiting s =>
        cases s with
        | staking _ _ _ | refreshing _ | restoring _ => exact trivial
        | listing _ _ | spreading _ _ _ | verifying _ _ _ | backingOff _ _ _ _ | withdrawing _
        | checking _ | removing => cases htask
    | due s reply | finished outcome => cases htask
  · intro h
    cases stage with
    | waiting s =>
        cases s with
        | staking _ _ _ | refreshing _ | restoring _ => exact ⟨_, _, _, rfl⟩
        | listing _ _ | spreading _ _ _ | verifying _ _ _ | backingOff _ _ _ _ | withdrawing _
        | checking _ | removing => exact h.elim
    | due s reply | finished outcome => exact h.elim

/-!
# Turns of deactivated members
-/

section

variable {ι ω : Type} {S : Setting ι ω} {i : ι} {σ σ' : Standing} {w w' : ω} {aim : Aim}
  {stage : Stage} {s : Spot}

def Abstains (stage : Stage) : Prop :=
  ¬ Opening stage ∧ ¬ Putting stage

theorem abstains_of_quits {e : Error} (h : Quits S i σ w aim e stage w')
    (hσ : σ.status = .deactivated) : Abstains stage := by
  cases h with
  | abandon | interrupt _ => exact ⟨id, id⟩
  | restore hready =>
      rw [hσ] at hready
      cases hready

theorem abstains_of_tries {attempt remaining : Nat} {last : Option RegistryError}
    (h : Tries S i σ w aim attempt last remaining stage w') (hσ : σ.status = .deactivated) :
    Abstains stage := by
  cases h with
  | list hsettle =>
      rw [hσ] at hsettle
      cases hsettle
  | barred _ hquit | exhausted hquit => exact abstains_of_quits hquit hσ

theorem abstains_of_retries {round : Round} {last : Option RegistryError}
    (h : Retries S i σ w aim round last stage w') (hσ : σ.status = .deactivated) :
    Abstains stage := by
  cases h with
  | backOff _ _ => exact ⟨id, id⟩
  | exhausted _ hquit => exact abstains_of_quits hquit hσ

theorem abstains_of_resumes {reply : s.Reply} (h : Resumes S i σ w s reply stage σ' w')
    (hσ : σ.status = .deactivated) :
    ¬ Opening stage ∧ (Putting stage -> Opening (.due s reply)) := by
  have habstains (h : Abstains stage) :
      ¬ Opening stage ∧ (Putting stage -> Opening (.due s reply)) :=
    ⟨h.1, fun hputs => absurd hputs h.2⟩
  cases h with
  | listed _ => exact ⟨id, fun _ => rfl⟩
  | listingFailed hretry | stakingFailed hretry | verifyingFailed hretry | lost _ hretry =>
      exact habstains (abstains_of_retries hretry hσ)
  | spreadBarred _ hquit | overflow _ _ hquit => exact habstains (abstains_of_quits hquit hσ)
  | upheld _ _ hwin =>
      cases hwin with
      | register _ | late _ | renumber _ | interrupt _ => exact ⟨id, fun h => h.elim⟩
  | backedOff htry | contested _ htry => exact habstains (abstains_of_tries htry hσ)
  | staked | spread _ | relinquished _ | left _ | refreshed _ | refreshedLate _
  | refreshingFailed | uncontested _ | checkingFailed | restored _ | restoredLate _
  | restoringFailed | removed | removingFailed => exact ⟨id, fun h => h.elim⟩

theorem abstains_of_begins {op : Operation} (h : Begins S i σ w op stage σ' w')
    (hσ : σ.status = .deactivated) : Abstains stage := by
  have hnone := Deactivation.finished_of_begins h hσ
  cases stage with
  | waiting s | due s reply => cases hnone
  | finished outcome => exact ⟨id, id⟩

end

/-!
# Deactivated members
-/

section

variable {ι ω : Type} [DecidableEq ι] {S : Setting ι ω} {c c' c'' : Cluster ι ω Stage} {i : ι}
  {n : Nat}

omit [DecidableEq ι] in
theorem not_opening_of_putting (hputs : Has c i Putting n) : ¬ Has c i Opening n := by
  rintro ⟨t, ht, _, hopens⟩
  rcases hputs with ⟨u, hu, _, hputs⟩
  cases ht.symm.trans hu
  cases htask : t.task with
  | waiting s =>
      rw [htask] at hputs hopens
      cases s with
      | staking _ _ _ | refreshing _ | restoring _ => exact hopens
      | listing _ _ | spreading _ _ _ | verifying _ _ _ | backingOff _ _ _ _ | withdrawing _
      | checking _ | removing => exact hputs
  | due s reply | finished outcome =>
      rw [htask] at hputs
      exact hputs

/-- What a move makes of the threads of a deactivated member: none comes to open a round, and none
issues a put but one that has opened a round. -/
structure Settles (i : ι) (c c' : Cluster ι ω Stage) : Prop where
  opening : forall n, Has c' i Opening n -> Has c i Opening n
  putting : forall n, Has c' i Putting n -> Has c i Putting n ∨ Has c i Opening n

theorem settles_of_moves (hmove : Moves S c c') (hgone : (c.standing i).status = .deactivated) :
    Settles i c c' where
  opening := by
    rintro n ⟨t, ht, rfl, hopens⟩
    cases arrives_of_moves hmove ht with
    | stay ht => exact ⟨t, ht, rfl, hopens⟩
    | start _ _ hbegin => exact absurd hopens (abstains_of_begins hbegin hgone).1
    | call hu htask _ _ _ _ _ | wake hu htask _ _ _ _ _ =>
        refine ⟨_, hu, rfl, ?_⟩
        rw [htask]
        exact opening_of_due hopens
    | turn _ _ _ hresume => exact absurd hopens (abstains_of_resumes hresume hgone).1
  putting := by
    rintro n ⟨t, ht, rfl, hputs⟩
    cases arrives_of_moves hmove ht with
    | stay ht => exact Or.inl ⟨t, ht, rfl, hputs⟩
    | start _ _ hbegin => exact absurd hputs (abstains_of_begins hbegin hgone).2
    | call _ _ _ _ _ _ _ | wake _ _ _ _ _ _ _ => exact hputs.elim
    | turn hu htask _ hresume =>
        refine Or.inr ⟨_, hu, rfl, ?_⟩
        rw [htask]
        exact (abstains_of_resumes hresume hgone).2 hputs

/-- The member is deactivated, and only some of its threads may still open a round. -/
structure Retired (S : Setting ι ω) (i : ι) (may : Nat → Prop) (c : Cluster ι ω Stage) : Prop where
  proper : Proper S c
  gone : (c.standing i).status = .deactivated
  opens : forall n, Has c i Opening n -> may n

theorem Retired.move {may : Nat → Prop} (h : Retired S i may c) (hmove : Moves S c c') :
    Retired S i may c' where
  proper := h.proper.move hmove
  gone := (h.proper.shift hmove i).deactivated h.gone
  opens := fun n hn => h.opens n ((settles_of_moves hmove h.gone).opening n hn)

theorem Retired.may_of_issues {may : Nat → Prop} (h : Retired S i may c) (hmove : Moves S c c')
    (hbefore : ¬ Has c i Putting n) (hafter : Has c' i Putting n) : may n := by
  rcases (settles_of_moves hmove h.gone).putting n hafter with hputs | hopens
  · exact absurd hputs hbefore
  · exact h.opens n hopens

omit [DecidableEq ι] in
theorem has_enacted {P : Task → Prop} :
    Has (c.enacted S) i P n ↔ Has c i (fun stage => P (stage.task (S.member i))) n := by
  constructor
  · rintro ⟨u, hu, howner, hP⟩
    rcases thread_of_enacted hu with ⟨t, ht, rfl⟩
    cases howner
    exact ⟨t, ht, rfl, hP⟩
  · rintro ⟨t, ht, rfl, hP⟩
    exact ⟨t.enacted S, threads_enacted ht, rfl, hP⟩

omit [DecidableEq ι] in
theorem puts_enacted :
    Has (c.enacted S) i (Puts (S.member i).servers.name) n ↔ Has c i Putting n := by
  rw [has_enacted]
  unfold Has
  simp only [puts_iff_putting]

/-- A thread that issues a put for a deactivated member was opening a round when the member was
deactivated, and issues no other put. -/
theorem puts_after_deactivation {w : ω} {c c' c'' : Cluster ι ω Task}
    (hrun : Runs S (.initial w) c) (hgone : (c.standing i).status = .deactivated)
    (hrun' : Runs S c c') (hstep : Step S c' c'') (hissues : Issues S i c' c'' n) :
    Has c i (Opens (S.member i)) n ∧
      forall d d', Runs S c'' d -> Step S d d' -> ¬ Issues S i d d' n := by
  rcases holds_of_runs (P := Proper S) (fun _ _ hmove h => h.move hmove) (.initial w) hrun with
    ⟨c, rfl, hproper⟩
  rcases holds_of_runs (P := Retired S i (Has c i Opening)) (fun _ _ hmove h => h.move hmove)
    ⟨hproper, hgone, fun _ h => h⟩ hrun' with ⟨c', rfl, hretired⟩
  rcases moves_of_step hstep with ⟨c'', hmove, rfl⟩
  rcases hissues with ⟨hbefore, hafter⟩
  rw [puts_enacted] at hbefore hafter
  have hafterwards := hretired.move hmove
  constructor
  · rcases hretired.may_of_issues hmove hbefore hafter with ⟨t, ht, howner, hopens⟩
    exact has_enacted.mpr ⟨t, ht, howner, opens_of_opening hopens⟩
  · intro d d' hrun'' hstep' hissues'
    rcases holds_of_runs (P := Retired S i (· ≠ n)) (fun _ _ hmove h => h.move hmove)
      ⟨hafterwards.proper, hafterwards.gone, fun k hk hkn => by
        rw [hkn] at hk
        exact not_opening_of_putting hafter hk⟩ hrun'' with ⟨d, rfl, hspent⟩
    rcases moves_of_step hstep' with ⟨d', hmove', rfl⟩
    rcases hissues' with ⟨hbefore', hafter'⟩
    rw [puts_enacted] at hbefore' hafter'
    exact hspent.may_of_issues hmove' hbefore' hafter' rfl

end

/-!
# A member that is deactivated while it lists
-/

open Deactivation (lone setting)

theorem lone_issues : exists c c' c'' : Cluster Unit Contents Task,
    Runs (setting lone) (.initial fun _ _ => none) c ∧
      (c.standing ()).status = .deactivated ∧ Runs (setting lone) c c' ∧
      Step (setting lone) c' c'' ∧ Issues (setting lone) () c' c'' 0 := by
  have hempty : Contents.Lists (fun _ _ => none) lone.servers.name [] :=
    Contents.lists_nil fun _ => rfl
  have hstart := moves_activate (S := setting lone) (c := .initial fun _ _ => none) (n := 0)
    (i := ()) rfl trivial rfl (show _ = 9 + 1 from rfl)
  let listing : Thread Unit Contents Stage :=
    ⟨(), .waiting (.listing .register ⟨1, 9⟩), fun _ _ => none⟩
  let leaving : Thread Unit Contents Stage := ⟨(), .waiting .removing, fun _ _ => none⟩
  let c₁ : Cluster Unit Contents Stage := (Cluster.initial fun _ _ => none).moved 0 listing
    { status := .registering } fun _ _ => none
  let c₂ := c₁.moved 1 leaving { status := .deactivated } fun _ _ => none
  have hdeactivate : Moves (setting lone) c₁ c₂ :=
    .start rfl trivial (.deactivate (fun h => nomatch h))
  have hself : c₂.moved 0 listing { status := .deactivated } (fun _ _ => none) = c₂ :=
    moved_eq_self rfl rfl rfl
  let told : Thread Unit Contents Stage :=
    ⟨(), .due (.listing .register ⟨1, 9⟩) (.ok []), fun _ _ => none⟩
  let c₃ := c₂.moved 0 told { status := .deactivated } fun _ _ => none
  have hcalls : (setting lone).Calls c₂ 0 () { status := .deactivated }
      (.listing .register ⟨1, 9⟩) (fun _ _ => none) (fun _ _ => none) (.ok []) fun _ _ => none :=
    ⟨trivial, hempty.answers, fun _ _ h => nomatch h⟩
  have hcall : Moves (setting lone) (c₂.moved 0 listing { status := .deactivated } fun _ _ => none)
      c₃ :=
    moves_call rfl hcalls
  rw [hself] at hcall
  let claim : Registration := ⟨lone.id.text, Numbering.lowestFree lone.id.text [], .epoch⟩
  let staking : Thread Unit Contents Stage :=
    ⟨(), .waiting (.staking .register ⟨1, 9⟩ claim), fun _ _ => none⟩
  have hturn : Moves (setting lone) c₃
      (c₂.moved 0 staking { status := .deactivated } fun _ _ => none) :=
    moves_turn trivial (.listed rfl)
  refine ⟨_, _, _, runs_of_moves (.head hstart (.single hdeactivate)), rfl,
    runs_of_moves (.single hcall), step_of_moves hturn, ?_, ?_⟩
  · rw [puts_enacted]
    rintro ⟨t, ht, _, hputs⟩
    cases ht
    exact hputs
  · exact puts_enacted.mpr ⟨_, rfl, rfl, trivial⟩

/-- The put that a deactivated member issues comes from a round that it was opening. -/
theorem lone_puts_after : exists c c' c'' : Cluster Unit Contents Task,
    Runs (setting lone) (.initial fun _ _ => none) c ∧
      (c.standing ()).status = .deactivated ∧ Runs (setting lone) c c' ∧
      Step (setting lone) c' c'' ∧ Issues (setting lone) () c' c'' 0 ∧
      Has c () (Opens lone) 0 ∧
      forall d d', Runs (setting lone) c'' d -> Step (setting lone) d d' ->
        ¬ Issues (setting lone) () d d' 0 := by
  rcases lone_issues with ⟨c, c', c'', hrun, hgone, hrun', hstep, hissues⟩
  exact ⟨c, c', c'', hrun, hgone, hrun', hstep, hissues,
    puts_after_deactivation hrun hgone hrun' hstep hissues⟩

/-- Deactivated members do issue puts. -/
theorem not_silent_after_deactivation :
    ¬ forall (m : Member) (w : Contents) (c c' c'' : Cluster Unit Contents Task) (n : Nat),
      Runs (setting m) (.initial w) c -> (c.standing ()).status = .deactivated ->
        Runs (setting m) c c' -> Step (setting m) c' c'' -> ¬ Issues (setting m) () c' c'' n := by
  intro h
  rcases lone_issues with ⟨c, c', c'', hrun, hgone, hrun', hstep, hissues⟩
  exact h lone (fun _ _ => none) c c' c'' 0 hrun hgone hrun' hstep hissues

end Retirement
end Roster
