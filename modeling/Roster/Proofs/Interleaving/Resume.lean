import Roster.Proofs.Interleaving.Spot

/-!
# Turns between spots

A turn leads from a reply at one spot to the next spot, or to the end of its operation.  The
relations below say which turns there are: how a settling is given up, how its next round is begun,
how a settled number is taken over, and from these what each reply leads to.
-/

namespace Roster

def Settled.afterIssue (settled : Settled) (reading : Int) : Settled :=
  { settled with issuer := (settled.issuer.issue (UniqueId.elapsedAt reading)).2 }

namespace Interleaving

variable {ι ω : Type}

def Setting.reported (S : Setting ι ω) (i : ι) (w : ω) (event : MemberEvent) : ω :=
  S.notes w (.member (S.member i).id event)

/-!
# Parts of turns
-/

inductive Quits (S : Setting ι ω) (i : ι) (σ : Standing) (w : ω) :
    Aim → Error → Stage → ω → Prop where
  | abandon {e} :
      Quits S i σ w .register e (.waiting (.withdrawing (.abandoning e)))
        (S.reported i w (.registrationFailed e))
  | restore {old e} (hready : σ.status.isReady = true) :
      Quits S i σ w (.renumber old) e (.waiting (.restoring old))
        (S.reported i w (.renumberingFailed e old.number))
  | interrupt {old e} (hready : σ.status.isReady = false) :
      Quits S i σ w (.renumber old) e (.waiting (.withdrawing .quiet))
        (S.reported i w (.renumberingInterrupted e))

/-- A round is begun, or a settling is given up. -/
inductive Tries (S : Setting ι ω) (i : ι) (σ : Standing) (w : ω) (aim : Aim) (attempt : Nat)
    (last : Option RegistryError) : Nat → Stage → ω → Prop where
  | list {remaining} (hsettle : σ.status.maySettle = true) :
      Tries S i σ w aim attempt last (remaining + 1)
        (.waiting (.listing aim ⟨attempt, remaining⟩)) w
  | barred {remaining stage w'} (hsettle : σ.status.maySettle = false)
      (hquit : Quits S i σ w aim (.invalidState aim.phase σ.status.phase) stage w') :
      Tries S i σ w aim attempt last (remaining + 1) stage w'
  | exhausted {stage w'} (hquit : Quits S i σ w aim ((S.member i).exhausted last) stage w') :
      Tries S i σ w aim attempt last 0 stage w'

inductive Retries (S : Setting ι ω) (i : ι) (σ : Standing) (w : ω) (aim : Aim) (round : Round)
    (last : Option RegistryError) : Stage → ω → Prop where
  | backOff (hremaining : round.remaining ≠ 0) (words : List UInt64) :
      Retries S i σ w aim round last (.waiting (.backingOff aim round last
        ((S.member i).backOffTime round.attempt words))) w
  | exhausted {stage w'} (hremaining : round.remaining = 0)
      (hquit : Quits S i σ w aim ((S.member i).exhausted last) stage w') :
      Retries S i σ w aim round last stage w'

/-- A settled number is taken over, or comes too late. -/
inductive Wins (S : Setting ι ω) (i : ι) (σ : Standing) (w : ω) (settled : Settled) :
    Aim → Stage → Standing → ω → Prop where
  | register (hstatus : σ.status = .registering) :
      Wins S i σ w settled .register (.finished (.registered (.ok settled.claim.number)))
        { status := .ready settled.claim.number, settled := some settled }
        (S.reported i w (.registered settled.claim.number))
  | late (hstatus : σ.status ≠ .registering) :
      Wins S i σ w settled .register (.waiting (.withdrawing (.late σ.status.phase))) σ w
  | renumber {old} (hready : σ.status.isReady = true) :
      Wins S i σ w settled (.renumber old) (.finished .beaten)
        { status := .ready settled.claim.number, settled := some settled }
        (S.reported i w (.renumbered old.number settled.claim.number))
  | interrupt {old} (hready : σ.status.isReady = false) :
      Wins S i σ w settled (.renumber old) (.waiting (.withdrawing .quiet)) σ w

/-!
# Turns that begin with a reply
-/

def Exit.outcome : Exit → Outcome
  | abandoning e => .registered (.error e)
  | late found => .registered (.error (.invalidState .registering found))
  | quiet => .beaten

def Setting.withdrawn (S : Setting ι ω) (i : ι) (w : ω) :
    Except RegistryError (Option Registration) → ω
  | .error e => S.reported i w (.withdrawalFailed e)
  | .ok _ => w

def Setting.refreshed (S : Setting ι ω) (i : ι) (w : ω) (claim : Registration)
    (previous : Option Registration) : ω :=
  S.reported i w (if previous.isSome then .refreshed claim.number else .reappeared claim.number)

inductive Resumes (S : Setting ι ω) (i : ι) (σ : Standing) (w : ω) :
    (s : Spot) → s.Reply → Stage → Standing → ω → Prop where
  | listed {aim round live t w'} (hread : S.answers i w .now t w') :
      Resumes S i σ w (.listing aim round) (.ok live)
        (.waiting (.staking aim round
          ⟨(S.member i).id.text, Numbering.lowestFree (S.member i).id.text live, t⟩)) σ w'
  | listingFailed {aim round e stage w'}
      (hretry : Retries S i σ (S.reported i w (.settlingFailed round.attempt e)) aim round (some e)
        stage w') :
      Resumes S i σ w (.listing aim round) (.error e) stage σ w'
  | staked {aim round claim previous} :
      Resumes S i σ w (.staking aim round claim) (.ok previous)
        (.waiting (.spreading aim round claim)) σ w
  | stakingFailed {aim round claim e stage w'}
      (hretry : Retries S i σ (S.reported i w (.settlingFailed round.attempt e)) aim round (some e)
        stage w') :
      Resumes S i σ w (.staking aim round claim) (.error e) stage σ w'
  | spread {aim round claim} (hsettle : σ.status.maySettle = true) :
      Resumes S i σ w (.spreading aim round claim) () (.waiting (.verifying aim round claim)) σ w
  | spreadBarred {aim round claim stage w'} (hsettle : σ.status.maySettle = false)
      (hquit : Quits S i σ w aim (.invalidState aim.phase σ.status.phase) stage w') :
      Resumes S i σ w (.spreading aim round claim) () stage σ w'
  | upheld {aim round claim live settled stage σ' w'}
      (hverdict : Numbering.verdict claim live ≠ .lost)
      (hsettled : Settled.ofClaim? claim = some settled)
      (hwin : Wins S i σ w settled aim stage σ' w') :
      Resumes S i σ w (.verifying aim round claim) (.ok live) stage σ' w'
  | overflow {aim round claim live stage w'}
      (hverdict : Numbering.verdict claim live ≠ .lost) (hsettled : Settled.ofClaim? claim = none)
      (hquit : Quits S i σ w aim (.numberOverflow claim.number) stage w') :
      Resumes S i σ w (.verifying aim round claim) (.ok live) stage σ w'
  | lost {aim round claim live stage w'} (hverdict : Numbering.verdict claim live = .lost)
      (hretry : Retries S i σ (S.reported i w (.claimLost round.attempt)) aim round none stage w') :
      Resumes S i σ w (.verifying aim round claim) (.ok live) stage σ w'
  | verifyingFailed {aim round claim e stage w'}
      (hretry : Retries S i σ (S.reported i w (.settlingFailed round.attempt e)) aim round (some e)
        stage w') :
      Resumes S i σ w (.verifying aim round claim) (.error e) stage σ w'
  | backedOff {aim round last time stage w'}
      (htry : Tries S i σ w aim (round.attempt + 1) last round.remaining stage w') :
      Resumes S i σ w (.backingOff aim round last time) () stage σ w'
  | relinquished {e reply} (hstatus : σ.status = .registering) :
      Resumes S i σ w (.withdrawing (.abandoning e)) reply
        (.finished (.registered (.error e))) { σ with status := .inactive } (S.withdrawn i w reply)
  | left {exit reply} (hstatus : σ.status = .registering -> forall e, exit ≠ .abandoning e) :
      Resumes S i σ w (.withdrawing exit) reply (.finished exit.outcome) σ (S.withdrawn i w reply)
  | refreshed {claim previous} (hready : σ.status.isReady = true) :
      Resumes S i σ w (.refreshing claim) (.ok previous) (.waiting (.checking claim)) σ
        (S.refreshed i w claim previous)
  | refreshedLate {claim previous} (hready : σ.status.isReady = false) :
      Resumes S i σ w (.refreshing claim) (.ok previous) (.waiting (.withdrawing .quiet)) σ
        (S.refreshed i w claim previous)
  | refreshingFailed {claim e} :
      Resumes S i σ w (.refreshing claim) (.error e) (.finished .beaten) σ
        (S.reported i w (.heartbeatFailed e))
  | uncontested {claim live} (hverdict : Numbering.verdict claim live ≠ .lost) :
      Resumes S i σ w (.checking claim) (.ok live) (.finished .beaten) σ w
  | contested {claim live stage w'} (hverdict : Numbering.verdict claim live = .lost)
      (htry : Tries S i σ (S.reported i w (.collision claim.number)) (.renumber claim) 1 none
        (S.member i).config.settleAttempts.toNat stage w') :
      Resumes S i σ w (.checking claim) (.ok live) stage σ w'
  | checkingFailed {claim e} :
      Resumes S i σ w (.checking claim) (.error e) (.finished .beaten) σ
        (S.reported i w (.collisionCheckFailed e))
  | restored {claim previous} (hready : σ.status.isReady = true) :
      Resumes S i σ w (.restoring claim) (.ok previous) (.finished .beaten) σ w
  | restoredLate {claim previous} (hready : σ.status.isReady = false) :
      Resumes S i σ w (.restoring claim) (.ok previous) (.waiting (.withdrawing .quiet)) σ w
  | restoringFailed {claim e} :
      Resumes S i σ w (.restoring claim) (.error e) (.finished .beaten) σ
        (S.reported i w (.restoringFailed e))
  | removed {previous} :
      Resumes S i σ w .removing (.ok previous) (.finished (.deregistered (.ok ()))) σ
        (S.reported i w .deregistered)
  | removingFailed {e} :
      Resumes S i σ w .removing (.error e) (.finished (.deregistered (.error (.registry e)))) σ w

inductive Begins (S : Setting ι ω) (i : ι) (σ : Standing) (w : ω) :
    Operation → Stage → Standing → ω → Prop where
  | activate {stage w'} (hstatus : σ.status = .inactive)
      (htry : Tries S i { σ with status := .registering } (S.reported i w .registering) .register 1
        none (S.member i).config.settleAttempts.toNat stage w') :
      Begins S i σ w .activate stage { σ with status := .registering } w'
  | activateRefused (hstatus : σ.status ≠ .inactive) :
      Begins S i σ w .activate
        (.finished (.registered (.error (.invalidState .inactive σ.status.phase)))) σ w
  | heartbeat {settled} (hready : σ.status.isReady = true) (hsettled : σ.settled = some settled) :
      Begins S i σ w .heartbeat (.waiting (.refreshing settled.claim)) σ w
  | heartbeatIdle (hidle : σ.status.isReady = true -> σ.settled = none) :
      Begins S i σ w .heartbeat (.finished .beaten) σ w
  | deactivate (hstatus : σ.status ≠ .deactivated) :
      Begins S i σ w .deactivate (.waiting .removing) { status := .deactivated, settled := none } w
  | deactivateAgain (hstatus : σ.status = .deactivated) :
      Begins S i σ w .deactivate (.finished (.deregistered (.ok ())))
        { status := .deactivated, settled := none } w
  | uniqueId {settled reading w'} (hsettled : σ.settled = some settled)
      (hread : S.answers i w (.readingPast settled.issuer.previous) reading w') :
      Begins S i σ w .uniqueId
        (.finished (.issued (.ok (settled.issuer.issue (UniqueId.elapsedAt reading)).1)))
        { σ with settled := some (settled.afterIssue reading) } w'
  | uniqueIdRefused (hsettled : σ.settled = none) :
      Begins S i σ w .uniqueId (.finished (.issued (.error .notReady))) σ w

/-!
# Turns end at spots

A turn is taken apart one effect at a time.  Whether a settling is given up, tried again or won,
the parts of the operations take one of the turns above.
-/

section

variable {S : Setting ι ω} {i : ι} {σ σ' : Standing} {w w' : ω} {task : Task}

theorem turn_done {outcome : Outcome} (h : Turn S i (.done outcome) σ w task σ' w') :
    task = .finished outcome ∧ σ' = σ ∧ w' = w := by
  cases h with
  | finish => exact ⟨rfl, rfl, rfl⟩

theorem turn_look {next : Standing → Proc Outcome}
    (h : Turn S i (.ask .look next) σ w task σ' w') : Turn S i (next σ) σ w task σ' w' := by
  cases h with
  | look h => exact h

theorem turn_store {standing : Standing} {next : Unit → Proc Outcome}
    (h : Turn S i (.ask (.store standing) next) σ w task σ' w') :
    Turn S i (next ()) standing w task σ' w' := by
  cases h with
  | store h => exact h

theorem turn_report {event : Event} {next : Unit → Proc Outcome}
    (h : Turn S i (.ask (.report event) next) σ w task σ' w') :
    Turn S i (next ()) σ (S.notes w event) task σ' w' := by
  cases h with
  | report h => exact h

theorem turn_now {next : Instant → Proc Outcome} (h : Turn S i (.ask .now next) σ w task σ' w') :
    exists t w₁, S.answers i w .now t w₁ ∧ Turn S i (next t) σ w₁ task σ' w' := by
  cases h with
  | now hread h => exact ⟨_, _, hread, h⟩

theorem turn_readingPast {previous : Nat} {next : Int → Proc Outcome}
    (h : Turn S i (.ask (.readingPast previous) next) σ w task σ' w') :
    exists reading w₁, S.answers i w (.readingPast previous) reading w₁ ∧
      Turn S i (next reading) σ w₁ task σ' w' := by
  cases h with
  | readingPast hread h => exact ⟨_, _, hread, h⟩

theorem turn_entropy {next : List UInt64 → Proc Outcome}
    (h : Turn S i (.ask .entropy next) σ w task σ' w') :
    exists words, Turn S i (next words) σ w task σ' w' := by
  cases h with
  | entropy h => exact ⟨_, h⟩

theorem turn_proc {s : Spot} (h : Turn S i (s.proc (S.member i)) σ w task σ' w') :
    task = (Stage.waiting s).task (S.member i) ∧ σ' = σ ∧ w' = w := by
  cases s with
  | listing aim round | staking aim round claim | verifying aim round claim | withdrawing exit
  | refreshing claim | checking claim | restoring claim | removing =>
      cases h with
      | call => exact ⟨rfl, rfl, rfl⟩
  | spreading aim round claim | backingOff aim round last time =>
      cases h with
      | pause => exact ⟨rfl, rfl, rfl⟩

theorem turn_finish_error {aim : Aim} {e : Error}
    (h : Turn S i (aim.finish (S.member i) (.error e)) σ w task σ' w') :
    exists stage, task = stage.task (S.member i) ∧ Quits S i σ w aim e stage w' ∧ σ' = σ := by
  cases aim with
  | register =>
      rw [Aim.finish_register_error] at h
      rcases turn_proc (turn_report h) with ⟨rfl, rfl, rfl⟩
      exact ⟨_, rfl, .abandon, rfl⟩
  | renumber old =>
      rw [Aim.finish_renumber_error] at h
      have hlook := turn_look h
      cases hready : σ.status.isReady with
      | true =>
          rw [if_pos hready] at hlook
          rcases turn_proc (turn_report hlook) with ⟨rfl, rfl, rfl⟩
          exact ⟨_, rfl, .restore hready, rfl⟩
      | false =>
          rw [if_neg (by simp [hready])] at hlook
          rcases turn_proc (turn_report hlook) with ⟨rfl, rfl, rfl⟩
          exact ⟨_, rfl, .interrupt hready, rfl⟩

theorem turn_finish_ok {aim : Aim} {settled : Settled}
    (h : Turn S i (aim.finish (S.member i) (.ok settled)) σ w task σ' w') :
    exists stage, task = stage.task (S.member i) ∧ Wins S i σ w settled aim stage σ' w' := by
  cases aim with
  | register =>
      rw [Aim.finish_register_ok] at h
      have hlook := turn_look h
      by_cases hstatus : σ.status = .registering
      · rw [if_pos hstatus] at hlook
        rcases turn_done (turn_report (turn_store hlook)) with ⟨rfl, rfl, rfl⟩
        exact ⟨.finished _, rfl, .register hstatus⟩
      · rw [if_neg hstatus] at hlook
        rcases turn_proc hlook with ⟨rfl, rfl, rfl⟩
        exact ⟨_, rfl, .late hstatus⟩
  | renumber old =>
      rw [Aim.finish_renumber_ok] at h
      have hlook := turn_look h
      cases hready : σ.status.isReady with
      | true =>
          rw [if_pos hready] at hlook
          rcases turn_done (turn_report (turn_store hlook)) with ⟨rfl, rfl, rfl⟩
          exact ⟨.finished _, rfl, .renumber hready⟩
      | false =>
          rw [if_neg (by simp [hready])] at hlook
          rcases turn_proc hlook with ⟨rfl, rfl, rfl⟩
          exact ⟨_, rfl, .interrupt hready⟩

theorem turn_rounds {aim : Aim} {attempt : Nat} {last : Option RegistryError} {remaining : Nat}
    (h : Turn S i (aim.rounds (S.member i) attempt last remaining) σ w task σ' w') :
    exists stage, task = stage.task (S.member i) ∧
      Tries S i σ w aim attempt last remaining stage w' ∧ σ' = σ := by
  cases remaining with
  | zero =>
      rw [Aim.rounds_zero] at h
      rcases turn_finish_error h with ⟨stage, htask, hquit, hσ⟩
      exact ⟨stage, htask, .exhausted hquit, hσ⟩
  | succ remaining =>
      rw [Aim.rounds_succ] at h
      have hlook := turn_look h
      cases hsettle : σ.status.maySettle with
      | true =>
          rw [if_pos hsettle] at hlook
          rcases turn_proc hlook with ⟨rfl, rfl, rfl⟩
          exact ⟨_, rfl, .list hsettle, rfl⟩
      | false =>
          rw [if_neg (by simp [hsettle])] at hlook
          rcases turn_finish_error hlook with ⟨stage, htask, hquit, hσ⟩
          exact ⟨stage, htask, .barred hsettle hquit, hσ⟩

theorem turn_retry {aim : Aim} {round : Round} {last : Option RegistryError}
    (h : Turn S i (aim.retry (S.member i) round last) σ w task σ' w') :
    exists stage, task = stage.task (S.member i) ∧
      Retries S i σ w aim round last stage w' ∧ σ' = σ := by
  unfold Aim.retry at h
  by_cases hremaining : round.remaining = 0
  · rw [if_neg (by simpa using hremaining), hremaining] at h
    rcases turn_finish_error h with ⟨stage, htask, hquit, hσ⟩
    exact ⟨stage, htask, .exhausted hremaining hquit, hσ⟩
  · rw [if_pos hremaining, Aim.backOff_bind] at h
    rcases turn_entropy h with ⟨words, hpause⟩
    have hspot : Turn S i ((Spot.backingOff aim round last
        ((S.member i).backOffTime round.attempt words)).proc (S.member i)) σ w task σ' w' :=
      hpause
    rcases turn_proc hspot with ⟨rfl, rfl, rfl⟩
    exact ⟨_, rfl, .backOff hremaining words, rfl⟩

theorem turn_leave {exit : Exit} (h : Turn S i exit.leave σ w task σ' w') :
    w' = w ∧
      ((exists e, exit = .abandoning e ∧ σ.status = .registering ∧
          task = .finished (.registered (.error e)) ∧ σ' = { σ with status := .inactive }) ∨
        ((σ.status = .registering -> forall e, exit ≠ .abandoning e) ∧
          task = .finished exit.outcome ∧ σ' = σ)) := by
  cases exit with
  | abandoning e =>
      have hlook := turn_look h
      by_cases hstatus : σ.status = .registering
      · simp only [Proc.done_bind, hstatus, if_true] at hlook
        rcases turn_done (turn_store hlook) with ⟨rfl, rfl, rfl⟩
        exact ⟨rfl, Or.inl ⟨e, rfl, hstatus, rfl, rfl⟩⟩
      · simp only [Proc.done_bind, hstatus, if_false] at hlook
        rcases turn_done hlook with ⟨rfl, rfl, rfl⟩
        exact ⟨rfl, Or.inr ⟨fun hregistering => absurd hregistering hstatus, rfl, rfl⟩⟩
  | late found =>
      rcases turn_done h with ⟨rfl, rfl, rfl⟩
      exact ⟨rfl, Or.inr ⟨fun _ e he => (nomatch he), rfl, rfl⟩⟩
  | quiet =>
      rcases turn_done h with ⟨rfl, rfl, rfl⟩
      exact ⟨rfl, Or.inr ⟨fun _ e he => (nomatch he), rfl, rfl⟩⟩

theorem turn_failed {aim : Aim} {round : Round} {e : RegistryError}
    (h : Turn S i (aim.concluded (S.member i) round (.error (.registry e))) σ w task σ' w') :
    exists stage, task = stage.task (S.member i) ∧
      Retries S i σ (S.reported i w (.settlingFailed round.attempt e)) aim round (some e) stage w' ∧
      σ' = σ := by
  rw [Aim.concluded_registry] at h
  exact turn_retry (turn_report h)

theorem turn_settled {aim : Aim} {claim : Registration}
    (h : Turn S i (aim.settled (S.member i) (.ok claim)) σ w task σ' w') :
    exists stage, task = stage.task (S.member i) ∧
      ((Settled.ofClaim? claim = none ∧
          Quits S i σ w aim (.numberOverflow claim.number) stage w' ∧ σ' = σ) ∨
        exists settled, Settled.ofClaim? claim = some settled ∧
          Wins S i σ w settled aim stage σ' w') := by
  unfold Aim.settled at h
  cases hsettled : Settled.ofClaim? claim with
  | none =>
      simp only [hsettled] at h
      rcases turn_finish_error h with ⟨stage, htask, hquit, hσ⟩
      exact ⟨stage, htask, Or.inl ⟨rfl, hquit, hσ⟩⟩
  | some settled =>
      simp only [hsettled] at h
      rcases turn_finish_ok h with ⟨stage, htask, hwin⟩
      exact ⟨stage, htask, Or.inr ⟨settled, rfl, hwin⟩⟩

/-- The task is what a reply leads to. -/
def Resumed (S : Setting ι ω) (i : ι) (σ : Standing) (w : ω) (s : Spot) (r : s.Reply) (task : Task)
    (σ' : Standing) (w' : ω) : Prop :=
  exists stage, task = stage.task (S.member i) ∧ Resumes S i σ w s r stage σ' w'

section

variable {aim : Aim} {round : Round} {claim : Registration}

theorem resumed_of_listing {r : (Spot.listing aim round).Reply}
    (h : Turn S i ((Spot.listing aim round).next (S.member i) r) σ w task σ' w') :
    Resumed S i σ w (.listing aim round) r task σ' w' := by
  cases r with
  | error e =>
      rcases turn_failed h with ⟨stage, htask, hretry, rfl⟩
      exact ⟨stage, htask, .listingFailed hretry⟩
  | ok live =>
      rw [Spot.next_listing] at h
      rcases turn_now h with ⟨t, w₁, hread, hstake⟩
      rcases turn_proc hstake with ⟨rfl, rfl, rfl⟩
      exact ⟨_, rfl, .listed hread⟩

theorem resumed_of_staking {r : (Spot.staking aim round claim).Reply}
    (h : Turn S i ((Spot.staking aim round claim).next (S.member i) r) σ w task σ' w') :
    Resumed S i σ w (.staking aim round claim) r task σ' w' := by
  cases r with
  | error e =>
      rcases turn_failed h with ⟨stage, htask, hretry, rfl⟩
      exact ⟨stage, htask, .stakingFailed hretry⟩
  | ok previous =>
      rw [Spot.next_staking] at h
      rcases turn_proc h with ⟨rfl, rfl, rfl⟩
      exact ⟨_, rfl, .staked⟩

theorem resumed_of_spreading {r : (Spot.spreading aim round claim).Reply}
    (h : Turn S i ((Spot.spreading aim round claim).next (S.member i) r) σ w task σ' w') :
    Resumed S i σ w (.spreading aim round claim) r task σ' w' := by
  rw [Spot.next_spreading] at h
  have hlook := turn_look h
  cases hsettle : σ.status.maySettle with
  | true =>
      rw [if_pos hsettle] at hlook
      rcases turn_proc hlook with ⟨rfl, rfl, rfl⟩
      exact ⟨_, rfl, .spread hsettle⟩
  | false =>
      rw [if_neg (by simp [hsettle])] at hlook
      rcases turn_finish_error hlook with ⟨stage, htask, hquit, rfl⟩
      exact ⟨stage, htask, .spreadBarred hsettle hquit⟩

theorem resumed_of_verifying {r : (Spot.verifying aim round claim).Reply}
    (h : Turn S i ((Spot.verifying aim round claim).next (S.member i) r) σ w task σ' w') :
    Resumed S i σ w (.verifying aim round claim) r task σ' w' := by
  cases r with
  | error e =>
      rcases turn_failed h with ⟨stage, htask, hretry, rfl⟩
      exact ⟨stage, htask, .verifyingFailed hretry⟩
  | ok live =>
      by_cases hverdict : Numbering.verdict claim live = .lost
      · rw [Spot.next_verifying_lost _ _ _ hverdict] at h
        rcases turn_retry (turn_report h) with ⟨stage, htask, hretry, rfl⟩
        exact ⟨stage, htask, .lost hverdict hretry⟩
      · rw [Spot.next_verifying _ _ _ hverdict] at h
        rcases turn_settled h with ⟨stage, htask, ⟨hof, hquit, rfl⟩ | ⟨settled, hof, hwin⟩⟩
        · exact ⟨stage, htask, .overflow hverdict hof hquit⟩
        · exact ⟨stage, htask, .upheld hverdict hof hwin⟩

theorem resumed_of_backingOff {last : Option RegistryError} {time : Duration}
    {r : (Spot.backingOff aim round last time).Reply}
    (h : Turn S i ((Spot.backingOff aim round last time).next (S.member i) r) σ w task σ' w') :
    Resumed S i σ w (.backingOff aim round last time) r task σ' w' := by
  rcases turn_rounds h with ⟨stage, htask, htry, rfl⟩
  exact ⟨stage, htask, .backedOff htry⟩

theorem resumed_of_withdrawing {exit : Exit} {r : (Spot.withdrawing exit).Reply}
    (h : Turn S i ((Spot.withdrawing exit).next (S.member i) r) σ w task σ' w') :
    Resumed S i σ w (.withdrawing exit) r task σ' w' := by
  have hleave : Turn S i exit.leave σ (S.withdrawn i w r) task σ' w' := by
    cases r with
    | error e => exact turn_report h
    | ok previous => exact h
  rcases turn_leave hleave with ⟨rfl, ⟨e, rfl, hstatus, rfl, rfl⟩ | ⟨hstatus, rfl, rfl⟩⟩
  · exact ⟨.finished _, rfl, .relinquished hstatus⟩
  · exact ⟨.finished _, rfl, .left hstatus⟩

theorem resumed_of_refreshing {r : (Spot.refreshing claim).Reply}
    (h : Turn S i ((Spot.refreshing claim).next (S.member i) r) σ w task σ' w') :
    Resumed S i σ w (.refreshing claim) r task σ' w' := by
  cases r with
  | error e =>
      rcases turn_done (turn_report h) with ⟨rfl, rfl, rfl⟩
      exact ⟨.finished _, rfl, .refreshingFailed⟩
  | ok previous =>
      rw [Spot.next_refreshing] at h
      have hlook := turn_look (turn_report h)
      cases hready : σ.status.isReady with
      | true =>
          rw [if_pos hready] at hlook
          rcases turn_proc hlook with ⟨rfl, rfl, rfl⟩
          exact ⟨_, rfl, .refreshed hready⟩
      | false =>
          rw [if_neg (by simp [hready])] at hlook
          rcases turn_proc hlook with ⟨rfl, rfl, rfl⟩
          exact ⟨_, rfl, .refreshedLate hready⟩

theorem resumed_of_checking {r : (Spot.checking claim).Reply}
    (h : Turn S i ((Spot.checking claim).next (S.member i) r) σ w task σ' w') :
    Resumed S i σ w (.checking claim) r task σ' w' := by
  cases r with
  | error e =>
      rcases turn_done (turn_report h) with ⟨rfl, rfl, rfl⟩
      exact ⟨.finished _, rfl, .checkingFailed⟩
  | ok live =>
      by_cases hverdict : Numbering.verdict claim live = .lost
      · rw [Spot.next_checking_lost _ hverdict] at h
        rcases turn_rounds (turn_report h) with ⟨stage, htask, htry, rfl⟩
        exact ⟨stage, htask, .contested hverdict htry⟩
      · rw [Spot.next_checking _ hverdict] at h
        rcases turn_done h with ⟨rfl, rfl, rfl⟩
        exact ⟨.finished _, rfl, .uncontested hverdict⟩

theorem resumed_of_restoring {r : (Spot.restoring claim).Reply}
    (h : Turn S i ((Spot.restoring claim).next (S.member i) r) σ w task σ' w') :
    Resumed S i σ w (.restoring claim) r task σ' w' := by
  cases r with
  | error e =>
      rcases turn_done (turn_report h) with ⟨rfl, rfl, rfl⟩
      exact ⟨.finished _, rfl, .restoringFailed⟩
  | ok previous =>
      rw [Spot.next_restoring] at h
      have hlook := turn_look h
      cases hready : σ.status.isReady with
      | true =>
          rw [if_pos hready] at hlook
          rcases turn_done hlook with ⟨rfl, rfl, rfl⟩
          exact ⟨.finished _, rfl, .restored hready⟩
      | false =>
          rw [if_neg (by simp [hready])] at hlook
          rcases turn_proc hlook with ⟨rfl, rfl, rfl⟩
          exact ⟨_, rfl, .restoredLate hready⟩

theorem resumed_of_removing {r : Spot.removing.Reply}
    (h : Turn S i (Spot.removing.next (S.member i) r) σ w task σ' w') :
    Resumed S i σ w .removing r task σ' w' := by
  cases r with
  | error e =>
      rcases turn_done h with ⟨rfl, rfl, rfl⟩
      exact ⟨.finished _, rfl, .removingFailed⟩
  | ok previous =>
      rcases turn_done (turn_report h) with ⟨rfl, rfl, rfl⟩
      exact ⟨.finished _, rfl, .removed⟩

end

/-- A thread that goes on after a reply takes one of the turns. -/
theorem turn_next {s : Spot} {r : s.Reply} (h : Turn S i (s.next (S.member i) r) σ w task σ' w') :
    exists stage, task = stage.task (S.member i) ∧ Resumes S i σ w s r stage σ' w' := by
  cases s with
  | listing aim round => exact resumed_of_listing h
  | staking aim round claim => exact resumed_of_staking h
  | spreading aim round claim => exact resumed_of_spreading h
  | verifying aim round claim => exact resumed_of_verifying h
  | backingOff aim round last time => exact resumed_of_backingOff h
  | withdrawing exit => exact resumed_of_withdrawing h
  | refreshing claim => exact resumed_of_refreshing h
  | checking claim => exact resumed_of_checking h
  | restoring claim => exact resumed_of_restoring h
  | removing => exact resumed_of_removing h

theorem turn_begin {op : Operation} (h : Turn S i (op.proc (S.member i)) σ w task σ' w') :
    exists stage, task = stage.task (S.member i) ∧ Begins S i σ w op stage σ' w' := by
  cases op with
  | activate =>
      rw [Operation.proc_activate] at h
      have hlook := turn_look h
      by_cases hstatus : σ.status = .inactive
      · rw [if_pos hstatus] at hlook
        rcases turn_rounds (turn_report (turn_store hlook)) with ⟨stage, htask, htry, rfl⟩
        exact ⟨stage, htask, .activate hstatus htry⟩
      · rw [if_neg hstatus] at hlook
        rcases turn_done hlook with ⟨rfl, rfl, rfl⟩
        exact ⟨.finished _, rfl, .activateRefused hstatus⟩
  | heartbeat =>
      rw [Operation.proc_heartbeat] at h
      have hlook := turn_look h
      cases hsettled : σ.settled with
      | none =>
          simp only [hsettled] at hlook
          rcases turn_done hlook with ⟨rfl, rfl, rfl⟩
          exact ⟨.finished _, rfl, .heartbeatIdle fun _ => hsettled⟩
      | some settled =>
          simp only [hsettled] at hlook
          cases hready : σ.status.isReady with
          | true =>
              rw [if_pos hready] at hlook
              rcases turn_proc hlook with ⟨rfl, rfl, rfl⟩
              exact ⟨_, rfl, .heartbeat hready hsettled⟩
          | false =>
              rw [if_neg (by simp [hready])] at hlook
              rcases turn_done hlook with ⟨rfl, rfl, rfl⟩
              exact ⟨.finished _, rfl, .heartbeatIdle fun h => absurd h (by simp [hready])⟩
  | deactivate =>
      rw [Operation.proc_deactivate] at h
      have hstore := turn_store (turn_look h)
      by_cases hstatus : σ.status = .deactivated
      · rw [if_pos hstatus] at hstore
        rcases turn_done hstore with ⟨rfl, rfl, rfl⟩
        exact ⟨.finished _, rfl, .deactivateAgain hstatus⟩
      · rw [if_neg hstatus] at hstore
        rcases turn_proc hstore with ⟨rfl, rfl, rfl⟩
        exact ⟨_, rfl, .deactivate hstatus⟩
  | uniqueId =>
      rw [Operation.proc_uniqueId] at h
      have hlook := turn_look h
      cases hsettled : σ.settled with
      | none =>
          simp only [hsettled] at hlook
          rcases turn_done hlook with ⟨rfl, rfl, rfl⟩
          exact ⟨.finished _, rfl, .uniqueIdRefused hsettled⟩
      | some settled =>
          simp only [hsettled] at hlook
          rcases turn_readingPast hlook with ⟨reading, w₁, hread, hissue⟩
          rcases turn_done (turn_store (turn_look hissue)) with ⟨rfl, rfl, rfl⟩
          exact ⟨.finished _, rfl, .uniqueId hsettled hread⟩

/-!
# All these turns are taken
-/

theorem turn_of_spot (s : Spot) :
    Turn S i (s.proc (S.member i)) σ w ((Stage.waiting s).task (S.member i)) σ w := by
  cases s with
  | listing aim round | staking aim round claim | verifying aim round claim | withdrawing exit
  | refreshing claim | checking claim | restoring claim | removing => exact .call
  | spreading aim round claim | backingOff aim round last time => exact .pause

theorem Quits.turn {aim : Aim} {e : Error} {stage : Stage} (h : Quits S i σ w aim e stage w') :
    Turn S i (aim.finish (S.member i) (.error e)) σ w (stage.task (S.member i)) σ w' := by
  cases h with
  | abandon =>
      rw [Aim.finish_register_error]
      exact .report (turn_of_spot _)
  | restore hready =>
      rw [Aim.finish_renumber_error]
      refine .look ?_
      rw [if_pos hready]
      exact .report (turn_of_spot _)
  | interrupt hready =>
      rw [Aim.finish_renumber_error]
      refine .look ?_
      rw [if_neg (by simp [hready])]
      exact .report (turn_of_spot _)

theorem Wins.turn {aim : Aim} {settled : Settled} {stage : Stage}
    (h : Wins S i σ w settled aim stage σ' w') :
    Turn S i (aim.finish (S.member i) (.ok settled)) σ w (stage.task (S.member i)) σ' w' := by
  cases h with
  | register hstatus =>
      rw [Aim.finish_register_ok]
      refine .look ?_
      rw [if_pos hstatus]
      exact .store (.report .finish)
  | late hstatus =>
      rw [Aim.finish_register_ok]
      refine .look ?_
      rw [if_neg hstatus]
      exact turn_of_spot _
  | renumber hready =>
      rw [Aim.finish_renumber_ok]
      refine .look ?_
      rw [if_pos hready]
      exact .store (.report .finish)
  | interrupt hready =>
      rw [Aim.finish_renumber_ok]
      refine .look ?_
      rw [if_neg (by simp [hready])]
      exact turn_of_spot _

theorem Tries.turn {aim : Aim} {attempt : Nat} {last : Option RegistryError} {remaining : Nat}
    {stage : Stage} (h : Tries S i σ w aim attempt last remaining stage w') :
    Turn S i (aim.rounds (S.member i) attempt last remaining) σ w (stage.task (S.member i)) σ
      w' := by
  cases h with
  | list hsettle =>
      rw [Aim.rounds_succ]
      refine .look ?_
      rw [if_pos hsettle]
      exact turn_of_spot _
  | barred hsettle hquit =>
      rw [Aim.rounds_succ]
      refine .look ?_
      rw [if_neg (by simp [hsettle])]
      exact hquit.turn
  | exhausted hquit =>
      rw [Aim.rounds_zero]
      exact hquit.turn

theorem Retries.turn {aim : Aim} {round : Round} {last : Option RegistryError} {stage : Stage}
    (h : Retries S i σ w aim round last stage w') :
    Turn S i (aim.retry (S.member i) round last) σ w (stage.task (S.member i)) σ w' := by
  unfold Aim.retry
  cases h with
  | backOff hremaining words =>
      rw [if_pos hremaining, Aim.backOff_bind]
      exact .entropy (turn_of_spot (.backingOff aim round last _))
  | exhausted hremaining hquit =>
      rw [if_neg (by simpa using hremaining), hremaining, Aim.rounds_zero]
      exact hquit.turn

theorem Retries.turn_failed {aim : Aim} {round : Round} {e : RegistryError} {stage : Stage}
    (h : Retries S i σ (S.reported i w (.settlingFailed round.attempt e)) aim round (some e) stage
      w') :
    Turn S i (aim.concluded (S.member i) round (.error (.registry e))) σ w
      (stage.task (S.member i)) σ w' := by
  rw [Aim.concluded_registry]
  exact .report h.turn

theorem turn_of_leave {exit : Exit} {reply : (Spot.withdrawing exit).Reply} {task : Task}
    (h : Turn S i exit.leave σ (S.withdrawn i w reply) task σ' w') :
    Turn S i ((Spot.withdrawing exit).next (S.member i) reply) σ w task σ' w' := by
  cases reply with
  | error e => exact .report h
  | ok previous => exact h

theorem Resumes.turn {s : Spot} {reply : s.Reply} {stage : Stage}
    (h : Resumes S i σ w s reply stage σ' w') :
    Turn S i (s.next (S.member i) reply) σ w (stage.task (S.member i)) σ' w' := by
  cases h with
  | listed hread =>
      rw [Spot.next_listing]
      exact .now hread (turn_of_spot _)
  | listingFailed hretry | stakingFailed hretry | verifyingFailed hretry =>
      exact hretry.turn_failed
  | staked =>
      rw [Spot.next_staking]
      exact turn_of_spot _
  | spread hsettle =>
      rw [Spot.next_spreading]
      refine .look ?_
      rw [if_pos hsettle]
      exact turn_of_spot _
  | spreadBarred hsettle hquit =>
      rw [Spot.next_spreading]
      refine .look ?_
      rw [if_neg (by simp [hsettle])]
      exact hquit.turn
  | upheld hverdict hsettled hwin =>
      rw [Spot.next_verifying _ _ _ hverdict]
      unfold Aim.settled
      simp only [hsettled]
      exact hwin.turn
  | overflow hverdict hsettled hquit =>
      rw [Spot.next_verifying _ _ _ hverdict]
      unfold Aim.settled
      simp only [hsettled]
      exact hquit.turn
  | lost hverdict hretry =>
      rw [Spot.next_verifying_lost _ _ _ hverdict]
      exact .report hretry.turn
  | backedOff htry => exact htry.turn
  | relinquished hstatus =>
      refine turn_of_leave (.look ?_)
      simp only [Proc.done_bind, hstatus, if_true]
      exact .store .finish
  | @left exit reply hstatus =>
      refine turn_of_leave ?_
      cases exit with
      | abandoning e =>
          have hnot : σ.status ≠ .registering := fun hregistering => hstatus hregistering e rfl
          refine .look ?_
          simp only [Proc.done_bind, hnot, if_false]
          exact .finish
      | late found | quiet => exact .finish
  | refreshed hready =>
      rw [Spot.next_refreshing]
      refine .report (.look ?_)
      rw [if_pos hready]
      exact turn_of_spot _
  | refreshedLate hready =>
      rw [Spot.next_refreshing]
      refine .report (.look ?_)
      rw [if_neg (by simp [hready])]
      exact turn_of_spot _
  | refreshingFailed | checkingFailed | restoringFailed => exact .report .finish
  | uncontested hverdict =>
      rw [Spot.next_checking _ hverdict]
      exact .finish
  | contested hverdict htry =>
      rw [Spot.next_checking_lost _ hverdict]
      exact .report htry.turn
  | restored hready =>
      rw [Spot.next_restoring]
      refine .look ?_
      rw [if_pos hready]
      exact .finish
  | restoredLate hready =>
      rw [Spot.next_restoring]
      refine .look ?_
      rw [if_neg (by simp [hready])]
      exact turn_of_spot _
  | removed => exact .report .finish
  | removingFailed => exact .finish

theorem Begins.turn {op : Operation} {stage : Stage} (h : Begins S i σ w op stage σ' w') :
    Turn S i (op.proc (S.member i)) σ w (stage.task (S.member i)) σ' w' := by
  cases h with
  | activate hstatus htry =>
      rw [Operation.proc_activate]
      refine .look ?_
      rw [if_pos hstatus]
      exact .store (.report htry.turn)
  | activateRefused hstatus =>
      rw [Operation.proc_activate]
      refine .look ?_
      rw [if_neg hstatus]
      exact .finish
  | heartbeat hready hsettled =>
      rw [Operation.proc_heartbeat]
      refine .look ?_
      simp only [hsettled, hready, if_true]
      exact turn_of_spot _
  | heartbeatIdle hidle =>
      rw [Operation.proc_heartbeat]
      refine .look ?_
      cases hsettled : σ.settled with
      | none => exact .finish
      | some settled =>
          have hready : ¬ σ.status.isReady = true := fun h => nomatch hsettled.symm.trans (hidle h)
          simp only [if_neg hready]
          exact .finish
  | deactivate hstatus =>
      rw [Operation.proc_deactivate]
      refine .look (.store ?_)
      rw [if_neg hstatus]
      exact turn_of_spot _
  | deactivateAgain hstatus =>
      rw [Operation.proc_deactivate]
      refine .look (.store ?_)
      rw [if_pos hstatus]
      exact .finish
  | uniqueId hsettled hread =>
      rw [Operation.proc_uniqueId]
      refine .look ?_
      simp only [hsettled]
      exact .readingPast hread (.look (.store .finish))
  | uniqueIdRefused hsettled =>
      rw [Operation.proc_uniqueId]
      refine .look ?_
      simp only [hsettled]
      exact .finish

end

end Interleaving
end Roster
