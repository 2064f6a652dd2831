import Roster.Proofs.Interleaving.Claims

/-!
# Proper clusters

Whatever calls and clocks answer, the standing of a member and its threads fit together: ready
means settled, an inactive member does nothing, and a registering one does nothing else.
-/

namespace Roster
/-!
# Standings
-/

/-- A settled claim of a server, with an issuer for its number. -/
structure Settled.Proper (id : String) (settled : Settled) : Prop where
  serverId_eq : settled.claim.serverId = id
  server_eq : settled.issuer.server.toNat = settled.claim.number.toNat

theorem Settled.ofClaim?_of_lt {claim : Registration}
    (h : claim.number.toNat < UniqueId.serverRange) :
    Settled.ofClaim? claim = some ⟨claim, ⟨UInt16.ofNat claim.number.toNat, 0⟩⟩ := by
  unfold Settled.ofClaim? Issuer.start?
  rw [if_pos h]
  rfl

theorem Settled.proper_of_ofClaim? {id : String} {claim : Registration} {settled : Settled}
    (h : Settled.ofClaim? claim = some settled) (hclaim : claim.serverId = id) :
    settled.claim = claim ∧ settled.issuer.previous = 0 ∧ Settled.Proper id settled := by
  unfold Settled.ofClaim? Issuer.start? at h
  split at h
  · rename_i hrange
    have heq : settled = ⟨claim, ⟨UInt16.ofNat claim.number.toNat, 0⟩⟩ := by
      simpa using h.symm
    subst heq
    refine ⟨rfl, rfl, hclaim, ?_⟩
    exact UInt16.toNat_ofNat_of_lt' hrange
  · cases h

theorem Status.isReady_of_ready {status : Status} {number : UInt32} (h : status = .ready number) :
    status.isReady = true := by
  rw [h]
  rfl

theorem Status.maySettle_of_isReady {status : Status} (h : status.isReady = true) :
    status.maySettle = true := by
  cases status with
  | ready number => rfl
  | inactive | registering | deactivated => cases h

/-- A member is ready when it is settled, with the number of its claim. -/
structure Standing.Proper (id : String) (σ : Standing) : Prop where
  settled_of_ready : σ.status.isReady = true -> σ.settled ≠ none
  of_settled : forall settled, σ.settled = some settled ->
    σ.status = .ready settled.claim.number ∧ settled.Proper id

inductive Standing.Shift (id : String) (σ : Standing) : Standing → Prop where
  | stay : Shift id σ σ
  | register (hstatus : σ.status = .inactive) : Shift id σ { σ with status := .registering }
  | relinquish (hstatus : σ.status = .registering) : Shift id σ { σ with status := .inactive }
  | settle {settled} (hstatus : σ.status.maySettle = true) (hsettled : settled.Proper id) :
      Shift id σ { status := .ready settled.claim.number, settled := some settled }
  | issue {settled} (hsettled : σ.settled = some settled) (reading : Int) :
      Shift id σ { σ with settled := some (settled.afterIssue reading) }
  | deactivate : Shift id σ { status := .deactivated, settled := none }

theorem Settled.Proper.afterIssue {id : String} {settled : Settled} (h : settled.Proper id)
    (reading : Int) : (settled.afterIssue reading).Proper id :=
  ⟨h.serverId_eq, h.server_eq⟩

theorem Standing.Proper.ready {id : String} {settled : Settled} (h : settled.Proper id) :
    Standing.Proper id { status := .ready settled.claim.number, settled := some settled } where
  settled_of_ready := fun _ hnone => nomatch hnone
  of_settled := fun settled hsettled => by
    cases hsettled
    exact ⟨rfl, h⟩

theorem Standing.Proper.shift {id : String} {σ σ' : Standing} (h : σ.Proper id)
    (hshift : Shift id σ σ') : σ'.Proper id := by
  have hunsettled : σ.status.isReady = false -> σ.settled = none := by
    intro hready
    cases hsettled : σ.settled with
    | none => rfl
    | some settled =>
        rw [(h.of_settled settled hsettled).1] at hready
        cases hready
  cases hshift with
  | stay => exact h
  | register hstatus =>
      have hnone := hunsettled (by rw [hstatus]; rfl)
      exact ⟨fun hready => (nomatch hready), fun settled hs => (nomatch hnone.symm.trans hs)⟩
  | relinquish hstatus =>
      have hnone := hunsettled (by rw [hstatus]; rfl)
      exact ⟨fun hready => (nomatch hready), fun settled hs => (nomatch hnone.symm.trans hs)⟩
  | settle hstatus hsettled => exact .ready hsettled
  | issue hsettled reading =>
      rcases h.of_settled _ hsettled with ⟨hready, hproper⟩
      refine ⟨fun _ hnone => (nomatch hnone), fun settled hs => ?_⟩
      cases hs
      exact ⟨hready, hproper.afterIssue reading⟩
  | deactivate => exact ⟨fun hready => (nomatch hready), fun settled hs => (nomatch hs)⟩

theorem Standing.Shift.early {id : String} {σ σ' : Standing} (hshift : Shift id σ σ')
    (hearly : σ'.status = .inactive ∨ σ'.status = .registering) :
    σ.status = .inactive ∨ σ.status = .registering := by
  cases hshift with
  | stay => exact hearly
  | register hstatus => exact Or.inl hstatus
  | relinquish hstatus => exact Or.inr hstatus
  | issue hsettled reading => exact hearly
  | settle _ _ => rcases hearly with hearly | hearly <;> cases hearly
  | deactivate => rcases hearly with hearly | hearly <;> cases hearly

theorem Standing.Shift.deactivated {id : String} {σ σ' : Standing} (hshift : Shift id σ σ')
    (h : σ.status = .deactivated) : σ'.status = .deactivated := by
  cases hshift with
  | stay => exact h
  | register hstatus | relinquish hstatus => cases hstatus.symm.trans h
  | issue hsettled reading => exact h
  | settle hstatus _ =>
      rw [h] at hstatus
      cases hstatus
  | deactivate => rfl

namespace Interleaving

variable {ι ω : Type}

/-!
# What spots are about
-/

namespace Aim

def Named (id : String) : Aim → Prop
  | register => True
  | renumber old => old.serverId = id

end Aim

namespace Spot

def Named (id : String) : Spot → Prop
  | listing aim _ | backingOff aim _ _ _ => aim.Named id
  | staking aim _ claim | spreading aim _ claim | verifying aim _ claim =>
      aim.Named id ∧ claim.serverId = id
  | refreshing claim | checking claim | restoring claim => claim.serverId = id
  | withdrawing _ | removing => True

def Registers : Spot → Prop
  | listing aim _ | staking aim _ _ | spreading aim _ _ | verifying aim _ _
  | backingOff aim _ _ _ => aim = .register
  | withdrawing exit => exit ≠ .quiet
  | refreshing _ | checking _ | restoring _ | removing => False

end Spot

namespace Stage

def spot? : Stage → Option Spot
  | waiting s | due s _ => some s
  | finished _ => none

/-- The thread begins a round, backs off, or undoes what it has done. -/
def Retreats (stage : Stage) : Prop :=
  exists s, stage = .waiting s ∧ match s with
    | .listing _ _ | .backingOff _ _ _ _ | .withdrawing _ | .restoring _ => True
    | _ => False

def issued? : Stage → Option UniqueId
  | finished (.issued (.ok id)) => some id
  | _ => none

end Stage

theorem spot?_of_waiting {t : Thread ι ω Stage} {s : Spot} (h : t.task = .waiting s) :
    t.task.spot? = some s := by
  rw [h]
  rfl

theorem spot?_of_due {t : Thread ι ω Stage} {s : Spot} {reply : s.Reply}
    (h : t.task = .due s reply) : t.task.spot? = some s := by
  rw [h]
  rfl

/-!
# Where turns lead
-/

section

variable {S : Setting ι ω} {i : ι} {σ σ' : Standing} {w w' : ω} {aim : Aim} {stage : Stage}
  {s s' : Spot}

theorem Quits.registers {e : Error} (h : Quits S i σ w aim e stage w') (haim : aim = .register)
    (hs' : stage.spot? = some s') : s'.Registers := by
  cases h with
  | abandon =>
      cases hs'
      exact fun h => nomatch h
  | restore _ | interrupt _ => cases haim

theorem Tries.registers {attempt remaining : Nat} {last : Option RegistryError}
    (h : Tries S i σ w aim attempt last remaining stage w') (haim : aim = .register)
    (hs' : stage.spot? = some s') : s'.Registers := by
  cases h with
  | list _ =>
      cases hs'
      exact haim
  | barred _ hquit | exhausted hquit => exact hquit.registers haim hs'

theorem Retries.registers {round : Round} {last : Option RegistryError}
    (h : Retries S i σ w aim round last stage w') (haim : aim = .register)
    (hs' : stage.spot? = some s') : s'.Registers := by
  cases h with
  | backOff _ _ =>
      cases hs'
      exact haim
  | exhausted _ hquit => exact hquit.registers haim hs'

theorem Wins.registers {settled : Settled} (h : Wins S i σ w settled aim stage σ' w')
    (haim : aim = .register) (hs' : stage.spot? = some s') : s'.Registers := by
  cases h with
  | register _ => cases hs'
  | late _ =>
      cases hs'
      exact fun h => nomatch h
  | renumber _ | interrupt _ => cases haim

theorem Spot.named_iff {id : String} :
    s.Named id ↔ s.Holds fun claim => claim.serverId = id := by
  have haim (aim : Aim) : aim.Named id ↔ aim.Holds fun claim => claim.serverId = id := by
    cases aim with
    | register | renumber old => rfl
  cases s with
  | listing aim round | backingOff aim round last time => exact haim aim
  | staking aim round claim | spreading aim round claim | verifying aim round claim =>
      exact and_congr_left fun _ => haim aim
  | refreshing claim | checking claim | restoring claim | withdrawing exit | removing => rfl

theorem Stage.Holds.named {id : String} (h : stage.Holds id fun claim => claim.serverId = id)
    (hs : stage.spot? = some s) : s.Named id := by
  cases stage with
  | waiting s' =>
      cases hs
      exact Spot.named_iff.mpr h
  | due s' reply =>
      cases hs
      exact Spot.named_iff.mpr (Stage.holds_spot h)
  | finished outcome => cases hs

theorem Resumes.named {reply : s.Reply} (h : Resumes S i σ w s reply stage σ' w')
    (hs : s.Named (S.member i).id.text) (hs' : stage.spot? = some s') :
    s'.Named (S.member i).id.text := by
  refine (h.holds ?_).named hs'
  have hholds := Spot.named_iff.mp hs
  cases s with
  | listing aim round =>
      cases reply with
      | error e => exact hholds
      | ok live => exact ⟨hholds, fun _ => rfl⟩
  | _ => exact hholds

theorem Resumes.registers {reply : s.Reply} (h : Resumes S i σ w s reply stage σ' w')
    (hs : s.Registers) (hs' : stage.spot? = some s') : s'.Registers := by
  cases h with
  | listed _ | staked | spread _ =>
      cases hs'
      exact hs
  | listingFailed hretry | stakingFailed hretry | verifyingFailed hretry | lost _ hretry =>
      exact hretry.registers hs hs'
  | spreadBarred _ hquit | overflow _ _ hquit => exact hquit.registers hs hs'
  | upheld _ _ hwin => exact hwin.registers hs hs'
  | backedOff htry => exact htry.registers hs hs'
  | refreshed _ | refreshedLate _ | restoredLate _ | contested _ _ => exact hs.elim
  | relinquished _ | left _ | refreshingFailed | uncontested _ | checkingFailed | restored _
  | restoringFailed | removed | removingFailed => cases hs'

theorem Quits.retreats {e : Error} (h : Quits S i σ w aim e stage w') : stage.Retreats := by
  cases h with
  | abandon | restore _ | interrupt _ => exact ⟨_, rfl, trivial⟩

theorem Tries.retreats {attempt remaining : Nat} {last : Option RegistryError}
    (h : Tries S i σ w aim attempt last remaining stage w') : stage.Retreats := by
  cases h with
  | list _ => exact ⟨_, rfl, trivial⟩
  | barred _ hquit | exhausted hquit => exact hquit.retreats

theorem Retries.retreats {round : Round} {last : Option RegistryError}
    (h : Retries S i σ w aim round last stage w') : stage.Retreats := by
  cases h with
  | backOff _ _ => exact ⟨_, rfl, trivial⟩
  | exhausted _ hquit => exact hquit.retreats

theorem Wins.retreats_or_finished {settled : Settled}
    (h : Wins S i σ w settled aim stage σ' w') :
    stage.Retreats ∧ σ' = σ ∨ stage = .finished .beaten ∨
      exists number, stage = .finished (.registered (.ok number)) := by
  cases h with
  | register _ => exact Or.inr (Or.inr ⟨_, rfl⟩)
  | late _ | interrupt _ => exact Or.inl ⟨⟨_, rfl, trivial⟩, rfl⟩
  | renumber _ => exact Or.inr (Or.inl rfl)

/-- What a turn leads to: back, one spot further, or to the end of its operation. -/
inductive Ensues (S : Setting ι ω) (i : ι) (σ : Standing) (w : ω) :
    (s : Spot) → s.Reply → Stage → Standing → ω → Prop where
  | retreat {s reply stage w'} (hretreats : stage.Retreats) : Ensues S i σ w s reply stage σ w'
  | stake {aim round live t w'} (hread : S.answers i w .now t w') :
      Ensues S i σ w (.listing aim round) (.ok live)
        (.waiting (.staking aim round
          ⟨(S.member i).id.text, Numbering.lowestFree (S.member i).id.text live, t⟩)) σ w'
  | spread {aim round claim previous w'} :
      Ensues S i σ w (.staking aim round claim) (.ok previous)
        (.waiting (.spreading aim round claim)) σ w'
  | verify {aim round claim reply w'} :
      Ensues S i σ w (.spreading aim round claim) reply (.waiting (.verifying aim round claim)) σ w'
  | check {claim previous w'} :
      Ensues S i σ w (.refreshing claim) (.ok previous) (.waiting (.checking claim)) σ w'
  | register {s reply result σ' w'} : Ensues S i σ w s reply (.finished (.registered result)) σ' w'
  | beat {s reply σ' w'} : Ensues S i σ w s reply (.finished .beaten) σ' w'
  | deregister {reply result σ' w'} :
      Ensues S i σ w .removing reply (.finished (.deregistered result)) σ' w'

theorem Resumes.ensues {reply : s.Reply} (h : Resumes S i σ w s reply stage σ' w') :
    Ensues S i σ w s reply stage σ' w' := by
  cases h with
  | listed hread => exact .stake hread
  | staked => exact .spread
  | spread _ => exact .verify
  | refreshed _ => exact .check
  | listingFailed hretry | stakingFailed hretry | verifyingFailed hretry | lost _ hretry =>
      exact .retreat hretry.retreats
  | spreadBarred _ hquit | overflow _ _ hquit => exact .retreat hquit.retreats
  | backedOff htry | contested _ htry => exact .retreat htry.retreats
  | refreshedLate _ | restoredLate _ => exact .retreat ⟨_, rfl, trivial⟩
  | upheld _ _ hwin =>
      rcases hwin.retreats_or_finished with ⟨hretreats, rfl⟩ | rfl | ⟨number, rfl⟩
      · exact .retreat hretreats
      · exact .beat
      · exact .register
  | relinquished _ => exact .register
  | @left exit _ _ =>
      cases exit with
      | abandoning e | late found => exact .register
      | quiet => exact .beat
  | refreshingFailed | uncontested _ | checkingFailed | restored _ | restoringFailed => exact .beat
  | removed | removingFailed => exact .deregister

theorem Stage.Retreats.ne_due (h : stage.Retreats) (reply : s.Reply) : stage ≠ .due s reply := by
  rcases h with ⟨s', rfl, _⟩
  exact fun h => nomatch h

theorem Stage.Retreats.issued?_eq (h : stage.Retreats) : stage.issued? = none := by
  rcases h with ⟨s', rfl, _⟩
  rfl

theorem Resumes.ne_due {reply : s.Reply} (h : Resumes S i σ w s reply stage σ' w')
    (reply' : s'.Reply) : stage ≠ .due s' reply' := by
  cases h.ensues with
  | retreat hretreats => exact hretreats.ne_due reply'
  | stake _ | spread | verify | check | register | beat | deregister => exact fun h => nomatch h

theorem Resumes.ne_refreshing {reply : s.Reply} (h : Resumes S i σ w s reply stage σ' w')
    (claim : Registration) : stage ≠ .waiting (.refreshing claim) := by
  cases h.ensues with
  | retreat hretreats =>
      rcases hretreats with ⟨s', rfl, hs'⟩
      rintro ⟨rfl⟩
      exact hs'
  | stake _ | spread | verify | check | register | beat | deregister => exact fun h => nomatch h

theorem Begins.settled_of_refreshing {op : Operation} {claim : Registration}
    (h : Begins S i σ w op (.waiting (.refreshing claim)) σ' w') :
    exists settled, σ.settled = some settled ∧ settled.claim = claim := by
  cases h with
  | heartbeat _ hsettled => exact ⟨_, hsettled, rfl⟩
  | activate _ htry =>
      rcases htry.retreats with ⟨s, heq, hs⟩
      cases heq
      exact hs.elim

theorem Begins.ne_due {op : Operation} (h : Begins S i σ w op stage σ' w') (reply : s'.Reply) :
    stage ≠ .due s' reply := by
  cases h with
  | activate _ htry => exact htry.retreats.ne_due reply
  | activateRefused _ | heartbeat _ _ | heartbeatIdle _ | deactivate _ | deactivateAgain _
  | uniqueId _ _ | uniqueIdRefused _ => exact fun h => nomatch h

theorem Resumes.issued?_eq {reply : s.Reply} (h : Resumes S i σ w s reply stage σ' w') :
    stage.issued? = none := by
  cases h.ensues with
  | retreat hretreats => exact hretreats.issued?_eq
  | stake _ | spread | verify | check | register | beat | deregister => rfl

theorem Resumes.shift {reply : s.Reply} (h : Resumes S i σ w s reply stage σ' w')
    (hs : s.Named (S.member i).id.text) : Standing.Shift (S.member i).id.text σ σ' := by
  cases h with
  | upheld _ hsettled hwin =>
      rcases Settled.proper_of_ofClaim? hsettled hs.2 with ⟨_, _, hproper⟩
      cases hwin with
      | register hstatus => exact .settle (by rw [hstatus]; rfl) hproper
      | renumber hready => exact .settle (Status.maySettle_of_isReady hready) hproper
      | late _ | interrupt _ => exact .stay
  | relinquished hstatus => exact .relinquish hstatus
  | _ => exact .stay

theorem Begins.shift {op : Operation} (h : Begins S i σ w op stage σ' w') :
    Standing.Shift (S.member i).id.text σ σ' := by
  cases h with
  | activate hstatus _ => exact .register hstatus
  | deactivate _ | deactivateAgain _ => exact .deactivate
  | uniqueId hsettled _ => exact .issue hsettled _
  | _ => exact .stay

theorem Begins.named {op : Operation} (h : Begins S i σ w op stage σ' w')
    (hσ : σ.Proper (S.member i).id.text) (hs' : stage.spot? = some s') :
    s'.Named (S.member i).id.text := by
  cases h with
  | activate _ htry => exact Stage.Holds.named (htry.holds trivial) hs'
  | heartbeat _ hsettled =>
      cases hs'
      exact (hσ.of_settled _ hsettled).2.serverId_eq
  | deactivate _ =>
      cases hs'
      exact trivial
  | _ => cases hs'

/-!
What reports and readings of the clock keep is kept by turns: they change nothing else in the world.
-/

section

variable {P : ω → Prop} (hnote : forall w event, P w -> P (S.notes w event))

include hnote

theorem Quits.keeps {e : Error} (h : Quits S i σ w aim e stage w') (hw : P w) : P w' := by
  cases h with
  | abandon | restore _ | interrupt _ => exact hnote _ _ hw

theorem Tries.keeps {attempt remaining : Nat} {last : Option RegistryError}
    (h : Tries S i σ w aim attempt last remaining stage w') (hw : P w) : P w' := by
  cases h with
  | list _ => exact hw
  | barred _ hquit | exhausted hquit => exact hquit.keeps hnote hw

theorem Retries.keeps {round : Round} {last : Option RegistryError}
    (h : Retries S i σ w aim round last stage w') (hw : P w) : P w' := by
  cases h with
  | backOff _ _ => exact hw
  | exhausted _ hquit => exact hquit.keeps hnote hw

theorem Wins.keeps {settled : Settled} (h : Wins S i σ w settled aim stage σ' w') (hw : P w) :
    P w' := by
  cases h with
  | register _ | renumber _ => exact hnote _ _ hw
  | late _ | interrupt _ => exact hw

theorem Resumes.keeps {reply : s.Reply} (h : Resumes S i σ w s reply stage σ' w')
    (hnow : forall w t w', S.answers i w .now t w' -> P w -> P w') (hw : P w) : P w' := by
  have hwithdrawn (reply : Except RegistryError (Option Registration)) :
      P (S.withdrawn i w reply) := by
    cases reply with
    | error e => exact hnote _ _ hw
    | ok previous => exact hw
  cases h with
  | listed hread => exact hnow _ _ _ hread hw
  | listingFailed hretry | stakingFailed hretry | verifyingFailed hretry | lost _ hretry =>
      exact hretry.keeps hnote (hnote _ _ hw)
  | spreadBarred _ hquit | overflow _ _ hquit => exact hquit.keeps hnote hw
  | upheld _ _ hwin => exact hwin.keeps hnote hw
  | backedOff htry => exact htry.keeps hnote hw
  | contested _ htry => exact htry.keeps hnote (hnote _ _ hw)
  | relinquished _ | left _ => exact hwithdrawn _
  | refreshed _ | refreshedLate _ | refreshingFailed | checkingFailed | restoringFailed
  | removed => exact hnote _ _ hw
  | staked | spread _ | uncontested _ | restored _ | restoredLate _ | removingFailed => exact hw

theorem Begins.keeps {op : Operation} (h : Begins S i σ w op stage σ' w')
    (hreading : forall w previous reading w',
      S.answers i w (.readingPast previous) reading w' -> P w -> P w') (hw : P w) : P w' := by
  cases h with
  | activate _ htry => exact htry.keeps hnote (hnote _ _ hw)
  | uniqueId _ hread => exact hreading _ _ _ _ hread hw
  | activateRefused _ | heartbeat _ _ | heartbeatIdle _ | deactivate _ | deactivateAgain _
  | uniqueIdRefused _ => exact hw

end

theorem Resumes.idle {reply : s.Reply} (h : Resumes S i σ w s reply stage σ' w')
    (hσ : σ.status ≠ .inactive) (hσ' : σ'.status = .inactive) : stage.spot? = none := by
  cases h with
  | relinquished _ => rfl
  | upheld _ _ hwin =>
      cases hwin with
      | register _ | renumber _ => cases hσ'
      | late _ | interrupt _ => exact absurd hσ' hσ
  | _ => exact absurd hσ' hσ

theorem Begins.idle {op : Operation} (h : Begins S i σ w op stage σ' w')
    (hσ : σ.Proper (S.member i).id.text) (hσ' : σ'.status = .inactive) :
    stage.spot? = none ∧ stage.issued? = none ∧ σ.status = .inactive := by
  cases h with
  | activate hstatus htry => cases hσ'
  | deactivate _ | deactivateAgain _ => cases hσ'
  | heartbeat hready hsettled =>
      rw [hσ'] at hready
      cases hready
  | uniqueId hsettled _ =>
      rw [(hσ.of_settled _ hsettled).1] at hσ'
      cases hσ'
  | activateRefused _ | heartbeatIdle _ | uniqueIdRefused _ => exact ⟨rfl, rfl, hσ'⟩

theorem Begins.registers {op : Operation} (h : Begins S i σ w op stage σ' w')
    (hσ : σ.Proper (S.member i).id.text) (hσ' : σ'.status = .registering) :
    stage.issued? = none ∧ (σ.status = .inactive ∨ σ.status = .registering ∧ stage.spot? = none) ∧
      forall s', stage.spot? = some s' -> s'.Registers := by
  cases h with
  | activate hstatus htry =>
      exact ⟨htry.retreats.issued?_eq, Or.inl hstatus, fun s' hs' => htry.registers rfl hs'⟩
  | deactivate _ | deactivateAgain _ => cases hσ'
  | heartbeat hready hsettled =>
      rw [hσ'] at hready
      cases hready
  | uniqueId hsettled _ =>
      rw [(hσ.of_settled _ hsettled).1] at hσ'
      cases hσ'
  | activateRefused _ | heartbeatIdle _ | uniqueIdRefused _ =>
      exact ⟨rfl, Or.inr ⟨hσ', rfl⟩, fun s' hs' => nomatch hs'⟩

end

/-!
# Proper clusters
-/

/-- Only one thread of a member that has not registered yet has anything to do, and it registers
the member. -/
def Early (c : Cluster ι ω Stage) (i : ι) (n : Nat) : Prop :=
  forall k t, c.threads k = some t -> t.owner = i ->
    t.task.issued? = none ∧ forall s, t.task.spot? = some s ->
      k = n ∧ (c.standing i).status = .registering ∧ s.Registers

structure Proper (S : Setting ι ω) (c : Cluster ι ω Stage) : Prop where
  standing : forall i, (c.standing i).Proper (S.member i).id.text
  named : forall n t s, c.threads n = some t -> t.task.spot? = some s ->
    s.Named (S.member t.owner).id.text
  early : forall i, (c.standing i).status = .inactive ∨ (c.standing i).status = .registering ->
    exists n, Early c i n

theorem Proper.initial {S : Setting ι ω} (w : ω) : Proper S (.initial w) where
  standing := fun _ => ⟨fun h => (nomatch h), fun _ h => (nomatch h)⟩
  named := fun _ _ _ h => (nomatch h)
  early := fun _ _ => ⟨0, fun _ _ h => (nomatch h)⟩

section

variable {S : Setting ι ω} {c c' : Cluster ι ω Stage}

theorem Proper.alone (h : Proper S c) {n k : Nat} {t u : Thread ι ω Stage} {s s' : Spot}
    (hstatus : (c.standing t.owner).status = .registering) (ht : c.threads n = some t)
    (hs : t.task.spot? = some s) (hu : c.threads k = some u) (howner : u.owner = t.owner)
    (hs' : u.task.spot? = some s') : k = n := by
  rcases h.early t.owner (Or.inr hstatus) with ⟨m, hm⟩
  rw [((hm n t ht rfl).2 s hs).1, ((hm k u hu howner).2 s' hs').1]

theorem Proper.registers (h : Proper S c) {n : Nat} {t : Thread ι ω Stage} {s : Spot}
    (hstatus : (c.standing t.owner).status = .registering) (ht : c.threads n = some t)
    (hs : t.task.spot? = some s) : s.Registers := by
  rcases h.early t.owner (Or.inr hstatus) with ⟨m, hm⟩
  exact ((hm n t ht rfl).2 s hs).2.2

theorem Proper.not_inactive (h : Proper S c) {n : Nat} {t : Thread ι ω Stage} {s : Spot}
    (ht : c.threads n = some t) (hs : t.task.spot? = some s) :
    (c.standing t.owner).status ≠ .inactive := by
  intro hstatus
  rcases h.early t.owner (Or.inl hstatus) with ⟨m, hm⟩
  rw [((hm n t ht rfl).2 s hs).2.1] at hstatus
  cases hstatus

variable [DecidableEq ι]

theorem Proper.shift (h : Proper S c) (hmove : Moves S c c') (j : ι) :
    Standing.Shift (S.member j).id.text (c.standing j) (c'.standing j) := by
  cases stands_of_moves hmove j with
  | keep hkept =>
      rw [hkept]
      exact .stay
  | start _ _ hbegin => exact hbegin.shift
  | turn ht howner htask _ hresume =>
      subst howner
      exact hresume.shift (h.named _ _ _ ht (spot?_of_due htask))

theorem due_of_moves (hmove : Moves S c c') {n : Nat} {t : Thread ι ω Stage} {s : Spot}
    {reply : s.Reply} (ht : c'.threads n = some t) (htask : t.task = .due s reply) :
    c.threads n = some t ∨
      exists before, c.threads n = some before ∧ before.owner = t.owner ∧
        before.task = .waiting s ∧ c'.standing t.owner = c.standing t.owner ∧
        (s.pauses = true ∨
          exists answer, reply = s.reply (S.member t.owner) answer ∧
            S.permits (c.enacted S) (.call n (succeeds _ answer)) ∧
            S.answers t.owner c.world (s.effect (S.member t.owner)) answer c'.world) := by
  cases arrives_of_moves hmove ht with
  | stay ht => exact Or.inl ht
  | start _ _ hbegin => exact absurd htask (hbegin.ne_due reply)
  | @call before _ hu hbefore _ answer hpermits hanswer hkept =>
      cases htask
      exact Or.inr ⟨before, hu, rfl, hbefore, congrFun hkept _,
        Or.inr ⟨answer, rfl, hpermits, hanswer⟩⟩
  | @wake before _ hu hbefore _ hpause _ hkept _ =>
      cases htask
      exact Or.inr ⟨before, hu, rfl, hbefore, congrFun hkept _, Or.inl hpause⟩
  | turn _ _ _ hresume => exact absurd htask (hresume.ne_due reply)

theorem last_of_moves (hmove : Moves S c c') {n : Nat} {t : Thread ι ω Stage}
    (ht : c'.threads n = some t) :
    t.last = c'.world ∨ exists before, c.threads n = some before ∧ t.last = before.last := by
  cases arrives_of_moves hmove ht with
  | stay ht => exact Or.inr ⟨t, ht, rfl⟩
  | start _ _ _ | call _ _ _ _ _ _ _ => exact Or.inl rfl
  | wake hu _ _ _ _ _ _ | turn hu _ _ _ => exact Or.inr ⟨_, hu, rfl⟩

theorem owner_of_moves (hmove : Moves S c c') {n : Nat} {t before : Thread ι ω Stage}
    (hbefore : c.threads n = some before) (ht : c'.threads n = some t) :
    t.owner = before.owner := by
  cases arrives_of_moves hmove ht with
  | start hfresh _ _ => cases hfresh.symm.trans hbefore
  | stay hu | call hu _ _ _ _ _ _ | wake hu _ _ _ _ _ _ | turn hu _ _ _ =>
      cases hu.symm.trans hbefore
      rfl

theorem keeps_of_moves {P : ω → Prop} (hmove : Moves S c c')
    (hnote : forall w event, P w -> P (S.notes w event))
    (hnow : forall i w t w', S.answers i w .now t w' -> P w -> P w')
    (hreading : forall i w previous reading w',
      S.answers i w (.readingPast previous) reading w' -> P w -> P w')
    (hcalls : forall i w e answer w', S.answers i w (.call e) answer w' -> P w -> P w')
    (hdrifts : forall w w', S.drifts w w' -> P w -> P w') (hw : P c.world) : P c'.world := by
  cases hmove with
  | start hfresh hpermits hbegin => exact hbegin.keeps hnote (hreading _) hw
  | @call _ t s w ht htask hcall answer hpermits hanswer =>
      cases s with
      | spreading aim round claim | backingOff aim round last time => cases hcall
      | listing aim round | staking aim round claim | verifying aim round claim
      | withdrawing exit | refreshing claim | checking claim | restoring claim | removing =>
          exact hcalls t.owner c.world _ answer w hanswer hw
  | wake ht htask hpermits hpause reply => exact hw
  | turn ht htask hpermits hresume => exact hresume.keeps hnote (hnow _) hw
  | drift hpermits hdrift => exact hdrifts _ _ hdrift hw

theorem Proper.registering_of_moves (h : Proper S c) (hmove : Moves S c c') {n : Nat}
    {t : Thread ι ω Stage} {s : Spot} (ht : c.threads n = some t) (hs : t.task.spot? = some s)
    (hstatus : (c'.standing t.owner).status = .registering) :
    (c.standing t.owner).status = .registering := by
  rcases (h.shift hmove t.owner).early (Or.inr hstatus) with hinactive | hregistering
  · exact absurd hinactive (h.not_inactive ht hs)
  · exact hregistering

theorem Proper.moved (h : Proper S c) {n : Nat} {i : ι} {stage : Stage} {last w : ω} {σ : Standing}
    (hfree : forall t, c.threads n = some t -> t.owner = i)
    (hshift : Standing.Shift (S.member i).id.text (c.standing i) σ)
    (hnamed : forall s, stage.spot? = some s -> s.Named (S.member i).id.text)
    (hearly : σ.status = .inactive ∨ σ.status = .registering ->
      exists k, Early (c.moved n ⟨i, stage, last⟩ σ w) i k) :
    Proper S (c.moved n ⟨i, stage, last⟩ σ w) where
  standing := by
    intro j
    rcases c.standing_moved (n := n) (t := ⟨i, stage, last⟩) (σ := σ) (w := w) j with
      ⟨rfl, hj⟩ | ⟨hne, hj⟩
    · rw [hj]
      exact (h.standing _).shift hshift
    · rw [hj]
      exact h.standing j
  named := by
    intro k t s ht hs
    rcases Cluster.thread_moved ht with ⟨rfl, rfl⟩ | ⟨hk, ht⟩
    · exact hnamed s hs
    · exact h.named k t s ht hs
  early := by
    intro j hj
    rcases c.standing_moved (n := n) (t := ⟨i, stage, last⟩) (σ := σ) (w := w) j with
      ⟨rfl, heq⟩ | ⟨hne, heq⟩
    · rw [heq] at hj
      exact hearly hj
    · rw [heq] at hj
      rcases h.early j hj with ⟨m, hm⟩
      refine ⟨m, fun k t ht howner => ?_⟩
      rcases Cluster.thread_moved ht with ⟨rfl, rfl⟩ | ⟨hk, ht⟩
      · exact absurd howner.symm hne
      · rw [heq]
        exact hm k t ht howner

theorem Proper.replied (h : Proper S c) {n : Nat} {t : Thread ι ω Stage} {s : Spot}
    {reply : s.Reply} {last w : ω} (ht : c.threads n = some t) (htask : t.task = .waiting s) :
    Proper S (c.moved n ⟨t.owner, .due s reply, last⟩ (c.standing t.owner) w) := by
  have hspot := spot?_of_waiting htask
  refine h.moved (fun u hu => by cases ht.symm.trans hu; rfl) .stay
    (fun s' hs' => h.named n t s' ht (hspot.trans hs')) (fun hearly => ?_)
  rcases h.early t.owner hearly with ⟨m, hm⟩
  refine ⟨m, fun k u hu howner => ?_⟩
  rcases c.standing_moved (n := n) (t := ⟨t.owner, .due s reply, last⟩)
    (σ := c.standing t.owner) (w := w) t.owner with ⟨_, heq⟩ | ⟨hne, _⟩
  · rw [heq]
    rcases Cluster.thread_moved hu with ⟨rfl, rfl⟩ | ⟨hk, hu⟩
    · exact ⟨rfl, fun s' hs' => (hm k t ht rfl).2 s' (hspot.trans hs')⟩
    · exact hm k u hu howner
  · exact absurd rfl hne

theorem Proper.started (h : Proper S c) {n : Nat} {i : ι} {op : Operation} {stage : Stage}
    {σ : Standing} {w : ω} (hfresh : c.threads n = none)
    (hbegin : Begins S i (c.standing i) c.world op stage σ w) :
    Proper S (c.moved n ⟨i, stage, w⟩ σ w) := by
  have hσ := h.standing i
  refine h.moved (fun t ht => nomatch hfresh.symm.trans ht) hbegin.shift
    (fun s hs => hbegin.named hσ hs) (fun hearly => ?_)
  rcases h.early i (hbegin.shift.early hearly) with ⟨m, hm⟩
  have heq : (c.moved n ⟨i, stage, w⟩ σ w).standing i = σ := Function.update_self ..
  -- the threads of an inactive member have nothing to do
  have hnothing (hinactive : (c.standing i).status = .inactive) {k : Nat} {t : Thread ι ω Stage}
      {s : Spot} (ht : c.threads k = some t) (howner : t.owner = i) :
      ¬ t.task.spot? = some s := by
    intro hs
    subst howner
    exact h.not_inactive ht hs hinactive
  rcases hearly with hinactive | hregistering
  · rcases hbegin.idle hσ hinactive with ⟨hspot, hissued, hbefore⟩
    refine ⟨m, fun k t ht howner => ?_⟩
    rcases Cluster.thread_moved ht with ⟨rfl, rfl⟩ | ⟨hk, ht⟩
    · exact ⟨hissued, fun s hs => nomatch hspot.symm.trans hs⟩
    · exact ⟨(hm k t ht howner).1, fun s hs => absurd hs (hnothing hbefore ht howner)⟩
  · rcases hbegin.registers hσ hregistering with ⟨hissued, hbefore, hspots⟩
    rcases hbefore with hinactive | ⟨hbefore, hspot⟩
    · refine ⟨n, fun k t ht howner => ?_⟩
      rw [heq]
      rcases Cluster.thread_moved ht with ⟨rfl, rfl⟩ | ⟨hk, ht⟩
      · exact ⟨hissued, fun s hs => ⟨rfl, hregistering, hspots s hs⟩⟩
      · exact ⟨(hm k t ht howner).1, fun s hs => absurd hs (hnothing hinactive ht howner)⟩
    · refine ⟨m, fun k t ht howner => ?_⟩
      rw [heq]
      rcases Cluster.thread_moved ht with ⟨rfl, rfl⟩ | ⟨hk, ht⟩
      · exact ⟨hissued, fun s hs => nomatch hspot.symm.trans hs⟩
      · refine ⟨(hm k t ht howner).1, fun s hs => ?_⟩
        rcases (hm k t ht howner).2 s hs with ⟨hkm, _, hs⟩
        exact ⟨hkm, hregistering, hs⟩

theorem Proper.turned (h : Proper S c) {n : Nat} {t : Thread ι ω Stage} {s : Spot}
    {reply : s.Reply} {stage : Stage} {σ : Standing} {w : ω} (ht : c.threads n = some t)
    (htask : t.task = .due s reply)
    (hresume : Resumes S t.owner (c.standing t.owner) c.world s reply stage σ w) :
    Proper S (c.moved n ⟨t.owner, stage, t.last⟩ σ w) := by
  have hspot := spot?_of_due htask
  have hnamed := h.named n t s ht hspot
  refine h.moved (fun u hu => by cases ht.symm.trans hu; rfl) (hresume.shift hnamed)
    (fun s' hs' => hresume.named hnamed hs') (fun hearly => ?_)
  rcases h.early t.owner ((hresume.shift hnamed).early hearly) with ⟨m, hm⟩
  rcases (hm n t ht rfl).2 s hspot with ⟨rfl, hstatus, hregisters⟩
  have heq : (c.moved n ⟨t.owner, stage, t.last⟩ σ w).standing t.owner = σ :=
    Function.update_self ..
  refine ⟨n, fun k u hu howner => ?_⟩
  rw [heq]
  rcases Cluster.thread_moved hu with ⟨rfl, rfl⟩ | ⟨hk, hu⟩
  · refine ⟨hresume.issued?_eq, fun s' hs' => ⟨rfl, ?_, hresume.registers hregisters hs'⟩⟩
    rcases hearly with hinactive | hregistering
    · have hidle := hresume.idle (by rw [hstatus]; exact fun h => nomatch h) hinactive
      exact nomatch hidle.symm.trans hs'
    · exact hregistering
  · exact ⟨(hm k u hu howner).1, fun s' hs' => absurd ((hm k u hu howner).2 s' hs').1 hk⟩

theorem Proper.move (h : Proper S c) (hmove : Moves S c c') : Proper S c' := by
  cases hmove with
  | start hfresh hpermits hbegin => exact h.started hfresh hbegin
  | call ht htask hcall answer hpermits hanswer => exact h.replied ht htask
  | wake ht htask hpermits hpause reply => exact h.replied ht htask
  | turn ht htask hpermits hresume => exact h.turned ht htask hresume
  | drift hpermits hdrift => exact ⟨h.standing, h.named, h.early⟩

end

end Interleaving
end Roster
