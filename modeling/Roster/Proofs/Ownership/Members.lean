import Roster.Heartbeat
import Roster.Proofs.Effects

/-!
# What members ask for

A member lists the registrations, and puts and removes them under the id of its server.  It makes no
other calls, whatever it is answered.
-/

namespace Roster

namespace Member

/-- What a member may do has the property: its routine, listings, and puts and removals under its
id. -/
structure Allowed (m : Member) (P : Effect → Prop) : Prop where
  routine : forall e, e.isRoutine = true -> P e
  list : P (.call (.list m.servers.name))
  put : forall bytes, P (.call (.put m.servers.name m.id.text bytes))
  remove : P (.call (.remove m.servers.name m.id.text))

variable {m : Member} {P : Effect → Prop}

section

variable (h : m.Allowed P)
include h

theorem always_report (event : MemberEvent) : (m.report event).Always P :=
  ⟨h.routine _ rfl, fun _ => trivial⟩

theorem always_withdraw : m.withdraw.Always P := by
  refine (Region.always_remove h.remove).bind fun removed => ?_
  cases removed with
  | error e => exact always_report h _
  | ok before => exact trivial

theorem always_ensureSettling (expected : Phase) : (ensureSettling expected).Always P := by
  refine ⟨h.routine _ rfl, fun standing => ?_⟩
  exact Proc.Always.ite trivial trivial

theorem always_verify (claim : Registration) : (m.verify claim).Always P := by
  refine (Region.always_list h.list).bind fun listed => ?_
  cases listed with
  | error e => exact trivial
  | ok live =>
      dsimp only
      split
      · exact trivial
      · exact trivial

theorem always_spread (expected : Phase) (claim : Registration) :
    (m.spread expected claim).Always P := by
  refine ⟨h.routine _ rfl, fun _ => ?_⟩
  refine (always_ensureSettling h expected).bind fun allowed => ?_
  cases allowed with
  | error e => exact trivial
  | ok _ => exact always_verify h claim

theorem always_stake (expected : Phase) (claim : Registration) :
    (m.stake expected claim).Always P := by
  refine (Region.always_put (h.put _)).bind fun written => ?_
  cases written with
  | error e => exact trivial
  | ok previous => exact always_spread h expected claim

theorem always_claimRound (expected : Phase) : (m.claimRound expected).Always P := by
  refine (Region.always_list h.list).bind fun listed => ?_
  cases listed with
  | error e => exact trivial
  | ok live =>
      exact ⟨h.routine _ rfl, fun now => always_stake h expected _⟩

theorem always_backOff (attempt : Nat) : (m.backOff attempt).Always P :=
  ⟨h.routine _ rfl, fun _ => ⟨h.routine _ rfl, fun _ => trivial⟩⟩

theorem always_conclude (attempt remaining : Nat)
    {again : Option RegistryError → Proc (Except Error Registration)}
    (hagain : forall last, (again last).Always P) (outcome : Except Error (Option Registration)) :
    (m.conclude attempt remaining again outcome).Always P := by
  have hretry (event : MemberEvent) (last : Option RegistryError) :
      Proc.Always P ((m.report event).bind fun _ =>
        if remaining ≠ 0 then (m.backOff attempt).bind fun _ => again last else again last) := by
    refine (always_report h event).bind fun _ => ?_
    exact Proc.Always.ite ((always_backOff h attempt).bind fun _ => hagain last) (hagain last)
  cases outcome with
  | ok settled =>
      cases settled with
      | none => exact hretry _ none
      | some claim => exact trivial
  | error e =>
      cases e with
      | registry fault => exact hretry _ (some fault)
      | _ => exact trivial

theorem always_settleFrom (expected : Phase) (attempt : Nat) (last : Option RegistryError)
    (remaining : Nat) : (m.settleFrom expected attempt last remaining).Always P := by
  induction remaining generalizing attempt last with
  | zero => exact trivial
  | succ remaining ih =>
      refine (always_ensureSettling h expected).bind fun allowed => ?_
      cases allowed with
      | error e => exact trivial
      | ok _ =>
          refine (always_claimRound h expected).bind fun outcome => ?_
          exact always_conclude h attempt remaining (fun last => ih (attempt + 1) last) outcome

theorem always_settleNumber (expected : Phase) : (m.settleNumber expected).Always P := by
  refine (always_settleFrom h expected 1 none _).bind fun outcome => ?_
  cases outcome with
  | error e => exact trivial
  | ok claim =>
      dsimp only
      split
      · exact trivial
      · exact trivial

theorem always_relinquish (e : Error) : (relinquish e).Always P := by
  refine ⟨h.routine _ rfl, fun standing => ?_⟩
  exact Proc.Always.ite ⟨h.routine _ rfl, fun _ => trivial⟩ trivial

theorem always_enroll (outcome : Except Error Settled) : (m.enroll outcome).Always P := by
  cases outcome with
  | error e =>
      refine (always_report h _).bind fun _ => ?_
      exact (always_withdraw h).bind fun _ => always_relinquish h e
  | ok settled =>
      refine ⟨h.routine _ rfl, fun standing => ?_⟩
      refine Proc.Always.ite ?_ ((always_withdraw h).bind fun _ => trivial)
      exact ⟨h.routine _ rfl, fun _ =>
        (always_report h _).bind fun _ => trivial⟩

theorem always_activate : m.activate.Always P := by
  refine ⟨h.routine _ rfl, fun standing => ?_⟩
  refine Proc.Always.ite ⟨h.routine _ rfl, fun _ => ?_⟩ trivial
  refine (always_report h _).bind fun _ => ?_
  exact (always_settleNumber h _).bind fun outcome => always_enroll h outcome

theorem always_restore (claim : Registration) : (m.restore claim).Always P := by
  refine (Region.always_put (h.put _)).bind fun written => ?_
  cases written with
  | error e => exact always_report h _
  | ok previous =>
      refine ⟨h.routine _ rfl, fun standing => ?_⟩
      exact Proc.Always.ite (always_withdraw h) trivial

theorem always_adopt (old : Registration) (outcome : Except Error Settled) :
    (m.adopt old outcome).Always P := by
  cases outcome with
  | ok settled =>
      refine ⟨h.routine _ rfl, fun standing => ?_⟩
      refine Proc.Always.ite ?_ (always_withdraw h)
      exact ⟨h.routine _ rfl, fun _ => always_report h _⟩
  | error e =>
      refine ⟨h.routine _ rfl, fun standing => ?_⟩
      refine Proc.Always.ite ?_ ?_
      · exact (always_report h _).bind fun _ => always_restore h old
      · exact (always_report h _).bind fun _ => always_withdraw h

theorem always_checkCollision (claim : Registration) : (m.checkCollision claim).Always P := by
  refine (Region.always_list h.list).bind fun listed => ?_
  cases listed with
  | error e => exact always_report h _
  | ok live =>
      refine Proc.Always.ite ?_ trivial
      refine (always_report h _).bind fun _ => ?_
      exact (always_settleNumber h _).bind fun outcome => always_adopt h claim outcome

theorem always_refresh (claim : Registration) : (m.refresh claim).Always P := by
  refine (Region.always_put (h.put _)).bind fun written => ?_
  cases written with
  | error e => exact always_report h _
  | ok previous =>
      refine (always_report h _).bind fun _ => ?_
      refine ⟨h.routine _ rfl, fun standing => ?_⟩
      exact Proc.Always.ite (always_checkCollision h claim) (always_withdraw h)

theorem always_heartbeat : m.heartbeat.Always P := by
  refine ⟨h.routine _ rfl, fun standing => ?_⟩
  dsimp only [Proc.done_bind]
  split
  · exact trivial
  · exact Proc.Always.ite (always_refresh h _) trivial

theorem always_tick : (Heartbeat.tick m).Always P := by
  refine ⟨h.routine _ rfl, fun standing => ?_⟩
  exact Proc.Always.ite trivial ((always_heartbeat h).bind fun _ => trivial)

theorem always_deactivate : m.deactivate.Always P := by
  refine ⟨h.routine _ rfl, fun standing => ⟨h.routine _ rfl, fun _ => ?_⟩⟩
  refine Proc.Always.ite trivial ((Region.always_remove h.remove).bind fun removed => ?_)
  cases removed with
  | error e => exact trivial
  | ok before => exact (always_report h _).bind fun _ => trivial

end

theorem always_allServers (hlist : P (.call (.list m.servers.name))) : m.allServers.Always P := by
  refine (Region.always_list hlist).bind fun listed => ?_
  cases listed with
  | error e => exact trivial
  | ok live => exact trivial

section

variable (hlocal : forall e, (forall c, e ≠ .call c) -> P e)
include hlocal

theorem always_serverNumber : serverNumber.Always P := by
  refine ⟨hlocal _ fun _ heq => (nomatch heq), fun standing => ?_⟩
  dsimp only [Proc.done_bind]
  split
  · exact trivial
  · exact trivial

theorem always_uniqueId : uniqueId.Always P := by
  refine ⟨hlocal _ fun _ heq => (nomatch heq), fun standing => ?_⟩
  dsimp only [Proc.done_bind]
  split
  · exact trivial
  · exact ⟨hlocal _ fun _ heq => (nomatch heq), fun reading =>
      ⟨hlocal _ fun _ heq => (nomatch heq), fun standing =>
        ⟨hlocal _ fun _ heq => (nomatch heq), fun _ => trivial⟩⟩⟩

end

end Member
end Roster
