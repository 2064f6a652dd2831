import Roster.Proofs.Interleaving.Cluster

/-!
# Spots

The operations of a member wait at few spots: before a call of a round, of a heartbeat or of a
withdrawal, and in the two pauses.  A spot knows what its thread waits for, and what the thread does
with the reply.
-/

namespace Roster
namespace Interleaving

/-!
# What a thread is about
-/

inductive Aim where
  | register
  | renumber (old : Registration)

structure Round where
  attempt : Nat
  remaining : Nat

inductive Exit where
  | abandoning (e : Error)
  | late (found : Phase)
  | quiet

inductive Spot where
  | listing (aim : Aim) (round : Round)
  | staking (aim : Aim) (round : Round) (claim : Registration)
  | spreading (aim : Aim) (round : Round) (claim : Registration)
  | verifying (aim : Aim) (round : Round) (claim : Registration)
  | backingOff (aim : Aim) (round : Round) (last : Option RegistryError) (time : Duration)
  | withdrawing (exit : Exit)
  | refreshing (claim : Registration)
  | checking (claim : Registration)
  | restoring (claim : Registration)
  | removing

namespace Spot

@[reducible] def Reply : Spot → Type
  | listing _ _ | verifying _ _ _ | checking _ => Except RegistryError (List Registration)
  | staking _ _ _ | withdrawing _ | refreshing _ | restoring _ | removing =>
      Except RegistryError (Option Registration)
  | spreading _ _ _ | backingOff _ _ _ _ => Unit

end Spot

/-!
# What comes next
-/

namespace Aim

def phase : Aim → Phase
  | register => .registering
  | renumber _ => .ready

def finish (m : Member) : Aim → Except Error Settled → Proc Outcome
  | register, outcome => (m.enroll outcome).bind fun result => .done (.registered result)
  | renumber old, outcome => (m.adopt old outcome).bind fun _ => .done .beaten

def settled (m : Member) (aim : Aim) : Except Error Registration → Proc Outcome
  | .error e => aim.finish m (.error e)
  | .ok claim =>
      match Settled.ofClaim? claim with
      | none => aim.finish m (.error (.numberOverflow claim.number))
      | some settled => aim.finish m (.ok settled)

def rounds (m : Member) (aim : Aim) (attempt : Nat) (last : Option RegistryError)
    (remaining : Nat) : Proc Outcome :=
  (m.settleFrom aim.phase attempt last remaining).bind (aim.settled m)

def concluded (m : Member) (aim : Aim) (round : Round)
    (outcome : Except Error (Option Registration)) : Proc Outcome :=
  (m.conclude round.attempt round.remaining
    (fun last => m.settleFrom aim.phase (round.attempt + 1) last round.remaining) outcome).bind
      (aim.settled m)

end Aim

def Exit.leave : Exit → Proc Outcome
  | .abandoning e => (Member.relinquish e).bind fun result => .done (.registered result)
  | .late found => .done (.registered (.error (.invalidState .registering found)))
  | .quiet => .done .beaten

def heardListing (answer : Except RegistryError (List Bytes)) :
    Except RegistryError (List Registration) :=
  answer.bind Region.decodeAll

def heardPrevious (answer : Except RegistryError (Option Bytes)) :
    Except RegistryError (Option Registration) :=
  answer.bind Region.decodeOption

namespace Spot

def next (m : Member) : (s : Spot) → s.Reply → Proc Outcome
  | listing aim round, .error e => aim.concluded m round (.error (.registry e))
  | listing aim round, .ok live => do
      let claimedAt ← Proc.now
      let outcome ← m.stake aim.phase
        { serverId := m.id.text, number := Numbering.lowestFree m.id.text live, claimedAt }
      aim.concluded m round outcome
  | staking aim round _, .error e => aim.concluded m round (.error (.registry e))
  | staking aim round claim, .ok _ => (m.spread aim.phase claim).bind (aim.concluded m round)
  | spreading aim round claim, () => do
      match ← Member.ensureSettling aim.phase with
      | .error e => aim.concluded m round (.error e)
      | .ok () => (m.verify claim).bind (aim.concluded m round)
  | verifying aim round _, .error e => aim.concluded m round (.error (.registry e))
  | verifying aim round claim, .ok live =>
      match Numbering.verdict claim live with
      | .lost => aim.concluded m round (.ok none)
      | _ => aim.concluded m round (.ok (some claim))
  | backingOff aim round last _, () => aim.rounds m (round.attempt + 1) last round.remaining
  | withdrawing exit, .error e => do
      m.report (.withdrawalFailed e)
      exit.leave
  | withdrawing exit, .ok _ => exit.leave
  | refreshing _, .error e => (m.report (.heartbeatFailed e)).bind fun _ => .done .beaten
  | refreshing claim, .ok previous =>
      (m.report (if previous.isSome then .refreshed claim.number
          else .reappeared claim.number)).bind fun _ =>
        Proc.look.bind fun standing =>
          (if standing.status.isReady then m.checkCollision claim else m.withdraw).bind fun _ =>
            .done .beaten
  | checking _, .error e => (m.report (.collisionCheckFailed e)).bind fun _ => .done .beaten
  | checking claim, .ok live =>
      (if Numbering.verdict claim live = .lost then m.renumber claim else .done ()).bind fun _ =>
        .done .beaten
  | restoring _, .error e => (m.report (.restoringFailed e)).bind fun _ => .done .beaten
  | restoring _, .ok _ =>
      Proc.look.bind fun standing =>
        (if !standing.status.isReady then m.withdraw else .done ()).bind fun _ => .done .beaten
  | removing, .error e => return .deregistered (.error (.registry e))
  | removing, .ok _ => do
      m.report .deregistered
      return .deregistered (.ok ())

def effect (m : Member) : Spot → Effect
  | listing _ _ | verifying _ _ _ | checking _ => .call (.list m.servers.name)
  | staking _ _ claim | refreshing claim | restoring claim =>
      .call (.put m.servers.name m.id.text (Storable.encode claim))
  | withdrawing _ | removing => .call (.remove m.servers.name m.id.text)
  | spreading _ _ _ => .pause m.config.settleDelay
  | backingOff _ _ _ time => .pause time

def reply (m : Member) : (s : Spot) → (s.effect m).Answer → s.Reply
  | listing _ _, answer | verifying _ _ _, answer | checking _, answer => heardListing answer
  | staking _ _ _, answer | withdrawing _, answer | refreshing _, answer | restoring _, answer
  | removing, answer => heardPrevious answer
  | spreading _ _ _, _ | backingOff _ _ _ _, _ => ()

def proc (m : Member) (s : Spot) : Proc Outcome :=
  .ask (s.effect m) fun answer => s.next m (s.reply m answer)

end Spot

inductive Stage where
  | waiting (s : Spot)
  | due (s : Spot) (r : s.Reply)
  | finished (outcome : Outcome)

def Stage.task (m : Member) : Stage → Task
  | waiting s => .waiting (s.proc m)
  | due s r => .due (s.next m r)
  | finished outcome => .finished outcome

/-!
# Procedures of the spots

The parts of the operations that begin with a wait are the procedures of the spots.
-/

theorem ite_bind {α β : Type} {c : Prop} [Decidable c] (p q : Proc α) (f : α → Proc β) :
    (if c then p else q).bind f = if c then p.bind f else q.bind f :=
  apply_ite (Proc.bind · f) c p q

theorem list_bind {α : Type} (m : Member) (f : Except RegistryError (List Registration) → Proc α) :
    m.servers.list.bind f =
      .ask (.call (.list m.servers.name)) fun answer => f (heardListing answer) := by
  refine congrArg (Proc.ask (.call (.list m.servers.name))) (funext fun answer => ?_)
  cases answer with
  | error e => rfl
  | ok values => rfl

theorem put_bind {α : Type} (m : Member) (claim : Registration)
    (f : Except RegistryError (Option Registration) → Proc α) :
    (m.servers.put m.id.text claim).bind f =
      .ask (.call (.put m.servers.name m.id.text (Storable.encode claim)))
        fun answer => f (heardPrevious answer) := by
  refine congrArg (Proc.ask _) (funext fun answer => ?_)
  cases answer with
  | error e => rfl
  | ok previous => rfl

theorem remove_bind {α : Type} (m : Member)
    (f : Except RegistryError (Option Registration) → Proc α) :
    (m.servers.remove m.id.text).bind f =
      .ask (.call (.remove m.servers.name m.id.text))
        fun answer => f (heardPrevious answer) := by
  refine congrArg (Proc.ask _) (funext fun answer => ?_)
  cases answer with
  | error e => rfl
  | ok previous => rfl

namespace Spot

variable (m : Member) (aim : Aim) (round : Round) (claim : Registration)

theorem proc_listing :
    (m.claimRound aim.phase).bind (aim.concluded m round) = (listing aim round).proc m := by
  unfold Member.claimRound
  change (Proc.bind (Proc.bind m.servers.list _) _) = _
  rw [Proc.bind_assoc, list_bind]
  refine congrArg (Proc.ask _) (funext fun answer => ?_)
  change _ = (listing aim round).next m (heardListing answer)
  cases heardListing answer with
  | error e => rfl
  | ok live => rfl

theorem proc_staking :
    (m.stake aim.phase claim).bind (aim.concluded m round) =
      (staking aim round claim).proc m := by
  unfold Member.stake
  change (Proc.bind (Proc.bind (m.servers.put m.id.text claim) _) _) = _
  rw [Proc.bind_assoc, put_bind]
  refine congrArg (Proc.ask _) (funext fun answer => ?_)
  change _ = (staking aim round claim).next m (heardPrevious answer)
  cases heardPrevious answer with
  | error e => rfl
  | ok previous => rfl

theorem proc_spreading :
    (m.spread aim.phase claim).bind (aim.concluded m round) =
      (spreading aim round claim).proc m := by
  refine congrArg (Proc.ask _) (funext fun answer => ?_)
  change Proc.bind (Proc.bind (Member.ensureSettling aim.phase) _) _ = _
  rw [Proc.bind_assoc]
  refine congrArg (Proc.bind _) (funext fun result => ?_)
  cases result with
  | error e => rfl
  | ok _ => rfl

theorem proc_verifying :
    (m.verify claim).bind (aim.concluded m round) = (verifying aim round claim).proc m := by
  unfold Member.verify
  change (Proc.bind (Proc.bind m.servers.list _) _) = _
  rw [Proc.bind_assoc, list_bind]
  refine congrArg (Proc.ask _) (funext fun answer => ?_)
  change _ = (verifying aim round claim).next m (heardListing answer)
  cases heardListing answer with
  | error e => rfl
  | ok live =>
      change Proc.bind (match Numbering.verdict claim live with
        | .lost => _
        | _ => _) _ = match Numbering.verdict claim live with
        | .lost => _
        | _ => _
      cases Numbering.verdict claim live with
      | unique => rfl
      | wonTieBreak => rfl
      | lost => rfl

theorem proc_withdrawing (exit : Exit) :
    m.withdraw.bind (fun _ => exit.leave) = (withdrawing exit).proc m := by
  unfold Member.withdraw
  change (Proc.bind (Proc.bind (m.servers.remove m.id.text) _) _) = _
  rw [Proc.bind_assoc, remove_bind]
  refine congrArg (Proc.ask _) (funext fun answer => ?_)
  change _ = (withdrawing exit).next m (heardPrevious answer)
  cases heardPrevious answer with
  | error e => rfl
  | ok previous => rfl

theorem proc_refreshing :
    (m.refresh claim).bind (fun _ => .done .beaten) = (refreshing claim).proc m := by
  unfold Member.refresh
  change (Proc.bind (Proc.bind (m.servers.put m.id.text claim) _) _) = _
  rw [Proc.bind_assoc, put_bind]
  refine congrArg (Proc.ask _) (funext fun answer => ?_)
  change _ = (refreshing claim).next m (heardPrevious answer)
  cases heardPrevious answer with
  | error e => rfl
  | ok previous => rfl

theorem proc_checking :
    (m.checkCollision claim).bind (fun _ => .done .beaten) = (checking claim).proc m := by
  unfold Member.checkCollision
  change (Proc.bind (Proc.bind m.servers.list _) _) = _
  rw [Proc.bind_assoc, list_bind]
  refine congrArg (Proc.ask _) (funext fun answer => ?_)
  change _ = (checking claim).next m (heardListing answer)
  cases heardListing answer with
  | error e => rfl
  | ok live => rfl

theorem proc_restoring :
    (m.restore claim).bind (fun _ => .done .beaten) = (restoring claim).proc m := by
  unfold Member.restore
  change (Proc.bind (Proc.bind (m.servers.put m.id.text claim) _) _) = _
  rw [Proc.bind_assoc, put_bind]
  refine congrArg (Proc.ask _) (funext fun answer => ?_)
  change _ = (restoring claim).next m (heardPrevious answer)
  cases heardPrevious answer with
  | error e => rfl
  | ok previous => rfl

end Spot

/-!
# Procedures between the spots

What follows a round or a settling, written with the spots that it leads to.
-/

namespace Aim

variable (m : Member) (aim : Aim) (round : Round)

theorem finish_register_error (e : Error) :
    register.finish m (.error e) =
      .ask (.report (.member m.id (.registrationFailed e)))
        fun _ => (Spot.withdrawing (.abandoning e)).proc m := by
  refine congrArg (Proc.ask _) (funext fun _ => ?_)
  change Proc.bind (Proc.bind m.withdraw _) _ = _
  rw [Proc.bind_assoc]
  exact Spot.proc_withdrawing m (.abandoning e)

theorem finish_register_ok (settled : Settled) :
    register.finish m (.ok settled) =
      .ask .look fun standing =>
        if standing.status = .registering then
          .ask (.store { status := .ready settled.claim.number, settled := some settled }) fun _ =>
            .ask (.report (.member m.id (.registered settled.claim.number))) fun _ =>
              .done (.registered (.ok settled.claim.number))
        else (Spot.withdrawing (.late standing.status.phase)).proc m := by
  refine congrArg (Proc.ask .look) (funext fun standing => ?_)
  rw [← Spot.proc_withdrawing]
  have hlate : (Proc.bind (Proc.bind m.withdraw fun _ =>
        .done (.error (.invalidState .registering standing.status.phase))) fun result =>
          .done (.registered result)) =
      m.withdraw.bind fun _ => (Exit.late standing.status.phase).leave :=
    Proc.bind_assoc _ _ _
  exact (ite_bind _ _ _).trans (if_congr Iff.rfl rfl hlate)

theorem finish_renumber_error (old : Registration) (e : Error) :
    (renumber old).finish m (.error e) =
      .ask .look fun standing =>
        if standing.status.isReady then
          .ask (.report (.member m.id (.renumberingFailed e old.number))) fun _ =>
            (Spot.restoring old).proc m
        else
          .ask (.report (.member m.id (.renumberingInterrupted e))) fun _ =>
            (Spot.withdrawing .quiet).proc m := by
  refine congrArg (Proc.ask .look) (funext fun standing => ?_)
  rw [← Spot.proc_restoring, ← Spot.proc_withdrawing]
  exact ite_bind _ _ _

theorem finish_renumber_ok (old : Registration) (settled : Settled) :
    (renumber old).finish m (.ok settled) =
      .ask .look fun standing =>
        if standing.status.isReady then
          .ask (.store { status := .ready settled.claim.number, settled := some settled }) fun _ =>
            .ask (.report (.member m.id (.renumbered old.number settled.claim.number))) fun _ =>
              .done .beaten
        else (Spot.withdrawing .quiet).proc m := by
  refine congrArg (Proc.ask .look) (funext fun standing => ?_)
  rw [← Spot.proc_withdrawing]
  exact ite_bind _ _ _

theorem rounds_zero (attempt : Nat) (last : Option RegistryError) :
    aim.rounds m attempt last 0 = aim.finish m (.error (m.exhausted last)) := rfl

theorem rounds_succ (attempt : Nat) (last : Option RegistryError) (remaining : Nat) :
    aim.rounds m attempt last (remaining + 1) =
      .ask .look fun standing =>
        if standing.status.maySettle then (Spot.listing aim ⟨attempt, remaining⟩).proc m
        else aim.finish m (.error (.invalidState aim.phase standing.status.phase)) := by
  refine congrArg (Proc.ask .look) (funext fun standing => ?_)
  cases hsettle : standing.status.maySettle with
  | true =>
      simp only [if_true]
      rw [← Spot.proc_listing]
      simp only [Proc.done_bind, hsettle, if_true]
      exact Proc.bind_assoc (m.claimRound aim.phase) _ _
  | false =>
      simp only [Proc.done_bind, hsettle]
      rfl

theorem backOff_bind {α : Type} (attempt : Nat) (f : Unit → Proc α) :
    (m.backOff attempt).bind f =
      .ask .entropy fun words => .ask (.pause (m.backOffTime attempt words)) f := rfl

def retry (last : Option RegistryError) : Proc Outcome :=
  if round.remaining ≠ 0 then
    (m.backOff round.attempt).bind fun _ =>
      aim.rounds m (round.attempt + 1) last round.remaining
  else aim.rounds m (round.attempt + 1) last round.remaining

theorem retry_eq (last : Option RegistryError) :
    Proc.bind (if round.remaining ≠ 0 then
        (m.backOff round.attempt).bind fun _ =>
          m.settleFrom aim.phase (round.attempt + 1) last round.remaining
      else m.settleFrom aim.phase (round.attempt + 1) last round.remaining) (aim.settled m) =
      aim.retry m round last := by
  rw [ite_bind, Proc.bind_assoc]
  rfl

theorem concluded_none :
    aim.concluded m round (.ok none) =
      .ask (.report (.member m.id (.claimLost round.attempt))) fun _ =>
        aim.retry m round none :=
  congrArg (Proc.ask _) (funext fun _ => retry_eq m aim round none)

theorem concluded_registry (e : RegistryError) :
    aim.concluded m round (.error (.registry e)) =
      .ask (.report (.member m.id (.settlingFailed round.attempt e))) fun _ =>
        aim.retry m round (some e) :=
  congrArg (Proc.ask _) (funext fun _ => retry_eq m aim round (some e))

theorem settleNumber_bind :
    (m.settleNumber aim.phase).bind (aim.finish m) =
      aim.rounds m 1 none m.config.settleAttempts.toNat := by
  unfold Member.settleNumber
  change Proc.bind (Proc.bind (m.settle aim.phase) _) _ = _
  rw [Proc.bind_assoc]
  refine congrArg (Proc.bind (m.settle aim.phase)) (funext fun outcome => ?_)
  cases outcome with
  | error e => rfl
  | ok claim =>
      unfold settled
      dsimp only
      cases Settled.ofClaim? claim with
      | none => rfl
      | some settled => rfl

end Aim

theorem renumber_bind (m : Member) (old : Registration) :
    (m.renumber old).bind (fun _ => .done .beaten) =
      .ask (.report (.member m.id (.collision old.number))) fun _ =>
        (Aim.renumber old).rounds m 1 none m.config.settleAttempts.toNat := by
  refine congrArg (Proc.ask _) (funext fun _ => ?_)
  rw [← Aim.settleNumber_bind]
  exact Proc.bind_assoc (m.settleNumber .ready) _ _

namespace Spot

variable (m : Member) (aim : Aim) (round : Round) {claim : Registration}
  {live : List Registration}

theorem next_listing (live : List Registration) :
    (listing aim round).next m (.ok live) = .ask .now fun claimedAt =>
      (staking aim round
        ⟨m.id.text, Numbering.lowestFree m.id.text live, claimedAt⟩).proc m :=
  congrArg (Proc.ask .now) (funext fun _ => proc_staking m aim round _)

theorem next_staking (claim : Registration) (previous : Option Registration) :
    (staking aim round claim).next m (.ok previous) = (spreading aim round claim).proc m :=
  proc_spreading m aim round claim

theorem next_spreading (claim : Registration) :
    (spreading aim round claim).next m () = .ask .look fun standing =>
      if standing.status.maySettle then (verifying aim round claim).proc m
      else aim.finish m (.error (.invalidState aim.phase standing.status.phase)) := by
  refine congrArg (Proc.ask .look) (funext fun standing => ?_)
  rw [← proc_verifying]
  cases hsettle : standing.status.maySettle with
  | true =>
      simp only [Proc.done_bind, hsettle, if_true]
      rfl
  | false =>
      simp only [Proc.done_bind, hsettle]
      rfl

theorem next_verifying (h : Numbering.verdict claim live ≠ .lost) :
    (verifying aim round claim).next m (.ok live) = aim.settled m (.ok claim) := by
  cases hverdict : Numbering.verdict claim live with
  | lost => exact absurd hverdict h
  | unique | wonTieBreak =>
      simp only [next, hverdict]
      rfl

theorem next_verifying_lost (h : Numbering.verdict claim live = .lost) :
    (verifying aim round claim).next m (.ok live) =
      .ask (.report (.member m.id (.claimLost round.attempt))) fun _ =>
        aim.retry m round none := by
  rw [← Aim.concluded_none]
  simp only [next, h]

theorem next_refreshing (claim : Registration) (previous : Option Registration) :
    (refreshing claim).next m (.ok previous) =
      .ask (.report (.member m.id (if previous.isSome then .refreshed claim.number
        else .reappeared claim.number))) fun _ => .ask .look fun standing =>
          if standing.status.isReady then (checking claim).proc m
          else (withdrawing .quiet).proc m := by
  refine congrArg (Proc.ask _) (funext fun _ => ?_)
  refine congrArg (Proc.ask .look) (funext fun standing => ?_)
  rw [← proc_checking, ← proc_withdrawing]
  exact ite_bind _ _ _

theorem next_checking (h : Numbering.verdict claim live ≠ .lost) :
    (checking claim).next m (.ok live) = .done .beaten := by
  simp only [next, if_neg h]
  rfl

theorem next_checking_lost (h : Numbering.verdict claim live = .lost) :
    (checking claim).next m (.ok live) =
      .ask (.report (.member m.id (.collision claim.number))) fun _ =>
        (Aim.renumber claim).rounds m 1 none m.config.settleAttempts.toNat := by
  rw [← renumber_bind]
  simp only [next, if_pos h]

theorem next_restoring (claim : Registration) (previous : Option Registration) :
    (restoring claim).next m (.ok previous) = .ask .look fun standing =>
      if standing.status.isReady then .done .beaten else (withdrawing .quiet).proc m := by
  refine congrArg (Proc.ask .look) (funext fun standing => ?_)
  rw [← proc_withdrawing]
  change Proc.bind (if !standing.status.isReady then m.withdraw else .done ()) _ = _
  cases standing.status.isReady with
  | true => rfl
  | false => rfl

end Spot

theorem checkCollision_bind {α : Type} (m : Member) (claim : Registration) (f : Unit → Proc α) :
    (m.checkCollision claim).bind f =
      .ask (.call (.list m.servers.name)) fun answer =>
        match heardListing answer with
        | .error e => (m.report (.collisionCheckFailed e)).bind f
        | .ok live =>
            if Numbering.verdict claim live = .lost then (m.renumber claim).bind f else f () := by
  unfold Member.checkCollision
  change (Proc.bind (Proc.bind m.servers.list _) _) = _
  rw [Proc.bind_assoc, list_bind]
  refine congrArg (Proc.ask _) (funext fun answer => ?_)
  change _ = match heardListing answer with
    | .error e => _
    | .ok live => _
  cases heardListing answer with
  | error e => rfl
  | ok live => exact ite_bind _ _ _

namespace Operation

variable (m : Member)

theorem proc_activate :
    activate.proc m =
      .ask .look fun standing =>
        if standing.status = .inactive then
          .ask (.store { standing with status := .registering }) fun _ =>
            .ask (.report (.member m.id .registering)) fun _ =>
              Aim.register.rounds m 1 none m.config.settleAttempts.toNat
        else .done (.registered (.error (.invalidState .inactive standing.status.phase))) := by
  refine congrArg (Proc.ask .look) (funext fun standing => ?_)
  rw [← Aim.settleNumber_bind]
  have hrounds : Proc.bind (Proc.bind (m.settleNumber .registering) fun outcome =>
        m.enroll outcome) (fun result => .done (.registered result)) =
      (m.settleNumber Aim.register.phase).bind (Aim.register.finish m) :=
    Proc.bind_assoc _ _ _
  rw [← hrounds]
  exact ite_bind _ _ _

theorem proc_heartbeat :
    heartbeat.proc m =
      .ask .look fun standing =>
        match standing.settled with
        | none => .done .beaten
        | some settled =>
            if standing.status.isReady then (Spot.refreshing settled.claim).proc m
            else .done .beaten := by
  refine congrArg (Proc.ask .look) (funext fun standing => ?_)
  rcases standing with ⟨status, settled⟩
  cases settled with
  | none => rfl
  | some settled =>
      dsimp only
      rw [← Spot.proc_refreshing]
      exact ite_bind _ _ _

theorem remove_bind_eq_removing :
    Proc.bind (m.servers.remove m.id.text) (fun removed =>
        Proc.bind (match removed with
          | .error e => .done (.error (.registry e))
          | .ok _ => do
              m.report .deregistered
              return .ok ()) fun result => .done (.deregistered result)) =
      Spot.removing.proc m := by
  rw [remove_bind]
  refine congrArg (Proc.ask _) (funext fun answer => ?_)
  change _ = Spot.removing.next m (heardPrevious answer)
  cases heardPrevious answer with
  | error e => rfl
  | ok previous => rfl

theorem proc_deactivate :
    deactivate.proc m =
      .ask .look fun standing =>
        .ask (.store { status := .deactivated, settled := none }) fun _ =>
          if standing.status = .deactivated then .done (.deregistered (.ok ()))
          else Spot.removing.proc m := by
  refine congrArg (Proc.ask .look) (funext fun standing => ?_)
  refine congrArg (Proc.ask _) (funext fun _ => ?_)
  rw [← remove_bind_eq_removing, ← Proc.bind_assoc]
  exact ite_bind _ _ _

theorem proc_uniqueId :
    uniqueId.proc m =
      .ask .look fun standing =>
        match standing.settled with
        | none => .done (.issued (.error .notReady))
        | some settled =>
            .ask (.readingPast settled.issuer.previous) fun reading =>
              .ask .look fun standing =>
                .ask (.store { standing with settled := some { settled with
                  issuer := (settled.issuer.issue (UniqueId.elapsedAt reading)).2 } }) fun _ =>
                  .done (.issued (.ok (settled.issuer.issue (UniqueId.elapsedAt reading)).1)) := by
  refine congrArg (Proc.ask .look) (funext fun standing => ?_)
  rcases standing with ⟨status, settled⟩
  cases settled with
  | none => rfl
  | some settled => rfl

end Operation

end Interleaving
end Roster
