import Roster.Proofs.Interleaving.Alone
import Roster.Proofs.Registry.Listing
import Roster.Proofs.Settling.Rivals

/-!
# Teams

Members with one settle delay share a registry.  Clocks may show anything, calls may fail, and the
calls of all members interleave in any order, as long as the claims of a round are written and
verified in time.
-/

namespace Roster
namespace Settling

open Interleaving

/-!
# The setting
-/

structure Team (ι : Type) extends Fleet ι where
  delay : Duration
  delay_eq : forall i, (member i).config.settleDelay = delay

structure World where
  /-- Nanoseconds since some start. -/
  now : Nat
  contents : Contents

/-- The registry answers at once or fails, and a clock may show anything. -/
def answers (w : World) : (e : Effect) → e.Answer → World → Prop
  | .call c, answer, w' => w.contents.Answers c answer w'.contents ∧ w'.now = w.now
  | .now, _, w' | .readingPast _, _, w' => w' = w
  | _, _, _ => False

def Stakes (m : Member) (claim : Registration) (task : Task) : Prop :=
  exists expected next, task = .waiting ((m.stake expected claim).bind next)

/-- The thread is about to list the registrations in order to verify the claim of a round. -/
def Verifies (m : Member) (claim : Registration) (task : Task) : Prop :=
  exists attempt remaining again next,
    task = .waiting (((m.verify claim).bind (m.conclude attempt remaining again)).bind next)

def Refreshes (m : Member) (claim : Registration) (task : Task) : Prop :=
  exists next, task = .waiting ((m.refresh claim).bind next)

/-- A call may take effect when the claim of a round is written within the settle delay from the
last call of its thread, which is the listing of the round; when it is verified no earlier than the
delay after the last call, which is the writing of the claim; and when a claim is refreshed while
its member is still ready. -/
def InTime {ι : Type} (team : Team ι) (c : Cluster ι World Task) (n : Nat) : Prop :=
  forall t claim, c.threads n = some t ->
    (Stakes (team.member t.owner) claim t.task -> c.world.now < t.last.now + team.delay.nanos) ∧
    (Verifies (team.member t.owner) claim t.task ->
      t.last.now + team.delay.nanos ≤ c.world.now) ∧
    (Refreshes (team.member t.owner) claim t.task -> (c.standing t.owner).status.isReady = true)

def Team.setting {ι : Type} (team : Team ι) : Setting ι World where
  member := team.member
  answers := fun _ => answers
  notes := fun w _ => w
  drifts := fun w w' => w.now ≤ w'.now ∧
    forall key, w'.contents team.region key = w.contents team.region key
  permits := fun c move => forall n, move = .call n true -> InTime team c n

def Team.Empty {ι : Type} (team : Team ι) (w : World) : Prop :=
  forall key, w.contents team.region key = none

def Team.shared {ι : Type} (team : Team ι) : Shared team.setting where
  contents := World.contents
  region := team.region
  region_eq := team.region_eq
  id_injective := team.id_injective
  fits := team.fits
  call := fun h => h.1
  now := fun h => congrArg World.contents h
  readingPast := fun h => congrArg World.contents h
  note := fun _ _ => rfl
  drift := fun h _ => h.2 _

section

variable {ι : Type} [DecidableEq ι] (team : Team ι)

def Team.ledger : Ledger team.setting :=
  team.shared.exclusiveLedger fun h => h.2

theorem Team.sound_of_empty {w : World} (h : team.Empty w) : team.ledger.sound w := by
  constructor
  · intro i bytes hbytes
    cases (h _).symm.trans hbytes
  · intro key hkey
    exact absurd (h key) hkey

end

/-!
# Tasks that wait for a call
-/

theorem stakes_task (m : Member) (aim : Aim) (round : Round) (claim : Registration) :
    Stakes m claim ((Stage.waiting (.staking aim round claim)).task m) :=
  ⟨aim.phase, aim.concluded m round,
    congrArg Task.waiting (Spot.proc_staking m aim round claim).symm⟩

theorem verifies_task (m : Member) (aim : Aim) (round : Round) (claim : Registration) :
    Verifies m claim ((Stage.waiting (.verifying aim round claim)).task m) := by
  refine ⟨round.attempt, round.remaining,
    fun last => m.settleFrom aim.phase (round.attempt + 1) last round.remaining, aim.settled m,
    congrArg Task.waiting ?_⟩
  rw [← Spot.proc_verifying, Proc.bind_assoc]
  rfl

theorem refreshes_task (m : Member) (claim : Registration) :
    Refreshes m claim ((Stage.waiting (.refreshing claim)).task m) :=
  ⟨fun _ => .done .beaten, congrArg Task.waiting (Spot.proc_refreshing m claim).symm⟩

section

variable {ι : Type} {team : Team ι} {c : Cluster ι World Stage}

theorem InTime.staged {n : Nat} {t : Thread ι World Stage} {stage : Stage}
    (h : InTime team (c.enacted team.setting) n) (ht : c.threads n = some t)
    (htask : t.task = stage) (claim : Registration) :
    (Stakes (team.member t.owner) claim (stage.task (team.member t.owner)) ->
      c.world.now < t.last.now + team.delay.nanos) ∧
    (Verifies (team.member t.owner) claim (stage.task (team.member t.owner)) ->
      t.last.now + team.delay.nanos ≤ c.world.now) ∧
    (Refreshes (team.member t.owner) claim (stage.task (team.member t.owner)) ->
      (c.standing t.owner).status.isReady = true) := by
  rw [← htask]
  exact h (t.enacted team.setting) claim (threads_enacted ht)

end

/-!
# A member that registers alone
-/

theorem Stakes.puts {m : Member} {claim : Registration} {task : Task} (h : Stakes m claim task) :
    exists next, task =
      .waiting (.ask (.call (.put m.servers.name m.id.text (Storable.encode claim))) next) := by
  rcases h with ⟨expected, next, rfl⟩
  exact ⟨_, rfl⟩

theorem Verifies.lists {m : Member} {claim : Registration} {task : Task}
    (h : Verifies m claim task) :
    exists next, task = .waiting (.ask (.call (.list m.servers.name)) next) := by
  rcases h with ⟨attempt, remaining, again, next, rfl⟩
  exact ⟨_, rfl⟩

theorem Refreshes.puts {m : Member} {claim : Registration} {task : Task}
    (h : Refreshes m claim task) :
    exists next, task =
        .waiting (.ask (.call (.put m.servers.name m.id.text (Storable.encode claim))) next) ∧
      exists event rest, next (.ok none) = .ask (.report event) rest := by
  rcases h with ⟨next, rfl⟩
  exact ⟨_, rfl, _, _, rfl⟩

theorem next_eq_of_puts {region key : String} {bytes bytes' : Bytes}
    {next next' : Except RegistryError (Option Bytes) → Proc Outcome}
    (h : Proc.ask (.call (.put region key bytes)) next =
      .ask (.call (.put region key bytes')) next') :
    next = next' := by
  cases h
  rfl

section

variable {ι : Type} [DecidableEq ι] {team : Team ι} {c : Cluster ι World Stage} {n : Nat} {i : ι}
  {σ : Standing} {last w : World}

theorem inTime_moved {s : Spot}
    (h : forall claim,
      (Stakes (team.member i) claim (.waiting (s.proc (team.member i))) ->
        w.now < last.now + team.delay.nanos) ∧
      (Verifies (team.member i) claim (.waiting (s.proc (team.member i))) ->
        last.now + team.delay.nanos ≤ w.now) ∧
      (Refreshes (team.member i) claim (.waiting (s.proc (team.member i))) ->
        σ.status.isReady = true)) (b : Bool) :
    team.setting.permits ((c.moved n ⟨i, .waiting s, last⟩ σ w).enacted team.setting)
      (.call n b) := by
  intro k hk t claim ht
  cases hk
  rw [enacted_moved] at ht ⊢
  cases (Function.update_self ..).symm.trans ht
  have hstanding : ((c.enacted team.setting).moved n
      (Thread.enacted team.setting ⟨i, .waiting s, last⟩) σ w).standing i = σ :=
    Function.update_self ..
  refine ⟨(h claim).1, (h claim).2.1, fun hrefreshes => ?_⟩
  have hready := (h claim).2.2 hrefreshes
  rw [← hstanding] at hready
  exact hready

theorem permits_list {s : Spot}
    (hlist : exists next,
      s.proc (team.member i) = .ask (.call (.list (team.member i).servers.name)) next)
    (hlate : last.now + team.delay.nanos ≤ w.now) (b : Bool) :
    team.setting.permits ((c.moved n ⟨i, .waiting s, last⟩ σ w).enacted team.setting)
      (.call n b) := by
  rcases hlist with ⟨next, hproc⟩
  refine inTime_moved (fun claim => ⟨fun h => ?_, fun _ => hlate, fun h => ?_⟩) b
  · rcases h.puts with ⟨next', hputs⟩
    rw [hproc] at hputs
    cases hputs
  · rcases h.puts with ⟨next', hputs, _⟩
    rw [hproc] at hputs
    cases hputs

theorem permits_stake {aim : Aim} {round : Round} {claim : Registration}
    (hearly : w.now < last.now + team.delay.nanos) (b : Bool) :
    team.setting.permits
      ((c.moved n ⟨i, .waiting (.staking aim round claim), last⟩ σ w).enacted team.setting)
      (.call n b) := by
  refine inTime_moved (fun claim => ⟨fun _ => hearly, fun h => ?_, fun h => ?_⟩) b
  · rcases h.lists with ⟨next, hlists⟩
    cases hlists
  · -- a claim that has been put is not reported, but left to spread
    rcases h.puts with ⟨next, hputs, event, rest, hreport⟩
    injection hputs with hproc
    rw [← next_eq_of_puts hproc] at hreport
    cases hreport

/-!
# What a thread comes to by itself
-/

variable {rs : List Registration} {aim : Aim} {round : Round} {claim : Registration}

omit [DecidableEq ι] in
theorem permits_turn (c : Cluster ι World Stage) (n : Nat) :
    team.setting.permits (c.enacted team.setting) (.turn n) :=
  fun _ h => nomatch h

theorem moves_later (stage : Stage) (last : World) :
    Moves team.setting (c.moved n ⟨i, stage, last⟩ σ w)
      (c.moved n ⟨i, stage, last⟩ σ { w with now := w.now + team.delay.nanos }) :=
  .drift (fun _ h => nomatch h) ⟨Nat.le_add_right _ _, fun _ => rfl⟩

theorem reaches_staking (hlists : w.contents.Lists team.region rs)
    (hlate : last.now + team.delay.nanos ≤ w.now)
    (hserver : claim.serverId = (team.member i).id.text)
    (hnumber : claim.number = Numbering.lowestFree (team.member i).id.text rs) :
    Relation.ReflTransGen (Moves team.setting)
      (c.moved n ⟨i, .waiting (.listing aim round), last⟩ σ w)
      (c.moved n ⟨i, .waiting (.staking aim round claim), w⟩ σ w) := by
  have hcall : team.setting.Calls c n i σ (.listing aim round) last w
      (.ok (rs.map Storable.encode)) w := by
    refine ⟨permits_list ⟨_, rfl⟩ hlate _, ?_, rfl⟩
    rw [show (team.setting.member i).servers.name = team.region from team.region_eq i]
    exact hlists.answers
  have hlisted := reaches_call _ rfl hcall hlists.heard (permits_turn _ _)
    (.listed (t := claim.claimedAt) rfl)
  rw [show team.setting.member i = team.member i from rfl, ← hnumber, ← hserver] at hlisted
  exact hlisted

def World.claimed (w : World) (team : Team ι) (i : ι) (claim : Registration) : World where
  now := w.now
  contents := w.contents.assign team.region (team.member i).id.text (some (Storable.encode claim))

omit [DecidableEq ι] in
theorem lists_claimed (hlists : w.contents.Lists team.region rs)
    (hserver : claim.serverId = (team.member i).id.text) :
    (w.claimed team i claim).contents.Lists team.region
      (claim.written :: rs.filter (·.serverId ≠ (team.member i).id.text)) := by
  have hfits : claim.Fits := by
    unfold Registration.Fits
    rw [hserver]
    exact team.fits i
  rw [← hserver]
  unfold World.claimed
  rw [← hserver]
  exact hlists.put_written hfits

theorem reaches_spreading (hlists : w.contents.Lists team.region rs)
    (hearly : w.now < last.now + team.delay.nanos) :
    Relation.ReflTransGen (Moves team.setting)
      (c.moved n ⟨i, .waiting (.staking aim round claim), last⟩ σ w)
      (c.moved n ⟨i, .waiting (.spreading aim round claim), w.claimed team i claim⟩ σ
        (w.claimed team i claim)) := by
  rcases hlists.heardPrevious (team.member i).id.text with ⟨previous, hprevious⟩
  have hcall : team.setting.Calls c n i σ (.staking aim round claim) last w
      (.ok (w.contents team.region (team.member i).id.text)) (w.claimed team i claim) := by
    refine ⟨permits_stake hearly _, ?_, rfl⟩
    rw [show (team.setting.member i).servers.name = team.region from team.region_eq i]
    exact .put
  exact reaches_call _ rfl hcall hprevious (permits_turn _ _) .staked

theorem reaches_ready {settled : Settled} (hlists : w.contents.Lists team.region rs)
    (hlate : last.now + team.delay.nanos ≤ w.now)
    (hverdict : Numbering.verdict settled.claim rs ≠ .lost)
    (hsettled : Settled.ofClaim? settled.claim = some settled) (hσ : σ.status = .registering) :
    Relation.ReflTransGen (Moves team.setting)
      (c.moved n ⟨i, .waiting (.spreading .register round settled.claim), last⟩ σ w)
      (c.moved n ⟨i, .finished (.registered (.ok settled.claim.number)), w⟩
        ⟨.ready settled.claim.number, some settled⟩ w) := by
  have hcall : team.setting.Calls c n i σ (.verifying .register round settled.claim) last w
      (.ok (rs.map Storable.encode)) w := by
    refine ⟨permits_list ⟨_, rfl⟩ hlate _, ?_, rfl⟩
    rw [show (team.setting.member i).servers.name = team.region from team.region_eq i]
    exact hlists.answers
  have hsettle : σ.status.maySettle = true := by
    rw [hσ]
    rfl
  exact reaches_verdict hsettle (fun _ _ _ => permits_turn _ _) (fun _ h => nomatch h) hcall
    hlists.heard hverdict hsettled (.register hσ)

theorem Team.registers (team : Team ι) (settled : Settled) (hdelay : 0 < team.delay.nanos)
    (hlists : c.world.contents.Lists team.region rs) (hfresh : c.threads n = none)
    (hinactive : (c.standing i).status = .inactive)
    (hattempts : (team.member i).config.settleAttempts.toNat ≠ 0)
    (hserver : settled.claim.serverId = (team.member i).id.text)
    (hnumber : settled.claim.number = Numbering.lowestFree (team.member i).id.text rs)
    (hverdict : Numbering.verdict settled.claim
      (settled.claim.written :: rs.filter (·.serverId ≠ (team.member i).id.text)) ≠ .lost)
    (hsettled : Settled.ofClaim? settled.claim = some settled) :
    exists w, w.contents.Lists team.region
        (settled.claim.written :: rs.filter (·.serverId ≠ (team.member i).id.text)) ∧
      Relation.ReflTransGen (Moves team.setting) c
        (c.moved n ⟨i, .finished (.registered (.ok settled.claim.number)), w⟩
          ⟨.ready settled.claim.number, some settled⟩ w) := by
  rcases Nat.exists_eq_succ_of_ne_zero hattempts with ⟨remaining, hremaining⟩
  have hstart := moves_activate (S := team.setting) hfresh (fun _ h => nomatch h) hinactive
    hremaining
  let w : World := { c.world with now := c.world.now + team.delay.nanos }
  let w' : World := w.claimed team i settled.claim
  have hlists' : w.contents.Lists team.region rs := hlists
  have hput := lists_claimed hlists' hserver
  refine ⟨{ w' with now := w'.now + team.delay.nanos }, hput,
    .head hstart (.head (moves_later _ _) ?_)⟩
  refine (reaches_staking hlists' (Nat.le_refl _) hserver hnumber).trans ?_
  refine (reaches_spreading hlists' (Nat.lt_add_of_pos_right hdelay)).trans ?_
  refine .head (moves_later _ _) (reaches_ready ?_ (Nat.le_refl _) hverdict hsettled rfl)
  exact hput

end

end Settling
end Roster
