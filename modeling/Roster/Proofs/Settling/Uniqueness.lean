import Roster.Proofs.Settling.Team

/-!
# Settled numbers are unique

A claim is written within the delay from the listing that its number was taken from, and verified no
earlier than the delay after it was written.  So a claim that was taken from a listing without mine
is written before mine is verified, or never: verification sees it, and then the order of the claims
decides between the two.

A leap second inside a minute has no text of its own, so a claim made in one is read as a later one.
The order then decides for both.
-/

namespace Roster
namespace Settling

open Interleaving

section

variable {ι : Type} [DecidableEq ι] {team : Team ι} {c c' : Cluster ι World Stage}

theorem isOk_of_heardPrevious {answer : Except RegistryError (Option Bytes)}
    {previous : Option Registration} (h : heardPrevious answer = .ok previous) :
    answer.isOk = true := by
  cases answer with
  | error e => cases h
  | ok value => rfl

theorem succeeds_of_wrote {m : Member} {s : Spot} {answer : (s.effect m).Answer} {e : Registration}
    (h : (Stage.due s (s.reply m answer)).wrote? = some e) : succeeds _ answer = true := by
  cases s with
  | staking aim round held | refreshing held | restoring held =>
      cases hprevious : heardPrevious answer with
      | error e =>
          simp only [Spot.reply, hprevious, Stage.wrote?] at h
          cases h
      | ok previous => exact isOk_of_heardPrevious hprevious
  | listing aim round | spreading aim round held | verifying aim round held
  | backingOff aim round last time | withdrawing exit | checking held | removing => cases h

theorem staked_or_held (h : Orderly team.ledger c) {n : Nat} {t : Thread ι World Stage} {s : Spot}
    (ht : c.threads n = some t) (htask : t.task = .waiting s)
    (answer : (s.effect (team.member t.owner)).Answer)
    (hpermits : team.setting.permits (c.enacted team.setting) (.call n (succeeds _ answer)))
    {e : Registration} (hwritten : s.written? = some (some e))
    (hwrote : (Stage.due s (s.reply (team.member t.owner) answer)).wrote? = some e) :
    (exists aim round, t.task = .waiting (.staking aim round e) ∧
        c.world.now < t.last.now + team.delay.nanos) ∨
      team.ledger.held c.world t.owner = some e.written := by
  have hin := hpermits n (congrArg (Move.call n) (succeeds_of_wrote hwrote))
  cases s with
  | staking aim round claim =>
      cases hwritten
      exact Or.inl ⟨aim, round, htask, (hin.staged ht htask e).1 (stakes_task _ aim round e)⟩
  | refreshing claim =>
      cases hwritten
      have hready := (hin.staged ht htask e).2.2 (refreshes_task _ e)
      cases hsettled : (c.standing t.owner).settled with
      | none => exact absurd hsettled ((h.proper.standing t.owner).settled_of_ready hready)
      | some settled =>
          have hclaim : e = settled.claim :=
            h.beats n t _ settled ht (spot?_of_waiting htask) hsettled
          rw [hclaim]
          exact Or.inr (h.settled t.owner settled hsettled)
  | restoring claim => exact (h.steady n t _ ht (spot?_of_waiting htask)).elim
  | withdrawing exit | removing => cases hwritten
  | listing aim round | spreading aim round held | verifying aim round held
  | backingOff aim round last time | checking held => cases hwritten

theorem entry_of_moves (h : Orderly team.ledger c) (hmove : Moves team.setting c c') {j : ι}
    {e : Registration} (he : team.ledger.held c'.world j = some e) :
    team.ledger.held c.world j = some e ∨
      exists n t aim round claim, c.threads n = some t ∧ t.owner = j ∧
        t.task = .waiting (.staking aim round claim) ∧ e = claim.written ∧
        c.world.now < t.last.now + team.delay.nanos := by
  rcases team.ledger.written_of_moves h.proper h.sound hmove he with hheld |
    ⟨n, t, s, claim, answer, ht, rfl, htask, hpermits, hwritten, hwrote, rfl⟩
  · exact Or.inl hheld
  · rcases staked_or_held h ht htask answer hpermits hwritten hwrote with
      ⟨aim, round, htask', hnow⟩ | hheld
    · exact Or.inr ⟨n, t, aim, round, claim, ht, rfl, htask', rfl, hnow⟩
    · exact Or.inl hheld

/-!
# Safe claims
-/

/-- The claim outranks all others to its number, and no rival can claim the number any more. -/
structure Safe (team : Team ι) (c : Cluster ι World Stage) (i : ι) (claim : Registration) :
    Prop where
  outranks : forall j e, j ≠ i -> team.ledger.held c.world j = some e -> e.number = claim.number ->
    claim.outranks e = true
  expired : forall k u, c.threads k = some u -> u.owner ≠ i ->
    stakes? (team.member u.owner).id.text u.task = some claim.number ->
    u.last.now + team.delay.nanos ≤ c.world.now

theorem now_le_of_moves (hmove : Moves team.setting c c') : c.world.now ≤ c'.world.now := by
  apply keeps_of_moves (P := fun w => c.world.now ≤ w.now) hmove (fun _ _ hw => hw) ?_ ?_ ?_ ?_
    (Nat.le_refl _)
  · intro i w t w' hread hw
    rw [show w' = w from hread]
    exact hw
  · intro i w previous reading w' hread hw
    rw [show w' = w from hread]
    exact hw
  · intro i w e answer w' hanswer hw
    exact hw.trans (Nat.le_of_eq hanswer.2.symm)
  · intro w w' hdrift hw
    exact hw.trans hdrift.1

theorem Safe.move (h : Orderly team.ledger c) (hmove : Moves team.setting c c') {i : ι}
    {claim : Registration} (hheld : team.ledger.held c.world i = some claim.written)
    (hnumber : claim.number.toNat < Numbering.highest) (hsafe : Safe team c i claim) :
    Safe team c' i claim where
  outranks := by
    intro j e hne he hnum
    rcases entry_of_moves h hmove he with hbefore |
      ⟨n, t, aim, round, staked, ht, rfl, htask, rfl, hnow⟩
    · exact hsafe.outranks j e hne hbefore hnum
    · have hstakes : stakes? (team.member t.owner).id.text t.task = some claim.number := by
        rw [htask, ← hnum]
        rfl
      have hexpired := hsafe.expired n t ht hne hstakes
      omega
  expired := by
    intro k u hu hne hstakes
    rcases team.shared.rival_of_moves h.sound.1 h.sound.2 hmove hheld hnumber hu hne hstakes with
      ⟨before, hbefore, howner, hlast, hstakes⟩
    have hexpired := hsafe.expired k before hbefore (by rw [howner]; exact hne)
      (by rw [howner]; exact hstakes)
    have hnow := now_le_of_moves hmove
    rw [← hlast]
    omega

/-!
# The invariant
-/

structure Timely (team : Team ι) (c : Cluster ι World Stage) : Prop where
  orderly : Orderly team.ledger c
  past : forall n t, c.threads n = some t -> t.last.now ≤ c.world.now
  raced : forall n t k u claim, c.threads n = some t -> t.task.claim? = some claim ->
    (c.standing t.owner).status = .registering -> c.threads k = some u -> u.owner ≠ t.owner ->
    claim.number.toNat < Numbering.highest ->
    stakes? (team.member u.owner).id.text u.task = some claim.number -> u.last.now ≤ t.last.now
  verified : forall n t aim round claim live, c.threads n = some t ->
    t.task = .due (.verifying aim round claim) (.ok live) ->
    (c.standing t.owner).status = .registering -> claim.number.toNat < Numbering.highest ->
    Numbering.verdict claim live ≠ .lost -> Safe team c t.owner claim
  settled : forall i settled, (c.standing i).settled = some settled ->
    Safe team c i settled.claim
  undisputed : Undisputed c

theorem Timely.initial {w : World} (h : team.Empty w) : Timely team (.initial w) where
  orderly := .initial (team.sound_of_empty h)
  past := fun _ _ h => (nomatch h)
  raced := fun _ _ _ _ _ h => (nomatch h)
  verified := fun _ _ _ _ _ _ h => (nomatch h)
  settled := fun _ _ h => (nomatch h)
  undisputed := fun _ _ h => (nomatch h)

theorem Timely.past_move (h : Timely team c) (hmove : Moves team.setting c c') {n : Nat}
    {t : Thread ι World Stage} (ht : c'.threads n = some t) : t.last.now ≤ c'.world.now := by
  rcases last_of_moves hmove ht with hlast | ⟨before, hbefore, hlast⟩
  · rw [hlast]
  · rw [hlast]
    exact Nat.le_trans (h.past n before hbefore) (now_le_of_moves hmove)

theorem Timely.raced_move (h : Timely team c) (hmove : Moves team.setting c c') {n k : Nat}
    {t u : Thread ι World Stage} {claim : Registration} (ht : c'.threads n = some t)
    (hclaim : t.task.claim? = some claim)
    (hstatus : (c'.standing t.owner).status = .registering) (hu : c'.threads k = some u)
    (hne : u.owner ≠ t.owner) (hnumber : claim.number.toNat < Numbering.highest)
    (hstakes : stakes? (team.member u.owner).id.text u.task = some claim.number) :
    u.last.now ≤ t.last.now := by
  rcases claim_of_moves hmove ht hclaim with ⟨before, hbefore, howner, ⟨_, hlast⟩ |
    ⟨hclaim, hlast | hlast⟩⟩
  · rw [hlast]
    exact h.past_move hmove hu
  · rw [← howner] at hstatus hne
    rw [hlast]
    rcases spot?_of_claim? hclaim with ⟨s, hs⟩
    have hregistering := h.orderly.proper.registering_of_moves hmove hbefore hs hstatus
    have hheld := h.orderly.claimed n before claim hbefore hclaim hregistering
    rcases team.shared.rival_of_moves h.orderly.sound.1 h.orderly.sound.2 hmove hheld hnumber hu
        hne hstakes with
      ⟨rival, hrival, hrivalOwner, hrivalLast, hrivalStakes⟩
    rw [← hrivalLast]
    exact h.raced n before k rival claim hbefore hclaim hregistering hrival
      (by rw [hrivalOwner]; exact hne) hnumber (by rw [hrivalOwner]; exact hrivalStakes)
  · rw [hlast]
    exact h.past_move hmove hu

theorem isOk_of_heardListing {answer : Except RegistryError (List Bytes)}
    {live : List Registration} (h : heardListing answer = .ok live) : answer.isOk = true := by
  cases answer with
  | error e => cases h
  | ok values => rfl

theorem Timely.verified_move (h : Timely team c) (hmove : Moves team.setting c c') {n : Nat}
    {t : Thread ι World Stage} {aim : Aim} {round : Round} {claim : Registration}
    {live : List Registration} (ht : c'.threads n = some t)
    (htask : t.task = .due (.verifying aim round claim) (.ok live))
    (hstatus : (c'.standing t.owner).status = .registering)
    (hnumber : claim.number.toNat < Numbering.highest)
    (hverdict : Numbering.verdict claim live ≠ .lost) : Safe team c' t.owner claim := by
  rcases due_of_moves hmove ht htask with hsame |
    ⟨before, hbefore, howner, hwaiting, hstanding, hpause | ⟨answer, hreply, hpermits, hanswer⟩⟩
  · have hregistering := h.orderly.proper.registering_of_moves hmove hsame (spot?_of_due htask)
      hstatus
    have hheld := h.orderly.claimed n t claim hsame (by rw [htask]; rfl) hregistering
    exact (h.verified n t aim round claim live hsame htask hregistering hnumber hverdict).move
      h.orderly hmove hheld hnumber
  · cases hpause
  · -- the verifying listing is late enough for all rivals that have listed before the claim
    rw [hstanding, ← howner] at hstatus
    have hnamed := h.orderly.proper.named n before _ hbefore (spot?_of_waiting hwaiting)
    have hheld := h.orderly.claimed n before claim hbefore (by rw [hwaiting]; rfl) hstatus
    have hin := hpermits n (congrArg (Move.call n) (isOk_of_heardListing hreply.symm))
    have hlate := (hin.staged hbefore hwaiting claim).2.1 (verifies_task _ aim round claim)
    have hnow := now_le_of_moves hmove
    refine ⟨?_, ?_⟩
    · intro j e hne he hnum
      have hkeep := team.ledger.list h.orderly.sound hanswer
      rw [hkeep.2] at he
      rw [howner] at hnamed
      exact (team.shared.verdict_ne_lost_iff h.orderly.sound.1 h.orderly.sound.2 hnamed.2 hanswer
        hreply.symm).mp hverdict j e hne he hnum
    · intro k u hu hne hstakes
      rw [← howner] at hne
      rcases team.shared.rival_of_moves h.orderly.sound.1 h.orderly.sound.2 hmove hheld hnumber hu
        hne hstakes with
        ⟨rival, hrival, hrivalOwner, hrivalLast, hrivalStakes⟩
      have hraced := h.raced n before k rival claim hbefore (by rw [hwaiting]; rfl) hstatus hrival
        (by rw [hrivalOwner]; exact hne) hnumber (by rw [hrivalOwner]; exact hrivalStakes)
      rw [← hrivalLast]
      omega

theorem Timely.settled_move (h : Timely team c) (hmove : Moves team.setting c c') {i : ι}
    {settled : Settled} (hsettled : (c'.standing i).settled = some settled) :
    Safe team c' i settled.claim := by
  have hproper := h.orderly.proper.move hmove
  have hnumber := number_lt_highest ((hproper.standing i).of_settled settled hsettled).2
  rcases h.orderly.settled_of_moves hmove hsettled with ⟨before, hbefore, hretains⟩ |
    ⟨n, t, aim, round, live, ht, rfl, hstatus, htask, hverdict, _⟩
  · rw [hretains.claim_eq] at hnumber ⊢
    exact (h.settled i before hbefore).move h.orderly hmove (h.orderly.settled i before hbefore)
      hnumber
  · have hheld := h.orderly.claimed n t settled.claim ht (by rw [htask]; rfl) hstatus
    exact (h.verified n t aim round settled.claim live ht htask hstatus hnumber hverdict).move
      h.orderly hmove hheld hnumber

theorem Timely.verdict_ne_lost (h : Timely team c) {i : ι} {settled : Settled}
    (hsettled : (c.standing i).settled = some settled)
    {answer : Except RegistryError (List Bytes)} {w : World}
    (hanswer : answers c.world (.call (.list (team.member i).servers.name)) answer w)
    {live : List Registration} (hlive : heardListing answer = .ok live) :
    Numbering.verdict settled.claim live ≠ .lost := by
  have hproper := ((h.orderly.proper.standing i).of_settled settled hsettled).2
  refine (team.shared.verdict_ne_lost_iff h.orderly.sound.1 h.orderly.sound.2 hproper.serverId_eq
    hanswer hlive).mpr ?_
  exact (h.settled i settled hsettled).outranks

theorem Timely.move (h : Timely team c) (hmove : Moves team.setting c c') : Timely team c' where
  orderly := h.orderly.move h.undisputed hmove
  past := fun _ _ ht => h.past_move hmove ht
  raced := fun _ _ _ _ _ ht hclaim hstatus hu hne hnumber hstakes =>
    h.raced_move hmove ht hclaim hstatus hu hne hnumber hstakes
  verified := fun _ _ _ _ _ _ ht htask hstatus hnumber hverdict =>
    h.verified_move hmove ht htask hstatus hnumber hverdict
  settled := fun _ _ hsettled => h.settled_move hmove hsettled
  undisputed := h.orderly.undisputed_move h.undisputed hmove
    fun _ _ _ _ _ hsettled hanswer hlive => h.verdict_ne_lost hsettled hanswer hlive

/-!
# Numbers are unique
-/

theorem Timely.crossed (h : Timely team c) {i j : ι} {number : UInt32}
    (hi : (c.standing i).status = .ready number) (hj : (c.standing j).status = .ready number)
    (hne : i ≠ j) :
    exists a b, (c.standing i).settled = some a ∧ (c.standing j).settled = some b ∧
      Numbering.Crossed a.claim b.claim := by
  have hsettled {k : ι} (hk : (c.standing k).status = .ready number) :
      exists settled, (c.standing k).settled = some settled ∧ settled.claim.number = number := by
    have hproper := h.orderly.proper.standing k
    cases hs : (c.standing k).settled with
    | none => exact absurd hs (hproper.settled_of_ready (by rw [hk]; rfl))
    | some settled =>
        have hstatus := (hproper.of_settled settled hs).1
        rw [hk] at hstatus
        cases hstatus
        exact ⟨settled, rfl, rfl⟩
  rcases hsettled hi with ⟨a, ha, hanumber⟩
  rcases hsettled hj with ⟨b, hb, hbnumber⟩
  have hsame : b.claim.number = a.claim.number := hbnumber.trans hanumber.symm
  refine ⟨a, b, ha, hb, ?_, ?_⟩
  · exact (h.settled i a ha).outranks j _ (Ne.symm hne) (h.orderly.settled j b hb) hsame
  · exact (h.settled j b hb).outranks i _ hne (h.orderly.settled i a ha) hsame.symm

theorem Timely.uncontested (h : Timely team c) {n : Nat} {t : Thread ι World Stage}
    (ht : c.threads n = some t) (hready : (c.standing t.owner).status.isReady = true)
    {claim : Registration} {next : Unit → Proc Outcome}
    (htask : t.task.task (team.member t.owner) =
      .waiting (((team.member t.owner).checkCollision claim).bind next))
    {answer : Except RegistryError (List Bytes)} {w : World}
    (hanswer : answers c.world (.call (.list (team.member t.owner).servers.name)) answer w)
    {live : List Registration} (hlive : heardListing answer = .ok live) :
    Numbering.verdict claim live ≠ .lost := by
  have hproper := h.orderly.proper.standing t.owner
  cases hsettled : (c.standing t.owner).settled with
  | none => exact absurd hsettled (hproper.settled_of_ready hready)
  | some settled =>
      rcases stage_of_call (htask.trans (congrArg Task.waiting (checkCollision_bind _ _ _))) with
        ⟨s, hs, _, hproc⟩
      have hbeats := h.orderly.beats n t s settled ht (spot?_of_waiting hs) hsettled
      cases s with
      | refreshing held => cases hproc
      | checking held =>
          have hheld : held = settled.claim := hbeats
          have hkept := h.verdict_ne_lost hsettled hanswer hlive
          rw [← hheld] at hkept
          -- both procedures hear the same listing, and the one of the spot ends with it
          injection hproc with _ hnext
          have hheard := congrFun hnext answer
          simp only [Spot.reply, hlive, Spot.next, if_neg hkept] at hheard
          intro hlost
          rw [if_pos hlost] at hheard
          cases hheard
      | listing aim round | staking aim round held | spreading aim round held
      | verifying aim round held | backingOff aim round last time | withdrawing exit
      | restoring held | removing => exact hbeats.elim

/-- In every run, ready members have different numbers, unless their claims come before each other
as they are read back, which takes a claim that was made in a leap second inside a minute; and no
heartbeat of a ready member finds its number lost. -/
theorem ready_numbers_unique {w : World} (hempty : team.Empty w) {c : Cluster ι World Task}
    (hrun : Runs team.setting (.initial w) c) :
    (forall i j number, (c.standing i).status = .ready number ->
      (c.standing j).status = .ready number -> i ≠ j ->
      exists a b, (c.standing i).settled = some a ∧ (c.standing j).settled = some b ∧
        Numbering.Crossed a.claim b.claim ∧
        ¬ (a.claim.claimedAt.HasText ∧ b.claim.claimedAt.HasText)) ∧
    forall n t claim next, c.threads n = some t -> (c.standing t.owner).status.isReady = true ->
      t.task = .waiting (((team.member t.owner).checkCollision claim).bind next) ->
      forall answer w' live,
        answers c.world (.call (.list (team.member t.owner).servers.name)) answer w' ->
        heardListing answer = .ok live -> Numbering.verdict claim live ≠ .lost := by
  rcases holds_of_runs (P := Timely team) (fun _ _ hmove h => h.move hmove) (.initial hempty) hrun
    with ⟨c', rfl, h⟩
  constructor
  · intro i j number hi hj hne
    rcases h.crossed hi hj hne with ⟨a, b, ha, hb, hcrossed⟩
    exact ⟨a, b, ha, hb, hcrossed, hcrossed.not_hasText⟩
  · intro n t claim next hu hready htask answer w' live hanswer hlive
    rcases thread_of_enacted hu with ⟨t, ht, rfl⟩
    exact h.uncontested ht hready htask hanswer hlive

end

def pair : Team Bool where
  toFleet := .pair
  delay := .ofMillis 1000
  delay_eq := fun _ => rfl

theorem pair_ready_numbers_unique :
    exists c a b, pair.Empty ⟨0, fun _ _ => none⟩ ∧
      Runs pair.setting (.initial ⟨0, fun _ _ => none⟩) c ∧
      (c.standing false).status = .ready a ∧ (c.standing true).status = .ready b ∧ a ≠ b := by
  let first : Settled := ⟨⟨"a", 0, .epoch⟩, ⟨0, 0⟩⟩
  let second : Settled := ⟨⟨"b", 1, .epoch⟩, ⟨1, 0⟩⟩
  have hempty : pair.Empty ⟨0, fun _ _ => none⟩ := fun _ => rfl
  have htext : Instant.epoch.HasText := by decide
  have hnumber : first.claim.number = Numbering.lowestFree "a" [] := by
    rw [Numbering.lowestFree_eq .nil]
    rfl
  have hnumber' : second.claim.number = Numbering.lowestFree "b" [first.claim.written] := by
    rw [Numbering.lowestFree_eq (List.pairwise_singleton _ _)]
    rfl
  rcases pair.registers (c := .initial ⟨0, fun _ _ => none⟩) (n := 0) (i := false) first (by decide)
    (Contents.lists_nil fun _ => rfl) rfl rfl (by decide) rfl hnumber (by decide) rfl with
    ⟨w, hlists, hfirst⟩
  let c : Cluster Bool World Stage := Cluster.moved (.initial ⟨0, fun _ _ => none⟩) 0
    ⟨false, .finished (.registered (.ok 0)), w⟩ ⟨.ready 0, some first⟩ w
  rcases pair.registers (c := c) (n := 1) (i := true) second (by decide) hlists rfl rfl (by decide)
    rfl hnumber' (by decide) rfl with ⟨w', _, hsecond⟩
  have hrun := runs_of_moves (hfirst.trans hsecond)
  refine ⟨_, 0, 1, hempty, hrun, rfl, rfl, ?_⟩
  intro heq
  rcases (ready_numbers_unique hempty hrun).1 false true 0 rfl (congrArg Status.ready heq.symm)
    (by decide) with ⟨a, b, ha, hb, _, hleap⟩
  cases ha
  cases hb
  exact hleap ⟨htext, htext⟩

/-!
# A number that both members take
-/

/-- A thread of one of two members, with what it has last seen and how its member stands. -/
structure Part where
  stage : Stage
  last : World
  standing : Standing

namespace Part

def listing (round : Round) (last : World) : Part :=
  ⟨.waiting (.listing .register round), last, ⟨.registering, none⟩⟩

def staking (round : Round) (settled : Settled) (last : World) : Part :=
  ⟨.waiting (.staking .register round settled.claim), last, ⟨.registering, none⟩⟩

def spreading (round : Round) (settled : Settled) (last : World) : Part :=
  ⟨.waiting (.spreading .register round settled.claim), last, ⟨.registering, none⟩⟩

def ready (settled : Settled) (last : World) : Part :=
  ⟨.finished (.registered (.ok settled.claim.number)), last,
    ⟨.ready settled.claim.number, some settled⟩⟩

end Part

def pair.outset : World := ⟨0, fun _ _ => none⟩

def both (p q : Part) (w : World) : Cluster Bool World Stage :=
  ((Cluster.initial pair.outset).moved 0 ⟨false, p.stage, p.last⟩ p.standing pair.outset).moved 1
    ⟨true, q.stage, q.last⟩ q.standing w

theorem both_comm (p q : Part) (w : World) : both p q w =
    ((Cluster.initial pair.outset).moved 1 ⟨true, q.stage, q.last⟩ q.standing pair.outset).moved 0
      ⟨false, p.stage, p.last⟩ p.standing w :=
  moved_comm (t := ⟨false, p.stage, p.last⟩) (u := ⟨true, q.stage, q.last⟩) (by decide)
    (fun h => nomatch h) _ _ _

section

variable {first second : Settled} {w last last' : World}

theorem both_reach_staking (hserver : first.claim.serverId = "a")
    (hserver' : second.claim.serverId = "b") (hnumber : first.claim.number = 0)
    (hnumber' : second.claim.number = 0) :
    exists round w, w.contents.Lists pair.region [] ∧
      Relation.ReflTransGen (Moves pair.setting) (.initial pair.outset)
        (both (.staking round first w) (.staking round second w) w) := by
  let round : Round := ⟨1, 9⟩
  let listing : Part := .listing round pair.outset
  let w : World := { pair.outset with now := pair.delay.nanos }
  have hlists : w.contents.Lists pair.region [] := Contents.lists_nil fun _ => rfl
  have hlate : pair.outset.now + pair.delay.nanos ≤ w.now := Nat.le_of_eq (Nat.zero_add _)
  have hfree (id : String) : Numbering.lowestFree id [] = 0 := by
    rw [Numbering.lowestFree_eq .nil]
    rfl
  -- both have begun before either of them lists
  have hstart : Moves pair.setting (.initial pair.outset)
      ((Cluster.initial pair.outset).moved 0 ⟨false, listing.stage, listing.last⟩
        listing.standing pair.outset) :=
    moves_activate (i := false) rfl (fun _ h => nomatch h) rfl rfl
  have hstart' : Moves pair.setting _ (both listing listing pair.outset) :=
    moves_activate (i := true) rfl (fun _ h => nomatch h) rfl rfl
  have hpass : Moves pair.setting (both listing listing pair.outset) (both listing listing w) :=
    .drift (fun _ h => nomatch h) ⟨Nat.zero_le _, fun _ => rfl⟩
  have hfirst : Relation.ReflTransGen (Moves pair.setting) (both listing listing w)
      (both (.staking round first w) listing w) := by
    rw [both_comm, both_comm]
    exact reaches_staking hlists hlate hserver (hnumber.trans (hfree "a").symm)
  have hsecond : Relation.ReflTransGen (Moves pair.setting)
      (both (.staking round first w) listing w)
      (both (.staking round first w) (.staking round second w) w) :=
    reaches_staking hlists hlate hserver' (hnumber'.trans (hfree "b").symm)
  exact ⟨round, w, hlists, .head hstart (.head hstart' (.head hpass (hfirst.trans hsecond)))⟩

theorem both_reach_spreading (round : Round) (hserver : first.claim.serverId = "a")
    (hserver' : second.claim.serverId = "b") (hlists : w.contents.Lists pair.region []) :
    exists last last' w', w'.contents.Lists pair.region
        [second.claim.written, first.claim.written] ∧
      last.now + pair.delay.nanos ≤ w'.now ∧ last'.now + pair.delay.nanos ≤ w'.now ∧
      Relation.ReflTransGen (Moves pair.setting)
        (both (.staking round first w) (.staking round second w) w)
        (both (.spreading round first last) (.spreading round second last') w') := by
  let last : World := w.claimed pair false first.claim
  let last' : World := last.claimed pair true second.claim
  let w' : World := { last' with now := last'.now + pair.delay.nanos }
  have hearly : w.now < w.now + pair.delay.nanos := Nat.lt_add_of_pos_right (by decide)
  have hhalf : last.contents.Lists pair.region [first.claim.written] :=
    lists_claimed hlists hserver
  have hfull : last'.contents.Lists pair.region [second.claim.written, first.claim.written] := by
    have hother : decide (first.claim.written.serverId ≠ (pair.member true).id.text) = true := by
      change decide (first.claim.serverId ≠ "b") = true
      rw [hserver]
      decide
    have hput := lists_claimed (i := true) hhalf hserver'
    rw [List.filter_singleton, hother] at hput
    exact hput
  have hfirst : Relation.ReflTransGen (Moves pair.setting)
      (both (.staking round first w) (.staking round second w) w)
      (both (.spreading round first last) (.staking round second w) last) := by
    rw [both_comm, both_comm]
    exact reaches_spreading hlists hearly
  have hsecond : Relation.ReflTransGen (Moves pair.setting)
      (both (.spreading round first last) (.staking round second w) last)
      (both (.spreading round first last) (.spreading round second last') last') :=
    reaches_spreading (w := last) hhalf hearly
  have hpass : Moves pair.setting
      (both (.spreading round first last) (.spreading round second last') last')
      (both (.spreading round first last) (.spreading round second last') w') := moves_later _ _
  exact ⟨last, last', w', hfull, Nat.le_refl _, Nat.le_refl _,
    hfirst.trans (hsecond.trans (.single hpass))⟩

theorem both_reach_ready (round : Round)
    (hcrossed : Numbering.Crossed first.claim second.claim)
    (hsettled : Settled.ofClaim? first.claim = some first)
    (hsettled' : Settled.ofClaim? second.claim = some second)
    (hlists : w.contents.Lists pair.region [second.claim.written, first.claim.written])
    (hlate : last.now + pair.delay.nanos ≤ w.now) (hlate' : last'.now + pair.delay.nanos ≤ w.now) :
    Relation.ReflTransGen (Moves pair.setting)
      (both (.spreading round first last) (.spreading round second last') w)
      (both (.ready first w) (.ready second w) w) := by
  have hwins : Numbering.verdict first.claim [second.claim.written, first.claim.written] ≠
      .lost := by
    refine Numbering.verdict_ne_lost_iff.mpr fun e he _ hserver => ?_
    rcases List.mem_pair.mp he with rfl | rfl
    · exact hcrossed.left
    · exact absurd rfl hserver
  have hwins' : Numbering.verdict second.claim [second.claim.written, first.claim.written] ≠
      .lost := by
    refine Numbering.verdict_ne_lost_iff.mpr fun e he _ hserver => ?_
    rcases List.mem_pair.mp he with rfl | rfl
    · exact absurd rfl hserver
    · exact hcrossed.right
  have hfirst : Relation.ReflTransGen (Moves pair.setting)
      (both (.spreading round first last) (.spreading round second last') w)
      (both (.ready first w) (.spreading round second last') w) := by
    rw [both_comm, both_comm]
    exact reaches_ready hlists hlate hwins hsettled rfl
  have hsecond : Relation.ReflTransGen (Moves pair.setting)
      (both (.ready first w) (.spreading round second last') w)
      (both (.ready first w) (.ready second w) w) :=
    reaches_ready hlists hlate' hwins' hsettled' rfl
  exact hfirst.trans hsecond

/-- Whatever two claims come before each other as they are read back, there is a run in which both
are settled. -/
theorem exists_ready_of_crossed (first second : Settled) (hserver : first.claim.serverId = "a")
    (hserver' : second.claim.serverId = "b") (hnumber : first.claim.number = 0)
    (hnumber' : second.claim.number = 0)
    (hcrossed : Numbering.Crossed first.claim second.claim)
    (hsettled : Settled.ofClaim? first.claim = some first)
    (hsettled' : Settled.ofClaim? second.claim = some second) :
    exists c, Runs pair.setting (.initial pair.outset) c ∧
      c.standing false = ⟨.ready 0, some first⟩ ∧ c.standing true = ⟨.ready 0, some second⟩ := by
  rcases both_reach_staking hserver hserver' hnumber hnumber' with
    ⟨round, w, hlists, hstaking⟩
  rcases both_reach_spreading round hserver hserver' hlists with
    ⟨last, last', w', hlists', hlate, hlate', hspreading⟩
  have hready := both_reach_ready round hcrossed hsettled hsettled' hlists' hlate hlate'
  refine ⟨_, runs_of_moves (hstaking.trans (hspreading.trans hready)), ?_, ?_⟩
  · rw [← hnumber]
    rfl
  · rw [← hnumber']
    rfl

end

/-- The first member claims a number in a leap second inside a minute, and the second one claims it
just afterwards.  Each takes the claim of the other for the later one, and both take the number. -/
theorem pair_ready_with_one_number :
    exists c, pair.Empty ⟨0, fun _ _ => none⟩ ∧
      Runs pair.setting (.initial ⟨0, fun _ _ => none⟩) c ∧
      (c.standing false).status = .ready 0 ∧ (c.standing true).status = .ready 0 := by
  have hcrossed : Numbering.Crossed ⟨"a", 0, .insideMinute⟩ ⟨"b", 0, .afterwards⟩ :=
    ⟨by decide, by decide⟩
  rcases exists_ready_of_crossed ⟨_, ⟨0, 0⟩⟩ ⟨_, ⟨0, 0⟩⟩ rfl rfl rfl rfl hcrossed rfl rfl with
    ⟨c, hrun, hfirst, hsecond⟩
  exact ⟨c, fun _ => rfl, hrun, congrArg Standing.status hfirst, congrArg Standing.status hsecond⟩

end Settling
end Roster
