import Roster.Proofs.Issuing.Uninterrupted
import Roster.Proofs.Settling.Rivals

/-!
# What the clock has shown

Ids and claims show the clock at the moment they were made.  A claim that has had time to spread is
behind the clock, because every settle delay lasts a millisecond at least.
-/

namespace Roster
namespace Uninterrupted

open Interleaving UniqueId

def spread? : Stage → Option Registration
  | .due (.spreading _ _ claim) _ | .waiting (.verifying _ _ claim)
  | .due (.verifying _ _ claim) _ => some claim
  | _ => none

theorem claim?_of_spread? {stage : Stage} {claim : Registration} (h : spread? stage = some claim) :
    stage.claim? = some claim ∧ running stage = true := by
  cases stage with
  | waiting s =>
      cases s with
      | verifying aim round held => exact ⟨h, rfl⟩
      | listing aim round | staking aim round held | spreading aim round held
      | backingOff aim round last time | withdrawing exit | refreshing held | checking held
      | restoring held | removing => cases h
  | due s reply =>
      cases s with
      | spreading aim round held | verifying aim round held => exact ⟨h, rfl⟩
      | listing aim round | staking aim round held | backingOff aim round last time
      | withdrawing exit | refreshing held | checking held | restoring held | removing => cases h
  | finished outcome => cases h

theorem spread?_of_resumes {ι : Type} {S : Setting ι World} {i : ι} {σ σ' : Standing} {w w' : World}
    {s : Spot} {reply : s.Reply} {stage : Stage} {claim : Registration}
    (h : Resumes S i σ w s reply stage σ' w') (hspread : spread? stage = some claim) :
    spread? (.due s reply) = some claim := by
  cases h.ensues with
  | verify => exact hspread
  | retreat hretreats => cases hretreats.claim?_eq.symm.trans (claim?_of_spread? hspread).1
  | stake _ | spread | check | register | beat | deregister => cases hspread

abbrev Plain {ι : Type} (c : Cluster ι World Stage) : Prop :=
  IssuedIn (fun w => w.clock.isLeapSecond = false) c

structure Timed {ι : Type} (c : Cluster ι World Stage) : Prop where
  inRange : InRange c.world.clock.millis
  elapsed : forall n t, c.threads n = some t -> Elapses t.last c.world
  issued : forall n t id, c.threads n = some t -> t.task.issued? = some id ->
    InRange t.last.clock.millis ∧ id.elapsed = elapsedAt t.last.clock.millis
  previous : forall i settled, (c.standing i).settled = some settled ->
    forall t, c.world.clock ≤ t -> settled.issuer.previous ≤ elapsedAt t.millis
  staking : forall n t aim round claim, c.threads n = some t ->
    t.task = .waiting (.staking aim round claim) -> claim.claimedAt = c.world.clock
  claimed : forall n t claim, c.threads n = some t -> t.task.claim? = some claim ->
    claim.claimedAt ≤ t.last.clock
  spread : forall n t claim, c.threads n = some t -> spread? t.task = some claim ->
    claim.claimedAt.ticks < c.world.clock.ticks

section

variable {ι : Type} {c : Cluster ι World Stage}

theorem Timed.initial {w : World} (h : InRange w.clock.millis) :
    Timed (.initial w : Cluster ι World Stage) where
  inRange := h
  elapsed := fun _ _ h => (nomatch h)
  issued := fun _ _ _ h => (nomatch h)
  previous := fun _ _ h => (nomatch h)
  staking := fun _ _ _ _ _ h => (nomatch h)
  claimed := fun _ _ _ h => (nomatch h)
  spread := fun _ _ _ h => (nomatch h)

theorem Timed.reading (h : Timed c) {i : ι} {settled : Settled}
    (hsettled : (c.standing i).settled = some settled) {reading : Int} {w : World}
    (hread : answers c.world (.readingPast settled.issuer.previous) reading w) :
    settled.issuer.previous < elapsedAt reading ∧ InRange reading ∧ c.world.clock ≤ w.clock ∧
      w.clock.millis = reading := by
  rcases hread with ⟨t, hclock, hrange, rfl, hne, rfl⟩
  have hprevious := h.previous i settled hsettled t hclock
  exact ⟨by omega, hrange, hclock, rfl⟩

end

section

variable {ι : Type} [DecidableEq ι] {fleet : Fleet ι} {c c' : Cluster ι World Stage}

theorem Timed.elapsed_move (h : Timed c) (hmove : Moves (setting fleet) c c') {n : Nat}
    {t : Thread ι World Stage} (ht : c'.threads n = some t) : Elapses t.last c'.world := by
  have helapses := elapses_of_moves hmove h.inRange
  rcases last_of_moves hmove ht with hlast | ⟨before, hbefore, hlast⟩
  · rw [hlast]
    exact elapses_refl helapses.inRange
  · rw [hlast]
    exact (h.elapsed n before hbefore).trans helapses

theorem Timed.issued_move (h : Timed c) (hmove : Moves (setting fleet) c c') {n : Nat}
    {t : Thread ι World Stage} {id : UniqueId} (ht : c'.threads n = some t)
    (hid : t.task.issued? = some id) :
    InRange t.last.clock.millis ∧ id.elapsed = elapsedAt t.last.clock.millis := by
  rcases issued_of_moves hmove ht hid with hsame |
    ⟨_, hlast, before, reading, hbefore, hread, rfl, _⟩
  · exact h.issued n t id hsame hid
  · rcases h.reading hbefore hread with ⟨hlt, hrange, _, hclock⟩
    rw [hlast, hclock]
    exact ⟨hrange, (Settled.issue_of_lt hlt hrange).2.1⟩

theorem Timed.previous_move (h : Timed c) (hmove : Moves (setting fleet) c c') (hplain : Plain c')
    {i : ι} {settled : Settled} (hsettled : (c'.standing i).settled = some settled) {later : Instant}
    (hlater : c'.world.clock ≤ later) : settled.issuer.previous ≤ elapsedAt later.millis := by
  cases gains_of_moves hmove hsettled with
  | keep hbefore =>
      have hclock := (elapses_of_moves hmove h.inRange).clock_le
      exact h.previous i settled hbefore later (Instant.le_trans hclock hlater)
  | issue ht hlast hid hbefore hread =>
      have hleap := hplain _ _ _ ht hid
      rw [hlast] at hleap
      rcases h.reading hbefore hread with ⟨hlt, hrange, _, hclock⟩
      rw [(Settled.issue_of_lt hlt hrange).2.2.2, ← hclock]
      exact elapsedAt_mono (Instant.millis_le hleap hlater)
  | register _ hprevious | renumber hprevious _ =>
      rw [hprevious]
      exact Nat.zero_le _

theorem Timed.staking_move (hmove : Moves (setting fleet) c c') {n : Nat}
    {t : Thread ι World Stage} {aim : Aim} {round : Round} {claim : Registration}
    (ht : c'.threads n = some t) (htask : t.task = .waiting (.staking aim round claim)) :
    claim.claimedAt = c'.world.clock := by
  rcases now_of_moves hmove ht htask with hsame | ⟨_, _, hworld⟩
  · exact absurd ht (moved_of_running hmove hsame (by rw [htask]; rfl)).1
  · rw [hworld]

theorem Timed.claimed_move (h : Timed c) (hmove : Moves (setting fleet) c c') {n : Nat}
    {t : Thread ι World Stage} {claim : Registration} (ht : c'.threads n = some t)
    (hclaim : t.task.claim? = some claim) : claim.claimedAt ≤ t.last.clock := by
  have hclock := (elapses_of_moves hmove h.inRange).clock_le
  rcases claim_of_moves hmove ht hclaim with ⟨before, hbefore, _, ⟨⟨aim, round, htask⟩, hlast⟩ |
    ⟨hclaim, hlast | hlast⟩⟩
  · rw [hlast, h.staking n before aim round claim hbefore htask]
    exact hclock
  · rw [hlast]
    exact h.claimed n before claim hbefore hclaim
  · have hbehind := (h.elapsed n before hbefore).clock_le
    rw [hlast]
    exact Instant.le_trans (h.claimed n before claim hbefore hclaim)
      (Instant.le_trans hbehind hclock)

omit [DecidableEq ι] in
/-- The clock has advanced while a claim has spread. -/
theorem Timed.spread_wake (h : Timed c)
    (hdelay : forall i, 1 ≤ (fleet.member i).config.settleDelay.millis) {n : Nat}
    (hpermits : (setting fleet).permits (c.enacted (setting fleet)) (.wake n))
    {t : Thread ι World Stage} {aim : Aim} {round : Round} {claim : Registration}
    (ht : c.threads n = some t) (htask : t.task = .waiting (.spreading aim round claim)) :
    claim.claimedAt.ticks < c.world.clock.ticks := by
  have hclaimed := h.claimed n t claim ht (by rw [htask]; rfl)
  have hslept := hpermits.2 n (t.enacted (setting fleet)) rfl (threads_enacted ht) _ _
    (congrArg (Stage.task (fleet.member t.owner)) htask)
  have hlong : 1 ≤ min (fleet.member t.owner).config.settleDelay.millis
      Rehearsal.World.longestSleep :=
    Nat.le_min.mpr ⟨hdelay t.owner, by decide⟩
  have hnow : t.last.now < c.world.now :=
    Nat.lt_of_lt_of_le (Nat.lt_add_of_pos_right hlong) hslept
  exact Int.lt_of_le_of_lt (Instant.ticks_le hclaimed) ((h.elapsed n t ht).advance hnow)

theorem Timed.spread_move (h : Timed c)
    (hdelay : forall i, 1 ≤ (fleet.member i).config.settleDelay.millis)
    (hmove : Moves (setting fleet) c c') {n : Nat} {t : Thread ι World Stage}
    {claim : Registration} (ht : c'.threads n = some t) (hspread : spread? t.task = some claim) :
    claim.claimedAt.ticks < c'.world.clock.ticks := by
  have hticks := Instant.ticks_le (elapses_of_moves hmove h.inRange).clock_le
  have hkeep {before : Thread ι World Stage} (hbefore : c.threads n = some before)
      (hspread : spread? before.task = some claim) :
      claim.claimedAt.ticks < c'.world.clock.ticks :=
    Int.lt_of_lt_of_le (h.spread n before claim hbefore hspread) hticks
  cases arrives_of_moves hmove ht with
  | stay ht => exact hkeep ht hspread
  | start _ _ hbegin => cases hbegin.claim?_eq.symm.trans (claim?_of_spread? hspread).1
  | @call before s hu htask hcall _ _ _ _ =>
      cases s with
      | verifying aim round held => exact hkeep hu (by rw [htask]; exact hspread)
      | spreading aim round held | backingOff aim round last time => cases hcall
      | listing aim round | staking aim round held | withdrawing exit | refreshing held
      | checking held | restoring held | removing => cases hspread
  | @wake before s hu htask hpermits hpause _ _ hworld =>
      rw [hworld]
      cases s with
      | spreading aim round held =>
          cases hspread
          exact h.spread_wake hdelay hpermits hu htask
      | backingOff aim round last time => cases hspread
      | listing aim round | staking aim round held | verifying aim round held
      | withdrawing exit | refreshing held | checking held | restoring held | removing =>
          cases hpause
  | turn hu htask _ hresume =>
      refine hkeep hu ?_
      rw [htask]
      exact spread?_of_resumes hresume hspread

theorem Timed.move (hdelay : forall i, 1 ≤ (fleet.member i).config.settleDelay.millis)
    (h : Timed c) (hmove : Moves (setting fleet) c c') (hplain : Plain c') : Timed c' where
  inRange := (elapses_of_moves hmove h.inRange).inRange
  elapsed := fun _ _ ht => h.elapsed_move hmove ht
  issued := fun _ _ _ ht hid => h.issued_move hmove ht hid
  previous := fun _ _ hsettled _ hlater => h.previous_move hmove hplain hsettled hlater
  staking := fun _ _ _ _ _ ht htask => Timed.staking_move hmove ht htask
  claimed := fun _ _ _ ht hclaim => h.claimed_move hmove ht hclaim
  spread := fun _ _ _ ht hspread => h.spread_move hdelay hmove ht hspread

end

end Uninterrupted
end Roster
