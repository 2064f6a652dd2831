import Roster.Proofs.Issuing.Timed
import Roster.Proofs.Issuing.Undisturbed

/-!
# Numbers that are used again

A thread lists the registrations and claims a number without interruption, so that it claims a
number that no other member holds.  Others have issued ids for it before the claim was made, and the
member issues its own when the clock is ahead of it.

Across a leap second the count of milliseconds goes back, and an id of the next second may be one that
was issued in the leap second.
-/

namespace Roster
namespace Uninterrupted

open Interleaving UniqueId

/-!
# Reserved numbers
-/

/-- No other member holds the number of the claim, nor has issued an id for it since it was made. -/
structure Reserved {ι : Type} [DecidableEq ι] (fleet : Fleet ι) (c : Cluster ι World Stage) (i : ι)
    (claim : Registration) : Prop where
  unheld : forall j e, j ≠ i -> (ledger fleet).held c.world j = some e -> e.number ≠ claim.number
  behind : forall n t id, c.threads n = some t -> t.owner ≠ i -> t.task.issued? = some id ->
    id.server.toNat = claim.number.toNat -> t.last.clock ≤ claim.claimedAt

structure Guarded {ι : Type} [DecidableEq ι] (fleet : Fleet ι) (c : Cluster ι World Stage) :
    Prop where
  orderly : Orderly (ledger fleet) c
  undisputed : Undisputed c
  timed : Timed c
  unheld : forall n t number j e, c.threads n = some t ->
    stakes? (fleet.member t.owner).id.text t.task = some number ->
    number.toNat < Numbering.highest -> j ≠ t.owner ->
    (ledger fleet).held c.world j = some e -> e.number ≠ number
  refreshed : forall n t claim, c.threads n = some t -> t.task = .waiting (.refreshing claim) ->
    (ledger fleet).held c.world t.owner = some claim.written
  claimed : forall n t claim, c.threads n = some t -> t.task.claim? = some claim ->
    (c.standing t.owner).status = .registering -> claim.number.toNat < Numbering.highest ->
    Reserved fleet c t.owner claim
  settled : forall i settled, (c.standing i).settled = some settled ->
    Reserved fleet c i settled.claim ∧ settled.claim.claimedAt.ticks < c.world.clock.ticks

section

variable {ι : Type} [DecidableEq ι] {fleet : Fleet ι} {c c' : Cluster ι World Stage}

theorem Guarded.initial {w : World} (hempty : Empty fleet w) (h : InRange w.clock.millis) :
    Guarded fleet (.initial w) where
  orderly := .initial (sound_of_empty fleet hempty)
  undisputed := fun _ _ h => (nomatch h)
  timed := .initial h
  unheld := fun _ _ _ _ _ h => (nomatch h)
  refreshed := fun _ _ _ h => (nomatch h)
  claimed := fun _ _ _ h => (nomatch h)
  settled := fun _ _ h => (nomatch h)

theorem running_of_stakes? {id : String} {stage : Stage} {number : UInt32}
    (h : stakes? id stage = some number) : running stage = true := by
  cases stage with
  | waiting s =>
      cases s with
      | staking aim round claim => rfl
      | listing aim round | spreading aim round held | verifying aim round held
      | backingOff aim round last time | withdrawing exit | refreshing held | checking held
      | restoring held | removing => cases h
  | due s reply => rfl
  | finished outcome => cases h

theorem Guarded.entry_of_moves (h : Guarded fleet c) (hmove : Moves (setting fleet) c c') {j : ι}
    {e : Registration} (he : (ledger fleet).held c'.world j = some e) :
    (ledger fleet).held c.world j = some e ∨
      exists n t aim round claim, c.threads n = some t ∧ t.owner = j ∧
        t.task = .waiting (.staking aim round claim) ∧ e = claim.written := by
  rcases (ledger fleet).written_of_moves h.orderly.proper h.orderly.sound hmove he with hheld |
    ⟨n, t, s, claim, answer, ht, rfl, htask, _, hwritten, _, rfl⟩
  · exact Or.inl hheld
  · cases s with
    | staking aim round staked =>
        cases hwritten
        exact Or.inr ⟨n, t, aim, round, claim, ht, rfl, htask, rfl⟩
    | refreshing held =>
        cases hwritten
        exact Or.inl (h.refreshed n t claim ht htask)
    | restoring held => exact (h.orderly.steady n t _ ht (spot?_of_waiting htask)).elim
    | withdrawing exit | removing => cases hwritten
    | listing aim round | spreading aim round held | verifying aim round held
    | backingOff aim round last time | checking held => cases hwritten

theorem Guarded.number_ne_of_staking (h : Guarded fleet c) {n : Nat} {t : Thread ι World Stage}
    {aim : Aim} {round : Round} {e claim : Registration} {i : ι} (ht : c.threads n = some t)
    (htask : t.task = .waiting (.staking aim round e)) (hne : t.owner ≠ i)
    (hheld : (ledger fleet).held c.world i = some claim.written)
    (hnumber : claim.number.toNat < Numbering.highest) : e.number ≠ claim.number := by
  intro heq
  refine h.unheld n t e.number i claim.written ht (by rw [htask]; rfl) ?_ hne.symm hheld heq.symm
  rw [heq]
  exact hnumber

theorem Guarded.server_ne (h : Guarded fleet c) {i j : ι} {claim : Registration} (hne : j ≠ i)
    (hreserved : Reserved fleet c i claim) {settled : Settled}
    (hsettled : (c.standing j).settled = some settled) :
    settled.issuer.server.toNat ≠ claim.number.toNat := by
  have hproper := ((h.orderly.proper.standing j).of_settled settled hsettled).2
  have hunheld := hreserved.unheld j settled.claim.written hne
    (h.orderly.settled j settled hsettled)
  rw [hproper.server_eq]
  exact fun heq => hunheld (UInt32.toNat_inj.mp heq)

theorem Reserved.move (h : Guarded fleet c) (hmove : Moves (setting fleet) c c') {i : ι}
    {claim : Registration} (hheld : (ledger fleet).held c.world i = some claim.written)
    (hnumber : claim.number.toNat < Numbering.highest) (hreserved : Reserved fleet c i claim) :
    Reserved fleet c' i claim where
  unheld := by
    intro j e hne he
    rcases h.entry_of_moves hmove he with hbefore |
      ⟨n, t, aim, round, staked, ht, rfl, htask, rfl⟩
    · exact hreserved.unheld j e hne hbefore
    · change staked.number ≠ claim.number
      exact h.number_ne_of_staking ht htask hne hheld hnumber
  behind := by
    intro n t id ht hne hid hserver
    rcases issued_of_moves hmove ht hid with hsame |
      ⟨_, _, before, reading, hbefore, hread, rfl, _⟩
    · exact hreserved.behind n t id hsame hne hid hserver
    · rcases h.timed.reading hbefore hread with ⟨hlt, hrange, _, _⟩
      rw [(Settled.issue_of_lt hlt hrange).1] at hserver
      exact absurd hserver (h.server_ne hne hreserved hbefore)

/-!
# What a move keeps
-/

theorem Guarded.unheld_move (h : Guarded fleet c) (hmove : Moves (setting fleet) c c') {n : Nat}
    {t : Thread ι World Stage} {number : UInt32} {j : ι} {e : Registration}
    (ht : c'.threads n = some t)
    (hstakes : stakes? (fleet.member t.owner).id.text t.task = some number)
    (hnumber : number.toNat < Numbering.highest) (hne : j ≠ t.owner)
    (he : (ledger fleet).held c'.world j = some e) : e.number ≠ number := by
  rintro rfl
  rcases h.entry_of_moves hmove he with hheld | ⟨k, u, aim, round, staked, hu, rfl, htask, _⟩
  · rcases (shared fleet).rival_of_moves h.orderly.sound.1 h.orderly.sound.2 hmove hheld hnumber ht
      hne.symm hstakes with ⟨before, hbefore, howner, _, hstakes⟩
    exact h.unheld n before e.number j e hbefore (by rw [howner]; exact hstakes) hnumber
      (by rw [howner]; exact hne) hheld rfl
  · exact hne (owner_of_running hmove hu (by rw [htask]; rfl) ht (running_of_stakes? hstakes)).symm

theorem Guarded.refreshed_move (h : Guarded fleet c) (hmove : Moves (setting fleet) c c') {n : Nat}
    {t : Thread ι World Stage} {claim : Registration} (ht : c'.threads n = some t)
    (htask : t.task = .waiting (.refreshing claim)) :
    (ledger fleet).held c'.world t.owner = some claim.written := by
  have hfresh : c.threads n ≠ some t := fun hsame =>
    (moved_of_running hmove hsame (by rw [htask]; rfl)).1 ht
  cases arrives_of_moves hmove ht with
  | stay ht => exact absurd ht hfresh
  | start _ _ hbegin =>
      cases htask
      rw [((ledger fleet).begins hbegin h.orderly.sound).2]
      rcases hbegin.settled_of_refreshing with ⟨settled, hsettled, rfl⟩
      exact h.orderly.settled _ _ hsettled
  | call _ _ _ _ _ _ _ | wake _ _ _ _ _ _ _ => cases htask
  | turn _ _ _ hresume => exact absurd htask (hresume.ne_refreshing claim)

theorem Guarded.reserved_staked (h : Guarded fleet c) (hmove : Moves (setting fleet) c c') {n : Nat}
    {t before : Thread ι World Stage} {aim : Aim} {round : Round} {claim : Registration}
    (hbefore : c.threads n = some before)
    (htask : before.task = .waiting (.staking aim round claim))
    (ht : c'.threads n = some t) (hclaim : t.task.claim? = some claim)
    (hnumber : claim.number.toNat < Numbering.highest) : Reserved fleet c' before.owner claim where
  unheld := by
    intro j e hne he
    rcases h.entry_of_moves hmove he with hheld |
      ⟨k, u, aim', round', staked, hu, rfl, hstaking, _⟩
    · exact h.unheld n before claim.number j e hbefore (by rw [htask]; rfl) hnumber hne hheld
    · by_cases hk : n = k
      · rw [hk] at hbefore
        cases hu.symm.trans hbefore
        exact absurd rfl hne
      · have hsame := (moved_of_running hmove hu (by rw [hstaking]; rfl)).2 n hk
        rw [ht, hbefore] at hsame
        cases hsame
        rw [htask] at hclaim
        cases hclaim
  behind := by
    intro k u id hu hne hid _
    rw [h.timed.staking n before aim round claim hbefore htask]
    rcases issued_of_moves hmove hu hid with hsame | ⟨hfresh, _⟩
    · exact (h.timed.elapsed k u hsame).clock_le
    · by_cases hk : k = n
      · rw [hk] at hfresh
        cases hfresh.symm.trans hbefore
      · have hkept := (moved_of_running hmove hbefore (by rw [htask]; rfl)).2 k hk
        cases hfresh.symm.trans (hkept.symm.trans hu)

theorem Guarded.claimed_move (h : Guarded fleet c) (hmove : Moves (setting fleet) c c') {n : Nat}
    {t : Thread ι World Stage} {claim : Registration} (ht : c'.threads n = some t)
    (hclaim : t.task.claim? = some claim)
    (hstatus : (c'.standing t.owner).status = .registering)
    (hnumber : claim.number.toNat < Numbering.highest) : Reserved fleet c' t.owner claim := by
  rcases claim_of_moves hmove ht hclaim with ⟨before, hbefore, howner, ⟨⟨aim, round, htask⟩, _⟩ |
    ⟨hclaim, _⟩⟩
  · rw [← howner]
    exact h.reserved_staked hmove hbefore htask ht hclaim hnumber
  · rw [← howner] at hstatus ⊢
    rcases spot?_of_claim? hclaim with ⟨s, hs⟩
    have hregistering := h.orderly.proper.registering_of_moves hmove hbefore hs hstatus
    have hheld := h.orderly.claimed n before claim hbefore hclaim hregistering
    exact (h.claimed n before claim hbefore hclaim hregistering hnumber).move h hmove hheld hnumber

theorem Guarded.settled_move (h : Guarded fleet c) (hmove : Moves (setting fleet) c c') {i : ι}
    {settled : Settled} (hsettled : (c'.standing i).settled = some settled) :
    Reserved fleet c' i settled.claim ∧
      settled.claim.claimedAt.ticks < c'.world.clock.ticks := by
  have hproper := h.orderly.proper.move hmove
  have hnumber := number_lt_highest ((hproper.standing i).of_settled settled hsettled).2
  have hticks := Instant.ticks_le (elapses_of_moves hmove h.timed.inRange).clock_le
  rcases h.orderly.settled_of_moves hmove hsettled with ⟨before, hbefore, hretains⟩ |
    ⟨n, t, aim, round, live, ht, rfl, hstatus, htask, _, _⟩
  · rw [hretains.claim_eq] at hnumber ⊢
    rcases h.settled i before hbefore with ⟨hreserved, hlt⟩
    exact ⟨hreserved.move h hmove (h.orderly.settled i before hbefore) hnumber,
      Int.lt_of_lt_of_le hlt hticks⟩
  · have hclaim : t.task.claim? = some settled.claim := by
      rw [htask]
      rfl
    have hheld := h.orderly.claimed n t settled.claim ht hclaim hstatus
    have hreserved := h.claimed n t settled.claim ht hclaim hstatus hnumber
    have hlt := h.timed.spread n t settled.claim ht (by rw [htask]; rfl)
    exact ⟨hreserved.move h hmove hheld hnumber, Int.lt_of_lt_of_le hlt hticks⟩

theorem Guarded.verdict_ne_lost (h : Guarded fleet c) {i : ι} {settled : Settled}
    (hsettled : (c.standing i).settled = some settled)
    {answer : Except RegistryError (List Bytes)} {w : World}
    (hanswer : answers c.world (.call (.list (fleet.member i).servers.name)) answer w)
    {live : List Registration} (hlive : heardListing answer = .ok live) :
    Numbering.verdict settled.claim live ≠ .lost := by
  have hproper := ((h.orderly.proper.standing i).of_settled settled hsettled).2
  refine ((shared fleet).verdict_ne_lost_iff h.orderly.sound.1 h.orderly.sound.2
    hproper.serverId_eq hanswer hlive).mpr fun j e hne hj hnumber => ?_
  exact absurd hnumber ((h.settled i settled hsettled).1.unheld j e hne hj)

theorem Guarded.move (hdelay : forall i, 1 ≤ (fleet.member i).config.settleDelay.millis)
    (h : Guarded fleet c) (hmove : Moves (setting fleet) c c') (hplain : Plain c') :
    Guarded fleet c' where
  orderly := h.orderly.move h.undisputed hmove
  undisputed := h.orderly.undisputed_move h.undisputed hmove
    fun _ _ _ _ _ hsettled hanswer hlive => h.verdict_ne_lost hsettled hanswer hlive
  timed := h.timed.move hdelay hmove hplain
  unheld := fun _ _ _ _ _ ht hstakes hnumber hne he =>
    h.unheld_move hmove ht hstakes hnumber hne he
  refreshed := fun _ _ _ ht htask => h.refreshed_move hmove ht htask
  claimed := fun _ _ _ ht hclaim hstatus hnumber => h.claimed_move hmove ht hclaim hstatus hnumber
  settled := fun _ _ hsettled => h.settled_move hmove hsettled

/-!
# No id is issued twice
-/

structure Distinct (fleet : Fleet ι) (c : Cluster ι World Stage) : Prop where
  guarded : Guarded fleet c
  own : forall n t id settled, c.threads n = some t -> t.task.issued? = some id ->
    (c.standing t.owner).settled = some settled ->
    id.server = settled.issuer.server ∧ id.elapsed ≤ settled.issuer.previous
  apart : forall n k t u id id', n ≠ k -> c.threads n = some t -> c.threads k = some u ->
    t.task.issued? = some id -> u.task.issued? = some id' -> id ≠ id'

theorem Distinct.own_move (h : Distinct fleet c) (hmove : Moves (setting fleet) c c') {n : Nat}
    {t : Thread ι World Stage} {id : UniqueId} {settled : Settled} (ht : c'.threads n = some t)
    (hid : t.task.issued? = some id) (hsettled : (c'.standing t.owner).settled = some settled) :
    id.server = settled.issuer.server ∧ id.elapsed ≤ settled.issuer.previous := by
  have hproper := h.guarded.orderly.proper
  rcases issued_of_moves hmove ht hid with hsame |
    ⟨_, _, before, reading, hbefore, hread, rfl, hafter⟩
  · rcases h.guarded.orderly.settled_of_moves hmove hsettled with ⟨before, hbefore, hretains⟩ |
      ⟨_, _, _, _, _, _, _, hstatus, _⟩
    · rcases h.own n t id before hsame hid hbefore with ⟨hserver, hle⟩
      rcases hretains.issuer_le fun reading hread =>
        ⟨(h.guarded.timed.reading hbefore hread).1,
          (h.guarded.timed.reading hbefore hread).2.1⟩ with ⟨hserver', hgrows⟩
      exact ⟨hserver.trans hserver'.symm, hle.trans hgrows⟩
    · -- a member that registers has not issued any id
      rcases hproper.early t.owner (Or.inr hstatus) with ⟨k, hearly⟩
      cases (hearly n t hsame rfl).1.symm.trans hid
  · cases hafter.symm.trans hsettled
    rcases h.guarded.timed.reading hbefore hread with ⟨hlt, hrange, _, _⟩
    rcases Settled.issue_of_lt hlt hrange with ⟨hserver, helapsed, hserver', hprevious⟩
    rw [hserver', hprevious]
    exact ⟨hserver, le_of_eq helapsed⟩

theorem Distinct.new_ne (h : Distinct fleet c) (hmove : Moves (setting fleet) c c')
    (hplain : Plain c') {n k : Nat} {t u : Thread ι World Stage} {id id' : UniqueId}
    (ht : c'.threads n = some t) (hid : t.task.issued? = some id) (hfresh : c.threads n ≠ some t)
    (hu : c.threads k = some u) (hid' : u.task.issued? = some id') : id ≠ id' := by
  rcases issued_of_moves hmove ht hid with hsame |
    ⟨_, _, before, reading, hbefore, hread, rfl, _⟩
  · exact absurd hsame hfresh
  · rcases h.guarded.timed.reading hbefore hread with ⟨hlt, hrange, hclock, hreading⟩
    rcases Settled.issue_of_lt hlt hrange with ⟨hserver, helapsed, _, _⟩
    have hbehind : id'.server = before.issuer.server -> id'.elapsed < elapsedAt reading := by
      intro hsame
      by_cases howner : u.owner = t.owner
      · have hown := h.own k u id' before hu hid' (by rw [howner]; exact hbefore)
        exact Nat.lt_of_le_of_lt hown.2 hlt
      · -- the other id was issued before the claim was made, and the clock is ahead of the claim
        rcases h.guarded.settled t.owner before hbefore with ⟨hreserved, hspread⟩
        have hproper := ((h.guarded.orderly.proper.standing t.owner).of_settled before hbefore).2
        have hle := hreserved.behind k u id' hu howner hid' (by rw [hsame, hproper.server_eq])
        rcases h.guarded.timed.issued k u id' hu hid' with ⟨hissued, helapsed'⟩
        have hahead := Int.lt_of_le_of_lt (Instant.ticks_le hle)
          (Int.lt_of_lt_of_le hspread (Instant.ticks_le hclock))
        have hmillis := Instant.millis_lt (hplain.of_moves hmove k u id' hu hid') hahead
        rw [helapsed', ← hreading]
        exact elapsedAt_strictMono hissued hmillis
    rintro rfl
    have hlt' := hbehind hserver
    rw [helapsed] at hlt'
    exact Nat.lt_irrefl _ hlt'

theorem Distinct.apart_move (h : Distinct fleet c) (hmove : Moves (setting fleet) c c')
    (hplain : Plain c') {n k : Nat} {t u : Thread ι World Stage} {id id' : UniqueId} (hne : n ≠ k)
    (ht : c'.threads n = some t) (hu : c'.threads k = some u) (hid : t.task.issued? = some id)
    (hid' : u.task.issued? = some id') : id ≠ id' := by
  refine pairs_of_moves (R := fun t u => forall id id', t.task.issued? = some id ->
    u.task.issued? = some id' -> id ≠ id') hmove ?_ ?_ ?_ hne ht hu id id' hid hid'
  · exact fun t u h id id' hid hid' => (h id' id hid' hid).symm
  · exact fun n k t u hne ht hu id id' => h.apart n k t u id id' hne ht hu
  · exact fun n k t u ht hfresh hu id id' hid hid' => h.new_ne hmove hplain ht hid hfresh hu hid'

theorem Distinct.move (hdelay : forall i, 1 ≤ (fleet.member i).config.settleDelay.millis)
    (h : Distinct fleet c) (hmove : Moves (setting fleet) c c') (hplain : Plain c') :
    Distinct fleet c' where
  guarded := h.guarded.move hdelay hmove hplain
  own := fun _ _ _ _ ht hid hsettled => h.own_move hmove ht hid hsettled
  apart := fun _ _ _ _ _ _ hne ht hu hid hid' => h.apart_move hmove hplain hne ht hu hid hid'

/-- In every run in which no id is issued in a leap second, no id is issued twice, be it by one member
or by two. -/
theorem fleet_ids_distinct (hdelay : forall i, 1 ≤ (fleet.member i).config.settleDelay.millis)
    {w : World} (hempty : Empty fleet w) (hw : InRange w.clock.millis) {c : Cluster ι World Task}
    (hrun : Runs (setting fleet) (.initial w) c)
    (hleap : forall n id w, Issues c n id w -> w.clock.isLeapSecond = false) :
    forall n k id id' w w', Issues c n id w -> Issues c k id' w' -> n ≠ k -> id ≠ id' := by
  have hinitial : Distinct fleet (.initial w) :=
    ⟨.initial hempty hw, fun _ _ _ _ h => (nomatch h), fun _ _ _ _ _ _ _ h => (nomatch h)⟩
  have hstep (c c' : Cluster ι World Stage) (hmove : Moves (setting fleet) c c')
      (h : Plain c -> Distinct fleet c) (hplain : Plain c') : Distinct fleet c' :=
    (h (hplain.of_moves hmove)).move hdelay hmove hplain
  rcases holds_of_runs hstep (fun _ => hinitial) hrun with ⟨c, rfl, h⟩
  have h := h (issuedIn_of_issues hleap)
  intro n k id id' w w' hissues hissues' hne
  rcases issued_of_issues hissues with ⟨t, ht, hid, _⟩
  rcases issued_of_issues hissues' with ⟨u, hu, hid', _⟩
  exact h.apart n k t u id id' hne ht hu hid hid'

end

/-!
# One number after another
-/

def pair : Fleet Bool :=
  .pair

/-- A member may claim a number at one instant and issue an id at the other. -/
structure Settles (s t : Instant) : Prop where
  inRange : InRange s.millis
  advances : Advances 1000 s t
  inRange' : InRange t.millis
  late : 0 < elapsedAt t.millis

theorem Settles.reads {s : Instant} {w : World} (h : Settles s w.clock) :
    answers w (.readingPast 0) w.clock.millis w :=
  ⟨w.clock, Instant.le_refl _, h.inRange', rfl, h.late.ne', rfl⟩

theorem pair_takes_turns {claimed issued claimed' issued' : Instant} (h : Settles claimed issued)
    (hnext : issued ≤ claimed') (h' : Settles claimed' issued') :
    exists c w w', Runs (setting pair) (.initial ⟨0, claimed, ∅, true⟩) c ∧
      Issues c 1 (ofParts 0 (elapsedAt issued.millis)) w ∧ w.clock = issued ∧
      Issues c 4 (ofParts 0 (elapsedAt issued'.millis)) w' ∧ w'.clock = issued' ∧
      forall n id w'', Issues c n id w'' -> w'' = w ∨ w'' = w' := by
  have hattempts (b : Bool) : (pair.member b).config.settleAttempts.toNat = 9 + 1 := rfl
  let outset : World := ⟨0, claimed, ∅, true⟩
  have hempty : Empty pair outset := Store.contents_of_empty rfl pair.region
  -- the first member registers and issues an id
  let c₀ : Cluster Bool World Stage := .initial outset
  have hidle₀ : Idle c₀ := idle_initial outset
  rcases hidle₀.registers (n := 0) (i := false) hempty rfl (Instant.le_refl claimed) h.inRange
    (show _ = 1000 from rfl) h.advances h.inRange' rfl rfl (hattempts _) with
    ⟨w₁, hregistered, hlists₁, havailable₁, rfl⟩
  let first : Settled := ⟨⟨"a", 0, claimed⟩, ⟨0, 0⟩⟩
  let c₁ := c₀.moved 0 ⟨false, .finished (.registered (.ok 0)), w₁⟩ ⟨.ready 0, some first⟩ w₁
  have hidle₁ : Idle c₁ := hidle₀.moved rfl
  have hissue : Begins (setting pair) false ⟨.ready 0, some first⟩ w₁ .uniqueId _ _ w₁ :=
    .uniqueId rfl h.reads
  have hissued : Moves (setting pair) c₁ _ :=
    .start (n := 1) rfl (hidle₁.permits fun k h => nomatch h) hissue
  -- it leaves
  let id := (first.issuer.issue (elapsedAt w₁.clock.millis)).1
  let c₂ := c₁.moved 1 ⟨false, .finished (.issued (.ok id)), w₁⟩
    ⟨.ready 0, some (first.afterIssue w₁.clock.millis)⟩ w₁
  have hidle₂ : Idle c₂ := hidle₁.moved rfl
  rcases hidle₂.deregisters (n := 2) (i := false) rfl hlists₁ havailable₁ rfl rfl with
    ⟨w₂, hleft, hempty₂, havailable₂, hclock₂⟩
  let c₃ := c₂.moved 2 ⟨false, .finished (.deregistered (.ok ())), w₂⟩
    { status := .deactivated } w₂
  have hidle₃ : Idle c₃ := hidle₂.moved rfl
  have hclock₃ : w₂.clock ≤ claimed' := by
    rw [hclock₂]
    exact hnext
  -- the second member registers with the same number, and issues an id for it
  rcases hidle₃.registers (n := 3) (i := true) hempty₂ havailable₂ hclock₃ h'.inRange
    (show _ = 1000 from rfl) h'.advances h'.inRange' rfl rfl (hattempts _) with
    ⟨w₄, hregistered', _, _, rfl⟩
  let second : Settled := ⟨⟨"b", 0, claimed'⟩, ⟨0, 0⟩⟩
  let c₄ := c₃.moved 3 ⟨true, .finished (.registered (.ok 0)), w₄⟩ ⟨.ready 0, some second⟩ w₄
  have hidle₄ : Idle c₄ := hidle₃.moved rfl
  have hissue' : Begins (setting pair) true ⟨.ready 0, some second⟩ w₄ .uniqueId _ _ w₄ :=
    .uniqueId rfl h'.reads
  have hissued' : Moves (setting pair) c₄ _ :=
    .start (n := 4) rfl (hidle₄.permits fun k h => nomatch h) hissue'
  have hrun := runs_of_moves
    (hregistered.trans (.head hissued (hleft.trans (hregistered'.tail hissued'))))
  have hid : id = ofParts 0 (elapsedAt w₁.clock.millis) :=
    congrArg Prod.fst (Issuer.issue_of_lt h.late)
  have hid' : (second.issuer.issue (elapsedAt w₄.clock.millis)).1 =
      ofParts 0 (elapsedAt w₄.clock.millis) := congrArg Prod.fst (Issuer.issue_of_lt h'.late)
  refine ⟨_, w₁, w₄, hrun, ?_, rfl, ?_, rfl, ?_⟩
  · rw [← hid]
    exact ⟨_, rfl, rfl, rfl⟩
  · rw [← hid']
    exact ⟨_, rfl, rfl, rfl⟩
  · rintro n id' w ⟨t, ht, htask, rfl⟩
    rcases n with _ | _ | _ | _ | _ | n
    · cases ht
      cases htask
    · cases ht
      exact Or.inl rfl
    · cases ht
      cases htask
    · cases ht
      cases htask
    · cases ht
      exact Or.inr rfl
    · cases ht

/-- The second member issues an id for the number of the first, a second after it has left. -/
theorem pair_ids_distinct : exists c id id' w w',
    (forall b, 1 ≤ (pair.member b).config.settleDelay.millis) ∧
      Empty pair ⟨0, stamp 0, ∅, true⟩ ∧ InRange (stamp 0).millis ∧
      Runs (setting pair) (.initial ⟨0, stamp 0, ∅, true⟩) c ∧
      (forall n id w, Issues c n id w -> w.clock.isLeapSecond = false) ∧ Issues c 1 id w ∧
      Issues c 4 id' w' ∧ id.server = id'.server ∧ id ≠ id' := by
  have hdelay (b : Bool) : 1 ≤ (pair.member b).config.settleDelay.millis := by
    cases b with
    | false | true => decide
  have hempty : Empty pair ⟨0, stamp 0, ∅, true⟩ := Store.contents_of_empty rfl pair.region
  have hsettles : Settles (stamp 0) (stamp 1) :=
    ⟨by decide, ⟨by decide, Or.inl ⟨stamp 1, by decide, Instant.le_refl _⟩⟩, by decide, by decide⟩
  have hsettles' : Settles (stamp 2) (stamp 3) :=
    ⟨by decide, ⟨by decide, Or.inl ⟨stamp 3, by decide, Instant.le_refl _⟩⟩, by decide, by decide⟩
  rcases pair_takes_turns hsettles (by decide : stamp 1 ≤ stamp 2) hsettles' with
    ⟨c, w, w', hrun, hissues, hclock, hissues', hclock', honly⟩
  have hplain (n : Nat) (id : UniqueId) (w'' : World) (hissued : Issues c n id w'') :
      w''.clock.isLeapSecond = false := by
    rcases honly n id w'' hissued with rfl | rfl
    · rw [hclock]
      rfl
    · rw [hclock']
      rfl
  have hserver (count : Nat) (hcount : count < elapsedRange) : (ofParts 0 count).server = 0 :=
    server_ofParts 0 hcount
  refine ⟨c, _, _, w, w', hdelay, hempty, hsettles.inRange, hrun, hplain, hissues, hissues', ?_, ?_⟩
  · rw [hserver _ (elapsedAt_lt hsettles.inRange'), hserver _ (elapsedAt_lt hsettles'.inRange')]
  · exact fleet_ids_distinct hdelay hempty hsettles.inRange hrun hplain 1 4 _ _ w w' hissues hissues'
      (by decide)

/-- A tenth of a second before the leap second at the end of 2016. -/
def beforeLeapSecond : Instant :=
  (Instant.ofParts? 17166 86399 900000000).getD .epoch

def inLeapSecond : Instant :=
  (Instant.ofParts? 17166 86399 1900000000).getD .epoch

def afterLeapSecond : Instant :=
  (Instant.ofParts? 17167 0 900000000).getD .epoch

/-- The first member issues an id in a leap second, and the second one issues the same id a second
later. -/
theorem pair_share_id : exists c id w w',
    (forall b, 1 ≤ (pair.member b).config.settleDelay.millis) ∧
      Empty pair ⟨0, beforeLeapSecond, ∅, true⟩ ∧ InRange beforeLeapSecond.millis ∧
      Runs (setting pair) (.initial ⟨0, beforeLeapSecond, ∅, true⟩) c ∧
      Issues c 1 id w ∧ Issues c 4 id w' := by
  have hdelay (b : Bool) : 1 ≤ (pair.member b).config.settleDelay.millis := by
    cases b with
    | false | true => decide
  have hsettles : Settles beforeLeapSecond inLeapSecond :=
    ⟨by decide, ⟨by decide, Or.inr (by decide)⟩, by decide, by decide⟩
  have hsettles' : Settles inLeapSecond afterLeapSecond :=
    ⟨by decide, ⟨by decide, Or.inl ⟨afterLeapSecond, by decide, Instant.le_refl _⟩⟩, by decide,
      by decide⟩
  rcases pair_takes_turns hsettles (Instant.le_refl _) hsettles' with
    ⟨c, w, w', hrun, hissues, _, hissues', _, _⟩
  have hsame : elapsedAt inLeapSecond.millis = elapsedAt afterLeapSecond.millis := by decide
  rw [← hsame] at hissues'
  exact ⟨c, _, w, w', hdelay, Store.contents_of_empty rfl pair.region, hsettles.inRange, hrun, hissues,
    hissues'⟩

end Uninterrupted
end Roster
