import Roster.Proofs.Interleaving.Alone
import Roster.Proofs.Interleaving.Issued
import Roster.Proofs.Numbering
import Roster.Proofs.Registry.Listing
import Roster.Proofs.Time.Millis
import Roster.Proofs.UniqueId

/-!
# The ids of one member

A member issues an id for its number and the millisecond that its clock shows, and no two ids for
one millisecond as long as it keeps its issuer, leap seconds apart.  A renumbering makes a new
issuer, which knows nothing of the ids that were issued before, and the new number may be one that
the member has had before.
-/

namespace Roster
namespace Issuing

open Interleaving UniqueId

/-!
# The setting
-/

structure World where
  contents : Contents
  clock : Instant
  events : List Event

def isRenumbering : Event → Bool
  | .member _ (.renumbered _ _) => true
  | _ => false

def World.renumberings (w : World) : Nat :=
  w.events.countP isRenumbering

/-- The registry answers at once or fails; the clock never goes back and stays in range. -/
def answers (w : World) : (e : Effect) → e.Answer → World → Prop
  | .call c, answer, w' =>
      w.contents.Answers c answer w'.contents ∧ w'.clock = w.clock ∧ w'.events = w.events
  | .now, t, w' => w.clock ≤ t ∧ InRange t.millis ∧ w' = { w with clock := t }
  | .readingPast previous, reading, w' =>
      exists t, w.clock ≤ t ∧ InRange t.millis ∧ reading = t.millis ∧
        elapsedAt reading ≠ previous ∧ w' = { w with clock := t }
  | _, _, _ => False

/-- One member, with a registry in which others write what they like under other keys. -/
def setting (m : Member) : Setting Unit World where
  member := fun _ => m
  answers := fun _ => answers
  notes := fun w event => { w with events := event :: w.events }
  drifts := fun w w' => w.clock ≤ w'.clock ∧ InRange w'.clock.millis ∧ w'.events = w.events ∧
    w'.contents m.servers.name m.id.text = w.contents m.servers.name m.id.text
  permits := fun _ _ => True

/-!
# Time goes on
-/

structure Later (w w' : World) : Prop where
  inRange : InRange w'.clock.millis
  clock_le : w.clock ≤ w'.clock
  renumberings_le : w.renumberings ≤ w'.renumberings

section

variable {m : Member} {w w' w'' : World}

theorem later_refl (h : InRange w.clock.millis) : Later w w :=
  ⟨h, Instant.le_refl _, Nat.le_refl _⟩

theorem later_note (event : Event) (h : Later w w') : Later w ((setting m).notes w' event) where
  inRange := h.inRange
  clock_le := h.clock_le
  renumberings_le := h.renumberings_le.trans ((List.sublist_cons_self event _).countP_le)

theorem later_now {t : Instant} (hread : answers w' .now t w'') (h : Later w w') : Later w w'' := by
  rcases hread with ⟨hclock, hrange, rfl⟩
  exact ⟨hrange, Instant.le_trans h.clock_le hclock, h.renumberings_le⟩

theorem later_readingPast {previous : Nat} {reading : Int}
    (hread : answers w' (.readingPast previous) reading w'') (h : Later w w') : Later w w'' := by
  rcases hread with ⟨t, hclock, hrange, _, _, rfl⟩
  exact ⟨hrange, Instant.le_trans h.clock_le hclock, h.renumberings_le⟩

theorem later_call {e : Call} {answer : (Effect.call e).Answer}
    (hanswer : answers w' (.call e) answer w'') (h : Later w w') : Later w w'' := by
  rcases hanswer with ⟨_, hclock, hevents⟩
  refine ⟨?_, ?_, ?_⟩
  · rw [hclock]
    exact h.inRange
  · rw [hclock]
    exact h.clock_le
  · unfold World.renumberings
    rw [hevents]
    exact h.renumberings_le

theorem later_drift (hdrift : (setting m).drifts w' w'') (h : Later w w') : Later w w'' := by
  rcases hdrift with ⟨hclock, hrange, hevents, _⟩
  refine ⟨hrange, Instant.le_trans h.clock_le hclock, ?_⟩
  unfold World.renumberings
  rw [hevents]
  exact h.renumberings_le

theorem later_of_moves {c c' : Cluster Unit World Stage} (hmove : Moves (setting m) c c')
    (h : InRange c.world.clock.millis) : Later c.world c'.world :=
  keeps_of_moves hmove (fun _ event => later_note event) (fun _ _ _ _ => later_now)
    (fun _ _ _ _ _ => later_readingPast) (fun _ _ _ _ _ => later_call) (fun _ _ => later_drift)
    (later_refl h)

end

/-!
# What is known of the ids
-/

abbrev Plain (c : Cluster Unit World Stage) : Prop :=
  IssuedIn (fun w => w.clock.isLeapSecond = false) c

/-- The ids that have been issued show the clock, and those since the last renumbering are behind
the issuer. -/
structure Tracked (m : Member) (c : Cluster Unit World Stage) : Prop where
  proper : Proper (setting m) c
  inRange : InRange c.world.clock.millis
  issued : forall n t id, c.threads n = some t -> t.task.issued? = some id ->
    Later t.last c.world ∧ InRange t.last.clock.millis ∧
      id.elapsed = elapsedAt t.last.clock.millis
  current : forall n t id settled, c.threads n = some t -> t.task.issued? = some id ->
    t.last.renumberings = c.world.renumberings -> (c.standing ()).settled = some settled ->
    id.server = settled.issuer.server ∧ id.elapsed ≤ settled.issuer.previous
  previous : forall settled, (c.standing ()).settled = some settled ->
    forall t, c.world.clock ≤ t -> settled.issuer.previous ≤ elapsedAt t.millis
  apart : forall n k t u id id', n ≠ k -> c.threads n = some t -> c.threads k = some u ->
    t.task.issued? = some id -> u.task.issued? = some id' ->
    t.last.renumberings = u.last.renumberings -> id.elapsed ≠ id'.elapsed

section

variable {m : Member} {c c' : Cluster Unit World Stage}

theorem Tracked.initial {w : World} (h : InRange w.clock.millis) : Tracked m (.initial w) where
  proper := .initial w
  inRange := h
  issued := fun _ _ _ h => (nomatch h)
  current := fun _ _ _ _ h => (nomatch h)
  previous := fun _ h => (nomatch h)
  apart := fun _ _ _ _ _ _ _ h => (nomatch h)

theorem Tracked.reading (h : Tracked m c) {settled : Settled}
    (hsettled : (c.standing ()).settled = some settled) {reading : Int} {w : World}
    (hread : answers c.world (.readingPast settled.issuer.previous) reading w) :
    settled.issuer.previous < elapsedAt reading ∧ InRange reading ∧ w.clock.millis = reading ∧
      w.renumberings = c.world.renumberings := by
  rcases hread with ⟨t, hclock, hrange, rfl, hne, rfl⟩
  have hprevious := h.previous settled hsettled t hclock
  exact ⟨by omega, hrange, rfl, rfl⟩

theorem Tracked.issued_move (h : Tracked m c) (hmove : Moves (setting m) c c') {n : Nat}
    {t : Thread Unit World Stage} {id : UniqueId} (ht : c'.threads n = some t)
    (hid : t.task.issued? = some id) :
    Later t.last c'.world ∧ InRange t.last.clock.millis ∧
      id.elapsed = elapsedAt t.last.clock.millis := by
  have hlater := later_of_moves hmove h.inRange
  rcases issued_of_moves hmove ht hid with hsame |
    ⟨_, hlast, before, reading, hbefore, hread, rfl, _⟩
  · rcases h.issued n t id hsame hid with ⟨hbehind, hrange, helapsed⟩
    exact ⟨⟨hlater.inRange, Instant.le_trans hbehind.clock_le hlater.clock_le,
      hbehind.renumberings_le.trans hlater.renumberings_le⟩, hrange, helapsed⟩
  · rcases h.reading hbefore hread with ⟨hlt, hrange, hclock, _⟩
    rw [hlast, hclock]
    refine ⟨later_refl hlater.inRange, hrange, ?_⟩
    exact (Settled.issue_of_lt hlt hrange).2.1

theorem Tracked.current_move (h : Tracked m c) (hmove : Moves (setting m) c c') {n : Nat}
    {t : Thread Unit World Stage} {id : UniqueId} {settled : Settled}
    (ht : c'.threads n = some t) (hid : t.task.issued? = some id)
    (hsame : t.last.renumberings = c'.world.renumberings)
    (hsettled : (c'.standing ()).settled = some settled) :
    id.server = settled.issuer.server ∧ id.elapsed ≤ settled.issuer.previous := by
  have hlater := later_of_moves hmove h.inRange
  rcases issued_of_moves hmove ht hid with hbefore |
    ⟨_, _, before, reading, hbefore, hread, rfl, hafter⟩
  · have hbehind := (h.issued n t id hbefore hid).1.renumberings_le
    have hcurrent := hlater.renumberings_le
    cases gains_of_moves hmove hsettled with
    | keep hold => exact h.current n t id settled hbefore hid (by omega) hold
    | issue _ _ _ hold hread =>
        rcases h.current n t id _ hbefore hid (by omega) hold with ⟨hserver, hle⟩
        rcases h.reading hold hread with ⟨hlt, hrange, _⟩
        rcases Settled.issue_of_lt hlt hrange with ⟨_, _, hserver', hprevious⟩
        rw [hserver', hprevious]
        exact ⟨hserver, hle.trans (Nat.le_of_lt hlt)⟩
    | register hstatus _ =>
        rcases h.proper.early () (Or.inr hstatus) with ⟨k, hearly⟩
        cases (hearly n t hbefore rfl).1.symm.trans hid
    | renumber _ hreport =>
        -- the report makes one more renumbering than any issued id has seen
        have hmore : c'.world.renumberings = c.world.renumberings + 1 := by
          rw [hreport]
          exact List.countP_cons_of_pos rfl
        omega
  · cases hafter.symm.trans hsettled
    rcases h.reading hbefore hread with ⟨hlt, hrange, _, _⟩
    rcases Settled.issue_of_lt hlt hrange with ⟨hserver, helapsed, hserver', hprevious⟩
    rw [hserver', hprevious]
    exact ⟨hserver, le_of_eq helapsed⟩

theorem Tracked.previous_move (h : Tracked m c) (hmove : Moves (setting m) c c') (hplain : Plain c')
    {settled : Settled} (hsettled : (c'.standing ()).settled = some settled) {later : Instant}
    (hlater : c'.world.clock ≤ later) : settled.issuer.previous ≤ elapsedAt later.millis := by
  cases gains_of_moves hmove hsettled with
  | keep hold =>
      have hclock := (later_of_moves hmove h.inRange).clock_le
      exact h.previous settled hold later (Instant.le_trans hclock hlater)
  | issue ht hlast hid hold hread =>
      have hleap := hplain _ _ _ ht hid
      rw [hlast] at hleap
      rcases h.reading hold hread with ⟨hlt, hrange, hclock, _⟩
      rw [(Settled.issue_of_lt hlt hrange).2.2.2, ← hclock]
      exact elapsedAt_mono (Instant.millis_le hleap hlater)
  | register _ hprevious | renumber hprevious _ =>
      rw [hprevious]
      exact Nat.zero_le _

theorem Tracked.ahead (h : Tracked m c) (hmove : Moves (setting m) c c') {n k : Nat}
    {t u : Thread Unit World Stage} {id id' : UniqueId} (ht : c'.threads n = some t)
    (hid : t.task.issued? = some id) (hfresh : c.threads n ≠ some t)
    (hu : c.threads k = some u) (hid' : u.task.issued? = some id')
    (hsame : t.last.renumberings = u.last.renumberings) : id'.elapsed < id.elapsed := by
  rcases issued_of_moves hmove ht hid with hbefore |
    ⟨_, hlast, before, reading, hbefore, hread, rfl, _⟩
  · exact absurd hbefore hfresh
  · rcases h.reading hbefore hread with ⟨hlt, hrange, _, hrenumberings⟩
    rw [(Settled.issue_of_lt hlt hrange).2.1]
    rw [hlast, hrenumberings] at hsame
    exact Nat.lt_of_le_of_lt (h.current k u id' before hu hid' hsame.symm hbefore).2 hlt

theorem Tracked.apart_move (h : Tracked m c) (hmove : Moves (setting m) c c') {n k : Nat}
    {t u : Thread Unit World Stage} {id id' : UniqueId} (hne : n ≠ k)
    (ht : c'.threads n = some t) (hu : c'.threads k = some u) (hid : t.task.issued? = some id)
    (hid' : u.task.issued? = some id') (hsame : t.last.renumberings = u.last.renumberings) :
    id.elapsed ≠ id'.elapsed := by
  refine pairs_of_moves (R := fun t u => forall id id', t.task.issued? = some id ->
    u.task.issued? = some id' -> t.last.renumberings = u.last.renumberings ->
      id.elapsed ≠ id'.elapsed) hmove ?_ ?_ ?_ hne ht hu id id' hid hid' hsame
  · exact fun t u h id id' hid hid' hsame => (h id' id hid' hid hsame.symm).symm
  · exact fun n k t u hne ht hu id id' => h.apart n k t u id id' hne ht hu
  · exact fun n k t u ht hfresh hu id id' hid hid' hsame =>
      (h.ahead hmove ht hid hfresh hu hid' hsame).ne'

theorem Tracked.move (h : Tracked m c) (hmove : Moves (setting m) c c') (hplain : Plain c') :
    Tracked m c' where
  proper := h.proper.move hmove
  inRange := (later_of_moves hmove h.inRange).inRange
  issued := fun _ _ _ ht hid => h.issued_move hmove ht hid
  current := fun _ _ _ _ ht hid hsame hsettled => h.current_move hmove ht hid hsame hsettled
  previous := fun _ hsettled _ hlater => h.previous_move hmove hplain hsettled hlater
  apart := fun _ _ _ _ _ _ hne ht hu hid hid' hsame =>
    h.apart_move hmove hne ht hu hid hid' hsame

end

/-!
# An id that is issued twice

A rival with an earlier claim is gone by the time that the member looks for a new number, so that it
finds the number it had; the clock stands still.
-/

def lone : Member := ⟨⟨"a"⟩, {}⟩

def stamp : Instant :=
  UniqueId.stamp ⟨1, by decide⟩

def claim : Registration := ⟨"a", 0, stamp⟩

def rival : Registration := ⟨"b", 0, .epoch⟩

theorem legible_claim : claim.Legible :=
  ⟨Stored.fits_of_size (by decide), by decide⟩

def outset : World := ⟨fun _ _ => none, stamp, []⟩

theorem inRange_stamp : InRange stamp.millis := by
  decide

theorem lone_settles {c : Cluster Unit World Stage} {n : Nat} {σ : Standing} {w : World}
    {rs : List Registration} (aim : Aim) (round : Round) (last : World)
    (hlists : w.contents.Lists lone.servers.name rs)
    (hrivals : rs.filter (·.serverId ≠ "a") = []) (hclock : w.clock = stamp)
    (hsettle : σ.status.maySettle = true) :
    exists w', w'.contents.Lists lone.servers.name [claim] ∧ w'.clock = stamp ∧
      forall stage σ' w'', Wins (setting lone) () σ w' ⟨claim, ⟨0, 0⟩⟩ aim stage σ' w'' ->
        Relation.ReflTransGen (Moves (setting lone))
          (c.moved n ⟨(), .waiting (.listing aim round), last⟩ σ w)
          (c.moved n ⟨(), stage, w'⟩ σ' w'') := by
  have hclaimed := hlists.put legible_claim
  have hothers : rs.filter (·.serverId ≠ claim.serverId) = [] := hrivals
  rw [hothers] at hclaimed
  have hnumber : claim.number = Numbering.lowestFree "a" rs := by
    have hheld : Numbering.heldByOthers "a" rs = [] := congrArg (List.map _) hrivals
    rw [Numbering.lowestFree_eq (by rw [hheld]; exact .nil), hheld]
    rfl
  have hnow : answers w .now stamp w := by
    rw [← hclock]
    exact ⟨Instant.le_refl _, hclock ▸ inRange_stamp, rfl⟩
  let w' : World := ⟨w.contents.assign lone.servers.name claim.serverId
    (some (Storable.encode claim)), w.clock, w.events⟩
  have hput : answers w (.call (.put lone.servers.name claim.serverId (Storable.encode claim)))
      (.ok _) w' := ⟨.put, rfl, rfl⟩
  refine ⟨w', hclaimed, hclock, fun stage σ' w'' hwin => ?_⟩
  exact reaches_round claim rfl hnumber hsettle (fun _ _ _ => trivial)
    ⟨trivial, hlists.answers, rfl, rfl⟩ hlists.heard hnow ⟨trivial, hput⟩
    (hlists.heardPrevious _).choose_spec .refl trivial ⟨trivial, hclaimed.answers, rfl, rfl⟩
    hclaimed.heard (by decide) rfl hwin

theorem reading_stamp {w : World} (h : w.clock = stamp) :
    answers w (.readingPast 0) stamp.millis w := by
  refine ⟨w.clock, Instant.le_refl _, ?_, ?_, by decide, rfl⟩
  · rw [h]
    exact inRange_stamp
  · rw [h]

theorem drifts_rival {w : World} (h : w.clock = stamp) (value : Option Bytes) :
    (setting lone).drifts w
      ⟨w.contents.assign lone.servers.name rival.serverId value, w.clock, w.events⟩ := by
  have hother : lone.id.text ≠ rival.serverId := by decide
  have hkept : w.contents.assign lone.servers.name rival.serverId value lone.servers.name
      lone.id.text = w.contents lone.servers.name lone.id.text :=
    w.contents.assign_of_ne value hother
  refine ⟨Instant.le_refl _, ?_, rfl, hkept⟩
  rw [h]
  exact inRange_stamp

theorem lone_contested {c : Cluster Unit World Stage} {σ : Standing} {w : World} (last : World)
    (hlists : w.contents.Lists lone.servers.name [rival, claim]) (hclock : w.clock = stamp)
    (hready : σ.status.isReady = true) :
    exists last' w', w'.contents.Lists lone.servers.name [claim, rival] ∧
      w'.clock = stamp ∧ Relation.ReflTransGen (Moves (setting lone))
        (c.moved 2 ⟨(), .waiting (.refreshing claim), last⟩ σ w)
        (c.moved 2 ⟨(), .waiting (.listing (.renumber claim) ⟨1, 9⟩), last'⟩ σ w') := by
  have hclaimed := hlists.put legible_claim
  let w₁ : World := ⟨w.contents.assign lone.servers.name claim.serverId
    (some (Storable.encode claim)), w.clock, w.events⟩
  have hput : answers w (.call (.put lone.servers.name claim.serverId (Storable.encode claim)))
      (.ok _) w₁ := ⟨.put, rfl, rfl⟩
  rcases hlists.heardPrevious claim.serverId with ⟨previous, hprevious⟩
  let w₂ : World := (setting lone).refreshed () w₁ claim previous
  have hrefreshed := reaches_call (S := setting lone) (c := c) (n := 2) (i := ())
    (s := .refreshing claim) (σ := σ) (w := w) last rfl ⟨trivial, hput⟩ hprevious trivial
    (.refreshed hready)
  have hlist : answers w₂ (.call (.list lone.servers.name)) (.ok _) w₂ :=
    ⟨hclaimed.answers, rfl, rfl⟩
  let w₃ : World := (setting lone).reported () w₂ (.collision claim.number)
  have htry : Tries (setting lone) () σ w₃ (.renumber claim) 1 none (9 + 1) _ w₃ :=
    .list (Status.maySettle_of_isReady hready)
  have hchecked := reaches_call (S := setting lone) (c := c) (n := 2) (i := ())
    (s := .checking claim) (σ := σ) (w := w₂) w₁ rfl ⟨trivial, hlist⟩ hclaimed.heard
    trivial (.contested (by decide) htry)
  exact ⟨w₂, w₃, hclaimed, hclock, hrefreshed.trans hchecked⟩

theorem lone_repeats : exists c id w w',
    Runs (setting lone) (.initial outset) c ∧
      (forall n id w, Issues c n id w -> w.clock = stamp) ∧
      Issues c 1 id w ∧ Issues c 3 id w' := by
  let settled : Settled := ⟨claim, ⟨0, 0⟩⟩
  let issued : Standing := ⟨.ready 0, some (settled.afterIssue stamp.millis)⟩
  let id : UniqueId := (settled.issuer.issue (elapsedAt stamp.millis)).1
  -- the member registers, and issues an id
  have hstart := moves_activate (S := setting lone)
    (c := .initial outset) (n := 0) (i := ()) rfl trivial rfl
    (show _ = 9 + 1 from rfl)
  rcases lone_settles (c := .initial outset) (n := 0)
    (σ := { status := .registering })
    (w := ⟨fun _ _ => none, stamp, [.member lone.id .registering]⟩) .register ⟨1, 9⟩ _
    (Contents.lists_nil fun _ => rfl) rfl rfl rfl with ⟨w, hlists, hclock, hsettles⟩
  have hregistered := hsettles _ _ _ (.register rfl)
  let w₁ := (setting lone).reported () w (.registered 0)
  let c₁ := (Cluster.initial outset : Cluster Unit World Stage).moved 0
    ⟨(), .finished (.registered (.ok 0)), w⟩ ⟨.ready 0, some settled⟩ w₁
  have hissue : Begins (setting lone) () ⟨.ready 0, some settled⟩ w₁ .uniqueId _ issued w₁ :=
    .uniqueId rfl (reading_stamp hclock)
  have hfirst := Moves.start (c := c₁) (n := 1) rfl trivial hissue
  -- a rival with an earlier claim turns up, and is gone when a new number is looked for
  have hrival := hlists.put (r := rival) ⟨Stored.fits_of_size (by decide), by decide⟩
  let w₂ : World := ⟨w.contents.assign lone.servers.name rival.serverId
    (some (Storable.encode rival)), w₁.clock, w₁.events⟩
  let c₂ := c₁.moved 1 ⟨(), .finished (.issued (.ok id)), w₁⟩ issued w₂
  have hturnsUp : Moves (setting lone) (c₁.moved 1 _ issued w₁) c₂ :=
    .drift trivial (drifts_rival (w := w₁) hclock _)
  have hbegin : Begins (setting lone) () issued w₂ .heartbeat
      (.waiting (.refreshing (settled.afterIssue stamp.millis).claim)) issued w₂ :=
    .heartbeat rfl rfl
  have hheartbeat := Moves.start (c := c₂) (n := 2) rfl trivial hbegin
  rcases lone_contested (c := c₂) (w := w₂) w₂ hrival hclock (σ := issued) rfl with
    ⟨last, w₃, hlists₃, hclock₃, hcontested⟩
  have hgone := hlists₃.remove rival.serverId
  let w₄ : World := ⟨w₃.contents.assign lone.servers.name rival.serverId none, w₃.clock, w₃.events⟩
  have hleaves : Moves (setting lone)
      (c₂.moved 2 ⟨(), .waiting (.listing (.renumber claim) ⟨1, 9⟩), last⟩ issued w₃)
      (c₂.moved 2 ⟨(), .waiting (.listing (.renumber claim) ⟨1, 9⟩), last⟩ issued w₄) :=
    .drift trivial (drifts_rival hclock₃ none)
  -- the member takes over the number that it had
  rcases lone_settles (c := c₂) (n := 2) (σ := issued) (w := w₄) (.renumber claim) ⟨1, 9⟩ last
    hgone rfl hclock₃ rfl with ⟨w₅, _, hclock₅, hsettles₅⟩
  have hrenumbered := hsettles₅ _ _ _ (.renumber rfl)
  let w₆ := (setting lone).reported () w₅ (.renumbered 0 0)
  have hissue' : Begins (setting lone) () ⟨.ready 0, some settled⟩ w₆ .uniqueId _ issued w₆ :=
    .uniqueId rfl (reading_stamp hclock₅)
  have hsecond := Moves.start (n := 3) (c := c₂.moved 2 ⟨(), .finished .beaten, w₅⟩
    ⟨.ready 0, some settled⟩ w₆) rfl trivial hissue'
  have hrun := hregistered.trans (.head hfirst (.head hturnsUp (.head hheartbeat
    (hcontested.trans (.head hleaves (hrenumbered.trans (.single hsecond)))))))
  refine ⟨_, _, _, _, runs_of_moves (.head hstart hrun), ?_, ⟨_, rfl, rfl, rfl⟩, ⟨_, rfl, rfl, rfl⟩⟩
  rintro n id' w ⟨t, ht, htask, rfl⟩
  rcases n with _ | _ | _ | _ | n
  · cases ht
    cases htask
  · cases ht
    exact hclock
  · cases ht
    cases htask
  · cases ht
    exact hclock₅
  · cases ht

/-!
# When ids are the same
-/

section

variable {m : Member} {c : Cluster Unit World Stage}

/-- Two ids are the same when they have been issued for one number in one millisecond, with a
renumbering in between. -/
theorem Tracked.eq_iff (h : Tracked m c) {n k : Nat} {t u : Thread Unit World Stage}
    {id id' : UniqueId} (hne : n ≠ k) (ht : c.threads n = some t) (hu : c.threads k = some u)
    (hid : t.task.issued? = some id) (hid' : u.task.issued? = some id') :
    id = id' ↔ id.server = id'.server ∧ t.last.clock.millis = u.last.clock.millis ∧
      t.last.renumberings ≠ u.last.renumberings := by
  rcases h.issued n t id ht hid with ⟨_, hrange, helapsed⟩
  rcases h.issued k u id' hu hid' with ⟨_, hrange', helapsed'⟩
  constructor
  · intro heq
    have hcounts : id.elapsed = id'.elapsed := by rw [heq]
    refine ⟨by rw [heq], elapsedAt_inj hrange hrange' ?_, fun hsame => ?_⟩
    · rw [← helapsed, ← helapsed', hcounts]
    · exact h.apart n k t u id id' hne ht hu hid hid' hsame hcounts
  · rintro ⟨hserver, hclock, _⟩
    refine eq_of_parts hserver ?_
    rw [helapsed, helapsed', hclock]

/-- All ids of a member, when none is issued in a leap second, are different exactly when no two are
issued for one number in one millisecond with a renumbering in between. -/
theorem ids_distinct_iff {w : World} (hw : InRange w.clock.millis) {c : Cluster Unit World Task}
    (hrun : Runs (setting m) (.initial w) c)
    (hleap : forall n id w, Issues c n id w -> w.clock.isLeapSecond = false) :
    (forall n k id id' w w', Issues c n id w -> Issues c k id' w' -> n ≠ k -> id ≠ id') ↔
      forall n k id id' w w', Issues c n id w -> Issues c k id' w' -> id.server = id'.server ->
        w.clock.millis = w'.clock.millis -> w.renumberings = w'.renumberings := by
  have hstep (c c' : Cluster Unit World Stage) (hmove : Moves (setting m) c c')
      (h : Plain c -> Tracked m c) (hplain : Plain c') : Tracked m c' :=
    (h (hplain.of_moves hmove)).move hmove hplain
  rcases holds_of_runs hstep (fun _ => .initial hw) hrun with ⟨c, rfl, h⟩
  have h := h (issuedIn_of_issues hleap)
  constructor
  · intro hdistinct n k id id' w w' hissues hissues' hserver hclock
    rcases issued_of_issues hissues with ⟨t, ht, hid, hlast⟩
    rcases issued_of_issues hissues' with ⟨u, hu, hid', hlast'⟩
    by_contra hbetween
    have hne : n ≠ k := by
      rintro rfl
      cases ht.symm.trans hu
      exact hbetween (by rw [← hlast, ← hlast'])
    refine hdistinct n k id id' w w' hissues hissues' hne ((h.eq_iff hne ht hu hid hid').mpr ?_)
    rw [hlast, hlast']
    exact ⟨hserver, hclock, hbetween⟩
  · intro hsame n k id id' w w' hissues hissues' hne heq
    rcases issued_of_issues hissues with ⟨t, ht, hid, hlast⟩
    rcases issued_of_issues hissues' with ⟨u, hu, hid', hlast'⟩
    rcases (h.eq_iff hne ht hu hid hid').mp heq with ⟨hserver, hclock, hbetween⟩
    rw [hlast, hlast'] at hclock hbetween
    exact hbetween (hsame n k id id' w w' hissues hissues' hserver hclock)

end

/-- The ids of the run that repeats one have been issued with a renumbering in between. -/
theorem lone_renumbered_between : exists c,
    Runs (setting lone) (.initial outset) c ∧
      (forall n id w, Issues c n id w -> w.clock.isLeapSecond = false) ∧
      exists n k id id' w w', Issues c n id w ∧ Issues c k id' w' ∧ id.server = id'.server ∧
        w.clock.millis = w'.clock.millis ∧ w.renumberings ≠ w'.renumberings := by
  rcases lone_repeats with ⟨c, id, w, w', hrun, hclock, hissues, hissues'⟩
  have hleap (n : Nat) (id : UniqueId) (w : World) (h : Issues c n id w) :
      w.clock.isLeapSecond = false := by
    rw [hclock n id w h]
    decide
  refine ⟨c, hrun, hleap, ?_⟩
  by_contra hnone
  have hdistinct := (ids_distinct_iff (w := outset) inRange_stamp hrun hleap).mpr
    fun n k id id' w w' hissues hissues' hserver hclock => by
      by_contra hbetween
      exact hnone ⟨n, k, id, id', w, w', hissues, hissues', hserver, hclock, hbetween⟩
  exact hdistinct 1 3 id id w w' hissues hissues' (by decide) rfl

theorem not_ids_distinct : ¬ forall (m : Member) (w : World), InRange w.clock.millis ->
    forall c, Runs (setting m) (.initial w) c ->
      forall n k id id' w w', Issues c n id w -> Issues c k id' w' -> n ≠ k -> id ≠ id' := by
  intro hdistinct
  rcases lone_repeats with ⟨c, id, w, w', hrun, _, hissues, hissues'⟩
  exact hdistinct lone outset inRange_stamp c hrun 1 3 id id w w' hissues hissues' (by decide) rfl

end Issuing
end Roster
