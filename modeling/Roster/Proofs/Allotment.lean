import Mathlib.Order.Bounds.Basic
import Roster.Proofs.Config
import Roster.Proofs.VirtualTime.Stretches

/-!
# Numbers are allotted from below

Members that are asked one request after the other share a store in which values live for ever.  What
they answer is what one allotter of numbers would: whoever activates gets the least number that no
ready member holds, until none of those for which ids can be issued is left, and whoever is
deactivated gives its number back.  Clocks have no say in this.
-/

namespace Roster
namespace Allotment

open Interleaving VirtualTime

inductive Request (ι : Type) where
  | activate (i : ι)
  | heartbeat (i : ι)
  | deactivate (i : ι)
  | serverNumber (i : ι)
  | allServers (i : ι)

inductive Response where
  | activated (result : Except Error UInt32)
  | beaten
  | deactivated (result : Except Error Unit)
  | number (result : Except Error UInt32)
  | servers (result : Except Error (List Registration))

/-!
# The allotter
-/

section

variable {ι : Type} [DecidableEq ι]

def unheld (statuses : ι → Status) : Set Nat :=
  {n | forall i number, statuses i = .ready number -> number.toNat ≠ n}

/-- How an allotter responds to a request, which knows the statuses of the members and nothing
else. -/
inductive Allots (F : Fleet ι) (statuses : ι → Status) :
    Request ι → Response → (ι → Status) → Prop where
  | activate {i number} (hi : statuses i = .inactive) (hleast : IsLeast (unheld statuses) number.toNat)
      (hrange : number.toNat ≤ 65535) :
      Allots F statuses (.activate i) (.activated (.ok number))
        (Function.update statuses i (.ready number))
  | overflow {i number} (hi : statuses i = .inactive)
      (hleast : IsLeast (unheld statuses) number.toNat) (hrange : 65535 < number.toNat) :
      Allots F statuses (.activate i) (.activated (.error (.numberOverflow number))) statuses
  | refuse {i} (hi : statuses i ≠ .inactive) :
      Allots F statuses (.activate i)
        (.activated (.error (.invalidState .inactive (statuses i).phase))) statuses
  | heartbeat {i} : Allots F statuses (.heartbeat i) .beaten statuses
  | deactivate {i} :
      Allots F statuses (.deactivate i) (.deactivated (.ok ()))
        (Function.update statuses i .deactivated)
  | serverNumber {i number} (hi : statuses i = .ready number) :
      Allots F statuses (.serverNumber i) (.number (.ok number)) statuses
  | notReady {i} (hi : (statuses i).isReady = false) :
      Allots F statuses (.serverNumber i) (.number (.error .notReady)) statuses
  | allServers {i live} (hnodup : (live.map (·.serverId)).Nodup)
      (hlive : forall id number, (exists r, r ∈ live ∧ r.serverId = id ∧ r.number = number) ↔
        exists j, (F.member j).id.text = id ∧ statuses j = .ready number) :
      Allots F statuses (.allServers i) (.servers (.ok live)) statuses

end

/-!
# The members
-/

structure Scene (ι ρ : Type) where
  standing : ι → Standing
  world : World ρ

namespace Scene

variable {α ι ρ : Type} (S : ι → Surroundings ρ) (F : Fleet ι)

def start (w : World ρ) : Scene ι ρ where
  standing := fun _ => {}
  world := w

def statuses (x : Scene ι ρ) : ι → Status :=
  fun i => (x.standing i).status

variable [DecidableEq ι]

def run (x : Scene ι ρ) (i : ι) (p : Proc α) : α × Scene ι ρ :=
  let ended := p.complete (S i).around (x.standing i) x.world
  (ended.1, ⟨Function.update x.standing i ended.2.1, ended.2.2⟩)

def serve (x : Scene ι ρ) : Request ι → Response × Scene ι ρ
  | .activate i => (x.run S i (F.member i).activate).map .activated id
  | .heartbeat i => (x.run S i (F.member i).heartbeat).map (fun _ => .beaten) id
  | .deactivate i => (x.run S i (F.member i).deactivate).map .deactivated id
  | .serverNumber i => (x.run S i Member.serverNumber).map .number id
  | .allServers i => (x.run S i (F.member i).allServers).map .servers id

def after (requests : List (Request ι)) (x : Scene ι ρ) : Scene ι ρ :=
  requests.foldl (fun x request => (x.serve S F request).2) x

end Scene

/-!
# What members and their entries have in common
-/

/-- A member that is ready has its claim on record, and any other has no entry. -/
inductive Recorded (σ : Standing) : Option (Registration × Nat) → Prop where
  | present {settled t} (hstatus : σ.status = .ready settled.claim.number)
      (hsettled : σ.settled = some settled)
      (hrange : settled.claim.number.toNat < UniqueId.serverRange) :
      Recorded σ (some (settled.claim, t))
  | absent (hstatus : σ.status = .inactive ∨ σ.status = .deactivated) (hsettled : σ.settled = none) :
      Recorded σ none

structure Orderly {ι ρ : Type} (F : Fleet ι) (es : Entries ι) (x : Scene ι ρ) : Prop where
  timeToLive : x.world.store.timeToLive = none
  held : es.Held F x.world.store x.world.now
  recorded : forall i, Recorded (x.standing i) (es i)
  apart : es.Apart

section

variable {α ι ρ : Type} {S : ι → Surroundings ρ} {F : Fleet ι} {es : Entries ι} {x : Scene ι ρ}
  {i : ι}

theorem Recorded.entry_of_ready {σ : Standing} {entry : Option (Registration × Nat)} {number : UInt32}
    (h : Recorded σ entry) (hσ : σ.status = .ready number) :
    exists settled t, σ.settled = some settled ∧ entry = some (settled.claim, t) ∧
      settled.claim.number = number ∧ number.toNat < UniqueId.serverRange := by
  cases h with
  | present hstatus hsettled hrange =>
      rw [hσ] at hstatus
      cases hstatus
      exact ⟨_, _, hsettled, rfl, rfl, hrange⟩
  | absent hstatus hsettled =>
      rw [hσ] at hstatus
      rcases hstatus with hstatus | hstatus
      · cases hstatus
      · cases hstatus

theorem Recorded.status_of_entry {σ : Standing} {r : Registration} {t : Nat}
    (h : Recorded σ (some (r, t))) :
    σ.status = .ready r.number ∧ r.number.toNat < UniqueId.serverRange := by
  cases h with
  | present hstatus hsettled hrange => exact ⟨hstatus, hrange⟩

theorem Recorded.entry_eq_none {σ : Standing} {entry : Option (Registration × Nat)}
    (h : Recorded σ entry) (hσ : forall number, σ.status ≠ .ready number) :
    entry = none ∧ σ.settled = none := by
  cases h with
  | present hstatus hsettled hrange => exact absurd hstatus (hσ _)
  | absent hstatus hsettled => exact ⟨rfl, hsettled⟩

namespace Orderly

theorem exists_entry_iff (h : Orderly F es x) (j : ι) (number : UInt32) :
    (exists r t, es j = some (r, t) ∧ r.number = number) ↔ x.statuses j = .ready number := by
  constructor
  · rintro ⟨r, t, he, rfl⟩
    have hrecorded := h.recorded j
    rw [he] at hrecorded
    exact hrecorded.status_of_entry.1
  · intro hready
    rcases (h.recorded j).entry_of_ready hready with ⟨settled, t, _, he, hnumber, _⟩
    exact ⟨_, t, he, hnumber⟩

theorem isLeast (h : Orderly F es x) {number : UInt32} (hlowest : es.LowestFree number) :
    IsLeast (unheld x.statuses) number.toNat ∧ forall j r t, es j = some (r, t) ->
      r.number ≠ number := by
  have hhighest : number.toNat < Numbering.highest := by
    refine Nat.lt_of_not_le fun hle => ?_
    rcases hlowest.below UniqueId.serverRange (Nat.lt_of_lt_of_le (by decide) hle) with
      ⟨j, r, t, he, hnumber⟩
    have hrecorded := h.recorded j
    rw [he] at hrecorded
    have hrange := hrecorded.status_of_entry.2
    omega
  have hfree := hlowest.free hhighest
  refine ⟨⟨?_, ?_⟩, hfree⟩
  · intro j held hready hnumber
    rcases (h.exists_entry_iff j held).mpr hready with ⟨r, t, he, rfl⟩
    exact hfree j r t he (UInt32.toNat_inj.mp hnumber)
  · intro n hn
    refine Nat.le_of_not_lt fun hlt => ?_
    rcases hlowest.below n hlt with ⟨j, r, t, he, hnumber⟩
    exact hn j r.number ((h.exists_entry_iff j r.number).mp ⟨r, t, he, rfl⟩) hnumber

variable [DecidableEq ι]

theorem updated (h : Orderly F es x) {σ : Standing} {w : World ρ}
    {entry : Option (Registration × Nat)} (httl : w.store.timeToLive = none)
    (hheld : Entries.Held (Function.update es i entry) F w.store w.now) (hrecorded : Recorded σ entry)
    (hentry : forall r t, entry = some (r, t) -> es.Alone i r) :
    Orderly F (Function.update es i entry) ⟨Function.update x.standing i σ, w⟩ where
  timeToLive := httl
  held := hheld
  recorded := by
    intro j
    dsimp only
    by_cases hj : j = i
    · rw [hj, Function.update_self, Function.update_self]
      exact hrecorded
    · rw [Function.update_of_ne hj, Function.update_of_ne hj]
      exact h.recorded j
  apart := h.apart.update hentry

end Orderly

/-!
# One request
-/

variable [DecidableEq ι]

theorem update_statuses (x : Scene ι ρ) (i : ι) (σ : Standing) (w : World ρ) :
    Scene.statuses ⟨Function.update x.standing i σ, w⟩ =
      Function.update x.statuses i σ.status :=
  Function.comp_update Standing.status x.standing i σ

theorem statuses_kept (x : Scene ι ρ) {i : ι} {σ : Standing} (hσ : σ.status = x.statuses i)
    (w : World ρ) : Scene.statuses ⟨Function.update x.standing i σ, w⟩ = x.statuses := by
  rw [update_statuses, hσ, Function.update_eq_self]

theorem map_run {p : Proc α} {a : α} {σ : Standing} {w : World ρ} (f : α → Response)
    (h : p.complete (S i).around (x.standing i) x.world = (a, σ, w)) :
    (x.run S i p).map f id = (f a, ⟨Function.update x.standing i σ, w⟩) := by
  unfold Scene.run
  rw [h]
  rfl

/-- A request is served as the allotter would, and leaves the members in order. -/
structure Served (S : ι → Surroundings ρ) (F : Fleet ι) (x : Scene ι ρ) (request : Request ι) :
    Prop where
  orderly : exists es, Orderly F es (x.serve S F request).2
  allots : Allots F x.statuses request (x.serve S F request).1 (x.serve S F request).2.statuses
  overflow : forall number, (x.serve S F request).1 = .activated (.error (.numberOverflow number)) ->
    (x.serve S F request).2.world.store.contents = x.world.store.contents

theorem Served.of_eq {request : Request ι} {response : Response} {y : Scene ι ρ} {es' : Entries ι}
    (hserve : x.serve S F request = (response, y)) (horderly : Orderly F es' y)
    (hallots : Allots F x.statuses request response y.statuses)
    (hoverflow : forall number, response = .activated (.error (.numberOverflow number)) ->
      y.world.store.contents = x.world.store.contents) : Served S F x request := by
  constructor
  · rw [hserve]
    exact ⟨es', horderly⟩
  · rw [hserve]
    exact hallots
  · rw [hserve]
    exact hoverflow

theorem Orderly.activate (h : Orderly F es x) (hi : (x.standing i).status = .inactive)
    (hattempts : (F.member i).config.settleAttempts ≠ 0) :
    exists claim next w,
      (F.member i).activate.complete (S i).around (x.standing i) x.world =
        (next ()).complete (S i).around { x.standing i with status := .registering } w ∧
      Spreads (F.member i) claim next ∧ claim.serverId = (F.member i).id.text ∧
      IsLeast (unheld x.statuses) claim.number.toNat ∧ es.Alone i claim ∧
      Store.Kept F.region x.world.store w.store ∧
      Entries.Held (Function.update es i (some (claim, x.world.now))) F w.store w.now := by
  rcases (h.recorded i).entry_eq_none fun _ hready => nomatch hi.symm.trans hready with ⟨hes, _⟩
  rcases activate_stretch (S := S i) h.held hi hes hattempts with
    ⟨claim, next, store, rest, hstretch, hspreads, hclaim, hlowest, hkept, hheld⟩
  rcases h.isLeast hlowest with ⟨hleast, hfree⟩
  refine ⟨claim, next, _, Proc.complete_of_asleep hstretch, hspreads, hclaim, hleast,
    fun j r t _ he => hfree j r t he, hkept, ?_⟩
  exact hheld.later (Nat.le_add_right _ _) fun j r t _ =>
    Store.lives_of_forever (hkept.timeToLive.trans h.timeToLive) _ _

theorem serve_activate_inactive (h : Orderly F es x) (hi : (x.standing i).status = .inactive)
    (hattempts : (F.member i).config.settleAttempts ≠ 0) : Served S F x (.activate i) := by
  rcases (h.recorded i).entry_eq_none fun _ hready => nomatch hi.symm.trans hready with
    ⟨hes, hsettled⟩
  rcases h.activate (S := S) hi hattempts with
    ⟨claim, next, w, hactivate, hspreads, hclaim, hleast, halone, hkept, hheld⟩
  have httl : w.store.timeToLive = none := hkept.timeToLive.trans h.timeToLive
  by_cases hrange : claim.number.toNat < UniqueId.serverRange
  · rcases spread_stretch (S := S i) (σ := { x.standing i with status := .registering }) hspreads hheld
      rfl hclaim (halone.update _) hrange with ⟨settled, store, hstretch, rfl, hkept', hheld'⟩
    rw [Proc.complete_of_ended hstretch] at hactivate
    refine .of_eq (map_run .activated hactivate)
      (h.updated (hkept'.timeToLive.trans httl) hheld' (.present rfl rfl hrange) ?_) ?_
      fun number hoverflow => nomatch hoverflow
    · intro r t he
      cases he
      exact halone
    · rw [update_statuses]
      exact .activate hi hleast (Nat.le_of_lt_succ hrange)
  · have hbeyond : UniqueId.serverRange ≤ claim.number.toNat := Nat.le_of_not_lt hrange
    rcases overflow_stretch (S := S i) (σ := { x.standing i with status := .registering }) hspreads
      hheld rfl hclaim (halone.update _)
      hbeyond with ⟨store, events, hstretch, hkept', hheld'⟩
    rw [Proc.complete_of_ended hstretch] at hactivate
    rw [Function.update_idem] at hheld'
    refine .of_eq (map_run .activated hactivate)
      (h.updated (hkept'.timeToLive.trans httl) hheld' (.absent (Or.inl rfl) hsettled)
        fun r t he => nomatch he) ?_ fun number _ => ?_
    · rw [statuses_kept x (σ := { x.standing i with status := .inactive }) hi.symm]
      exact .overflow hi hleast hbeyond
    · rw [← hes, Function.update_eq_self] at hheld'
      exact h.held.contents_eq hheld' (hkept.trans hkept') h.timeToLive

theorem served_of_unchanged (h : Orderly F es x) {request : Request ι} {p : Proc α} {a : α}
    (f : α → Response) (hserve : x.serve S F request = (x.run S i p).map f id)
    (hp : p.complete (S i).around (x.standing i) x.world = (a, x.standing i, x.world))
    (hallots : Allots F x.statuses request (f a) x.statuses) : Served S F x request := by
  have hrun := map_run (S := S) (x := x) f hp
  rw [Function.update_eq_self] at hrun
  exact .of_eq (hserve.trans hrun) h hallots fun _ _ => rfl

theorem serve_activate (h : Orderly F es x) (i : ι)
    (hattempts : (F.member i).config.settleAttempts ≠ 0) : Served S F x (.activate i) := by
  by_cases hi : (x.standing i).status = .inactive
  · exact serve_activate_inactive h hi hattempts
  · refine served_of_unchanged h .activated rfl ?_ (.refuse hi)
    change Proc.complete _ (if (x.standing i).status = .inactive then _ else _) _ _ = _
    rw [if_neg hi]
    rfl

theorem serve_heartbeat (h : Orderly F es x) (i : ι) : Served S F x (.heartbeat i) := by
  have hrecorded := h.recorded i
  generalize hes : es i = entry at hrecorded
  cases hrecorded with
  | absent hstatus hsettled =>
      have hidle := heartbeat_idle (S := S i) (w := x.world) (F.member i) hsettled
      exact served_of_unchanged h (fun _ => .beaten) rfl (Proc.complete_of_ended hidle) .heartbeat
  | @present settled t hstatus hsettled hrange =>
      have hready := Status.isReady_of_ready hstatus
      have halone := h.apart i _ t hes
      rcases heartbeat_stretch (S := S i) h.held hready hsettled (h.held.named i _ t hes) hes
        halone with ⟨store, hstretch, hkept, hheld⟩
      refine .of_eq (map_run (fun _ => .beaten) (Proc.complete_of_ended hstretch))
        (h.updated (hkept.timeToLive.trans h.timeToLive) hheld (.present hstatus hsettled hrange)
          ?_) ?_ fun _ hoverflow => nomatch hoverflow
      · intro r t he
        cases he
        exact halone
      · rw [statuses_kept x (σ := x.standing i) rfl]
        exact .heartbeat

theorem serve_deactivate (h : Orderly F es x) (i : ι) : Served S F x (.deactivate i) := by
  have hgone (hstatus : (x.standing i).status = .deactivated) : es i = none :=
    ((h.recorded i).entry_eq_none fun _ hready => nomatch hstatus.symm.trans hready).1
  rcases deactivate_stretch (S := S i) h.held hgone with
    ⟨store, events, hstretch, _, hkept, hheld⟩
  refine .of_eq (map_run .deactivated (Proc.complete_of_ended hstretch))
    (h.updated (hkept.timeToLive.trans h.timeToLive) hheld (.absent (Or.inr rfl) rfl)
      fun r t he => nomatch he) ?_ fun _ hoverflow => nomatch hoverflow
  rw [update_statuses]
  exact .deactivate

omit [DecidableEq ι] in
theorem complete_serverNumber_of_ready {σ : Standing} {w : World ρ} {number : UInt32}
    (h : σ.status = .ready number) :
    Member.serverNumber.complete (S i).around σ w = (.ok number, σ, w) := by
  rcases σ with ⟨status, settled⟩
  cases h
  rfl

omit [DecidableEq ι] in
theorem complete_serverNumber_of_not_ready {σ : Standing} {w : World ρ}
    (h : σ.status.isReady = false) :
    Member.serverNumber.complete (S i).around σ w = (.error .notReady, σ, w) := by
  rcases σ with ⟨status, settled⟩
  cases status with
  | ready number => cases h
  | inactive | registering | deactivated => rfl

theorem serve_serverNumber (h : Orderly F es x) (i : ι) : Served S F x (.serverNumber i) := by
  cases hstatus : (x.standing i).status with
  | ready number =>
      exact served_of_unchanged h .number rfl (complete_serverNumber_of_ready hstatus)
        (.serverNumber hstatus)
  | inactive | registering | deactivated =>
      have hready : (x.standing i).status.isReady = false := by
        rw [hstatus]
        rfl
      exact served_of_unchanged h .number rfl (complete_serverNumber_of_not_ready hready)
        (.notReady hready)

theorem serve_allServers (h : Orderly F es x) (i : ι) : Served S F x (.allServers i) := by
  rcases allServers_stretch (S := S i) (σ := x.standing i) h.held i with
    ⟨live, store, hstretch, hnodup, hlive, hkept, hheld⟩
  have hserve : x.serve S F (.allServers i) = _ :=
    map_run .servers (Proc.complete_of_ended hstretch)
  rw [Function.update_eq_self] at hserve
  refine .of_eq hserve ⟨hkept.timeToLive.trans h.timeToLive, hheld, h.recorded, h.apart⟩ ?_
    fun _ hoverflow => nomatch hoverflow
  refine .allServers hnodup fun id number => ?_
  constructor
  · rintro ⟨r, hr, rfl, rfl⟩
    rcases (hlive r).mp hr with ⟨j, ⟨claim, t⟩, he, rfl⟩
    exact ⟨j, (h.held.named j claim t he).symm, (h.exists_entry_iff j _).mp ⟨claim, t, he, rfl⟩⟩
  · rintro ⟨j, rfl, hready⟩
    rcases (h.exists_entry_iff j number).mpr hready with ⟨r, t, he, hnumber⟩
    exact ⟨r.written, (hlive r.written).mpr ⟨j, (r, t), he, rfl⟩, h.held.named j r t he, hnumber⟩

/-!
# All requests
-/

theorem served (hattempts : forall i, (F.member i).config.settleAttempts ≠ 0) (h : Orderly F es x)
    (request : Request ι) : Served S F x request := by
  cases request with
  | activate i => exact serve_activate h i (hattempts i)
  | heartbeat i => exact serve_heartbeat h i
  | deactivate i => exact serve_deactivate h i
  | serverNumber i => exact serve_serverNumber h i
  | allServers i => exact serve_allServers h i

theorem orderly_after (hattempts : forall i, (F.member i).config.settleAttempts ≠ 0)
    (h : Orderly F es x) (requests : List (Request ι)) :
    exists es', Orderly F es' (x.after S F requests) := by
  induction requests generalizing x es with
  | nil => exact ⟨es, h⟩
  | cons request rest ih =>
      rcases (served (S := S) hattempts h request).orderly with ⟨es', h'⟩
      exact ih h'

omit [DecidableEq ι] in
theorem orderly_start {w : World ρ} (havailable : w.store.available = true)
    (httl : w.store.timeToLive = none) (hempty : forall key, w.store.contents F.region key = none) :
    Orderly F (fun _ => none) (Scene.start w) where
  timeToLive := httl
  held := Entries.Held.empty havailable fun key => by
    have hnone := hempty key
    rw [← Store.visible_of_forever httl w.now] at hnone
    exact Option.map_eq_none_iff.mp hnone
  recorded := fun _ => .absent (Or.inl rfl) rfl
  apart := fun _ _ _ h => nomatch h

/-- Members that are asked one request after the other respond as an allotter of the least numbers
would, and a member that gets none leaves the registry as it was. -/
theorem requests_allotted (hvalid : forall i, (F.member i).config.validate = .ok ()) {w : World ρ}
    (havailable : w.store.available = true) (httl : w.store.timeToLive = none)
    (hempty : forall key, w.store.contents F.region key = none) (requests : List (Request ι))
    (hx : (Scene.start w).after S F requests = x) (request : Request ι) :
    Allots F x.statuses request (x.serve S F request).1 (x.serve S F request).2.statuses ∧
      forall number, (x.serve S F request).1 = .activated (.error (.numberOverflow number)) ->
        (x.serve S F request).2.world.store.contents = x.world.store.contents := by
  have hattempts (i : ι) : (F.member i).config.settleAttempts ≠ 0 :=
    ((Config.validate_eq_ok _).mp (hvalid i)).attempts_ne_zero
  rcases orderly_after (S := S) hattempts (orderly_start havailable httl hempty) requests with
    ⟨es, hes⟩
  rw [hx] at hes
  have hserved := served (S := S) hattempts hes request
  exact ⟨hserved.allots, hserved.overflow⟩

/-!
# Two members
-/

theorem Allots.first {statuses statuses' : ι → Status} {response : Response}
    (h : Allots F statuses (.activate i) response statuses') (hi : statuses i = .inactive)
    (hnobody : forall j, (statuses j).isReady = false) :
    response = .activated (.ok 0) ∧ statuses' = Function.update statuses i (.ready 0) := by
  have hzero (number : UInt32) (hleast : IsLeast (unheld statuses) number.toNat) : number = 0 := by
    have hunheld : 0 ∈ unheld statuses := by
      intro j held hready
      have hj := hnobody j
      rw [hready] at hj
      cases hj
    exact UInt32.toNat_inj.mp (Nat.le_zero.mp (hleast.2 hunheld))
  cases h with
  | activate _ hleast _ =>
      rw [hzero _ hleast]
      exact ⟨rfl, rfl⟩
  | overflow _ hleast hrange =>
      rw [hzero _ hleast] at hrange
      cases hrange
  | refuse hrefused => exact absurd hi hrefused

theorem Allots.released {statuses statuses' : ι → Status} {response : Response}
    (h : Allots F statuses (.deactivate i) response statuses') :
    statuses' = Function.update statuses i .deactivated := by
  cases h with
  | deactivate => rfl

end

/-- The first member registers and leaves; the second one gets its number. -/
theorem pair_number_reused : exists x : Scene Bool Unit,
    (Scene.start ⟨0, {}, [], ()⟩).after (fun _ => .plain) .pair
        [.activate false, .deactivate false] = x ∧
      x.statuses false = .deactivated ∧
      (x.serve (fun _ => .plain) .pair (.activate true)).1 = .activated (.ok 0) := by
  let S : Bool → Surroundings Unit := fun _ => .plain
  let x₀ : Scene Bool Unit := .start ⟨0, {}, [], ()⟩
  let x₁ := (x₀.serve S .pair (.activate false)).2
  let x₂ := (x₁.serve S .pair (.deactivate false)).2
  have hvalid (i : Bool) : (Fleet.pair.member i).config.validate = .ok () :=
    (Config.validate_eq_ok _).mpr Config.valid_default
  have hempty (key : String) : Store.contents {} Fleet.pair.region key = none :=
    Store.contents_of_empty rfl _ key
  have hfirst := (requests_allotted (S := S) (x := x₀) hvalid rfl rfl hempty [] rfl
    (.activate false)).1.first rfl fun _ => rfl
  have hsecond := (requests_allotted (S := S) (x := x₁) hvalid rfl rfl hempty [.activate false] rfl
    (.deactivate false)).1.released
  rw [hfirst.2, Function.update_idem] at hsecond
  have hthird := (requests_allotted (S := S) (x := x₂) hvalid rfl rfl hempty
    [.activate false, .deactivate false] rfl (.activate true)).1.first
  rw [hsecond] at hthird
  refine ⟨x₂, rfl, by rw [hsecond]; rfl, (hthird rfl ?_).1⟩
  intro j
  cases j with
  | false | true => rfl

end Allotment
end Roster
