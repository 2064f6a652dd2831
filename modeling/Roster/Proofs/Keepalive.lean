import Mathlib.Data.Fintype.Option
import Roster.Proofs.Config
import Roster.Proofs.VirtualTime.Stretches

/-!
# Heartbeats keep registrations alive

The members of a fleet share a store in which values expire.  Each begins to register at some time,
beats its heart from the moment at which it is registered, and may be deactivated at any time.  When
values outlive the settle delay and the heartbeat interval of every member, no registration is ever
missing: a claim is refreshed for the first time one interval after it had time to spread, and then
once an interval.  All claims are different, since nobody runs between the listing and the staking of
a claim, so no member ever loses its number.
-/

namespace Roster
namespace Keepalive

open Interleaving VirtualTime

/-!
# Members in virtual time
-/

inductive Activity where
  | absent
  | registering (wake : Nat) (next : Unit → Proc (Except Error UInt32))
  | waiting (due : Nat)
  | ticking (due taken wake : Nat) (next : Unit → Proc Bool)
  | finished

namespace Activity

def time? : Activity → Option Nat
  | registering wake _ | ticking _ _ wake _ => some wake
  | waiting due => some due
  | absent | finished => none

def interval (m : Member) : Nat := m.config.heartbeatInterval.millis

variable {ρ : Type} (m : Member) (w : World ρ)

def registered : Halt (Except Error UInt32) → Activity
  | .ended (.ok _) => waiting (w.now + interval m)
  | .ended (.error _) => finished
  | .asleep time next => registering (w.wakeTime time) next

def ticked (due taken : Nat) : Halt Bool → Activity
  | .ended true => waiting (Heartbeat.nextDue (interval m) due taken)
  | .ended false => finished
  | .asleep time next => ticking due taken (w.wakeTime time) next

def closed : Halt Bool → World ρ
  | .ended false => { w with events := .member m.id .heartbeatStopped :: w.events }
  | _ => w

end Activity

structure Cluster (ι ρ : Type) where
  world : World ρ
  standing : ι → Standing
  activity : ι → Activity

namespace Cluster

variable {ι ρ : Type}

def start (w : World ρ) : Cluster ι ρ where
  world := w
  standing := fun _ => {}
  activity := fun _ => .absent

def moved [DecidableEq ι] (c : Cluster ι ρ) (i : ι) (activity : Activity) (σ : Standing)
    (w : World ρ) : Cluster ι ρ where
  world := w
  standing := Function.update c.standing i σ
  activity := Function.update c.activity i activity

def registration? (c : Cluster ι ρ) (F : Fleet ι) (i : ι) : Option Registration :=
  (c.world.store.visible c.world.now).registration? F.region (F.member i).id.text

end Cluster

section

variable {ι ρ : Type} [DecidableEq ι] (S : ι → Surroundings ρ) (F : Fleet ι)

inductive Step (c : Cluster ι ρ) : Cluster ι ρ → Prop where
  | pass (time : Nat)
      (hdue : forall i due, (c.activity i).time? = some due -> c.world.now + time ≤ due) :
      Step c { c with world := c.world.later time }
  | elsewhere {store} (havailable : store.available = c.world.store.available)
      (httl : store.timeToLive = c.world.store.timeToLive)
      (hregion : store.regions.getD F.region ∅ = c.world.store.regions.getD F.region ∅) :
      Step c { c with world := { c.world with store } }
  | activate {i halt σ w} (hi : c.activity i = .absent)
      (hrun : (F.member i).activate.advance (S i).around (c.standing i) c.world = (halt, σ, w)) :
      Step c (c.moved i (.registered (F.member i) w halt) σ w)
  | wake {i wake next halt σ w} (hi : c.activity i = .registering wake next)
      (hdue : wake ≤ c.world.now)
      (hrun : (next ()).advance (S i).around (c.standing i) c.world = (halt, σ, w)) :
      Step c (c.moved i (.registered (F.member i) w halt) σ w)
  | tick {i due halt σ w} (hi : c.activity i = .waiting due) (hdue : due ≤ c.world.now)
      (hrun : (Heartbeat.tick (F.member i)).advance (S i).around (c.standing i) c.world =
        (halt, σ, w)) :
      Step c (c.moved i (.ticked (F.member i) w due c.world.now halt) σ
        (Activity.closed (F.member i) w halt))
  | resume {i due taken wake next halt σ w} (hi : c.activity i = .ticking due taken wake next)
      (hdue : wake ≤ c.world.now)
      (hrun : (next ()).advance (S i).around (c.standing i) c.world = (halt, σ, w)) :
      Step c (c.moved i (.ticked (F.member i) w due taken halt) σ
        (Activity.closed (F.member i) w halt))
  | deactivate {i result σ w} (hi : c.activity i ≠ .absent)
      (hrun : (F.member i).deactivate.advance (S i).around (c.standing i) c.world =
        (.ended result, σ, w)) :
      Step c (c.moved i (c.activity i) σ w)

def Runs : Cluster ι ρ → Cluster ι ρ → Prop :=
  Relation.ReflTransGen (Step S F)

end

/-!
# What a member has got to
-/

/-- What members report as long as nothing goes wrong: no entry is missing, no claim is lost and no
number changes. -/
def calm : MemberEvent → Bool
  | .registering | .registered _ | .refreshed _ | .deregistered | .heartbeatStopped => true
  | .registrationFailed (.invalidState .registering .deactivated) => true
  | _ => false

def Calm (events : List Event) : Prop :=
  forall event, event ∈ events -> exists id e, event = .member id e ∧ calm e = true

/-- A member with its entry and its next moment: what it has written lives until then. -/
inductive Posture (m : Member) (ttl now : Nat) :
    Standing → Option (Registration × Nat) → Activity → Prop where
  | absent {σ} (hstatus : σ.status = .inactive) : Posture m ttl now σ none .absent
  | registering {σ claim t wake next} (hstatus : σ.status = .registering)
      (hnext : Spreads m claim next) (hclaim : claim.serverId = m.id.text)
      (hrange : claim.number.toNat < UniqueId.serverRange) (hnow : now ≤ wake)
      (hlives : wake + Activity.interval m ≤ t + ttl) :
      Posture m ttl now σ (some (claim, t)) (.registering wake next)
  | waiting {σ settled t due} (hstatus : σ.status = .ready settled.claim.number)
      (hsettled : σ.settled = some settled) (hclaim : settled.claim.serverId = m.id.text)
      (hnow : now ≤ due) (hlives : due ≤ t + ttl) :
      Posture m ttl now σ (some (settled.claim, t)) (.waiting due)
  | leaving {σ claim wake next} (hstatus : σ.status = .deactivated)
      (hnext : Spreads m claim next) : Posture m ttl now σ none (.registering wake next)
  | stopping {σ due} (hstatus : σ.status = .deactivated) :
      Posture m ttl now σ none (.waiting due)
  | finished {σ} (hstatus : σ.status = .deactivated) : Posture m ttl now σ none .finished

structure Alive {ι ρ : Type} (F : Fleet ι) (ttl : Nat) (es : Entries ι) (c : Cluster ι ρ) :
    Prop where
  timeToLive : c.world.store.timeToLive = some ttl
  held : es.Held F c.world.store c.world.now
  posture : forall i, Posture (F.member i) ttl c.world.now (c.standing i) (es i)
    (c.activity i)
  apart : es.Apart
  calm : Calm c.world.events

section

variable {m : Member} {ttl now now' : Nat} {σ : Standing}
  {entry : Option (Registration × Nat)} {activity : Activity}

theorem Posture.later (h : Posture m ttl now σ entry activity)
    (hdue : forall due, activity.time? = some due -> now' ≤ due) :
    Posture m ttl now' σ entry activity := by
  cases h with
  | absent hstatus => exact .absent hstatus
  | registering hstatus hnext hclaim hrange hnow hlives =>
      exact .registering hstatus hnext hclaim hrange (hdue _ rfl) hlives
  | waiting hstatus hsettled hclaim hnow hlives =>
      exact .waiting hstatus hsettled hclaim (hdue _ rfl) hlives
  | leaving hstatus hnext => exact .leaving hstatus hnext
  | stopping hstatus => exact .stopping hstatus
  | finished hstatus => exact .finished hstatus

theorem Posture.lives (h : Posture m ttl now σ entry activity) {r : Registration} {t : Nat}
    (hentry : entry = some (r, t)) : now ≤ t + ttl := by
  cases h with
  | registering hstatus hnext hclaim hrange hnow hlives =>
      cases hentry
      omega
  | waiting hstatus hsettled hclaim hnow hlives =>
      cases hentry
      omega
  | absent hstatus | leaving hstatus hnext | stopping hstatus | finished hstatus => cases hentry

theorem Posture.of_absent (h : Posture m ttl now σ entry .absent) :
    σ.status = .inactive ∧ entry = none := by
  cases h with
  | absent hstatus => exact ⟨hstatus, rfl⟩

theorem Posture.deactivated (h : Posture m ttl now σ entry activity) (hbegun : activity ≠ .absent)
    {σ' : Standing} (hstatus : σ'.status = .deactivated) :
    Posture m ttl now σ' none activity := by
  cases h with
  | absent _ => exact absurd rfl hbegun
  | registering _ hnext _ _ _ _ | leaving _ hnext => exact .leaving hstatus hnext
  | waiting _ _ _ _ _ | stopping _ => exact .stopping hstatus
  | finished _ => exact .finished hstatus

theorem Posture.entry_of_live (h : Posture m ttl now σ entry activity)
    (hbegun : activity ≠ .absent) (hlive : σ.status ≠ .deactivated) :
    exists r t, entry = some (r, t) := by
  cases h with
  | absent hstatus => exact absurd rfl hbegun
  | registering _ _ _ _ _ _ | waiting _ _ _ _ _ => exact ⟨_, _, rfl⟩
  | leaving hstatus _ | stopping hstatus | finished hstatus => exact absurd hstatus hlive

theorem Posture.status_of_entry {r : Registration} {t : Nat}
    (h : Posture m ttl now σ (some (r, t)) activity) :
    σ.status = .registering ∨ σ.status = .ready r.number := by
  cases h with
  | registering hstatus _ _ _ _ _ => exact Or.inl hstatus
  | waiting hstatus _ _ _ _ => exact Or.inr hstatus

theorem Posture.entry_of_ready (h : Posture m ttl now σ entry activity) {number : UInt32}
    (hready : σ.status = .ready number) : exists r t, entry = some (r, t) ∧ r.number = number := by
  cases h with
  | waiting hstatus hsettled hclaim hnow hlives =>
      rw [hready] at hstatus
      cases hstatus
      exact ⟨_, _, rfl, rfl⟩
  | absent hstatus | registering hstatus _ _ _ _ _ | leaving hstatus _ | stopping hstatus
  | finished hstatus =>
      rw [hready] at hstatus
      cases hstatus

theorem Posture.entry_of_deactivated (h : Posture m ttl now σ entry activity)
    (hstatus : σ.status = .deactivated) : entry = none := by
  cases h with
  | registering hregistering hnext hclaim hrange hnow hlives =>
      rw [hstatus] at hregistering
      cases hregistering
  | waiting hready hsettled hclaim hnow hlives =>
      rw [hstatus] at hready
      cases hready
  | absent _ | leaving _ _ | stopping _ | finished _ => rfl

theorem Calm.cons {events : List Event} (h : Calm events) (id : ServerId) {e : MemberEvent}
    (he : Keepalive.calm e = true) : Calm (.member id e :: events) := by
  intro event hevent
  rcases List.mem_cons.mp hevent with rfl | hevent
  · exact ⟨id, e, rfl, he⟩
  · exact h event hevent

end

/-!
# Stretches of living members
-/

section

variable {ι ρ : Type} [DecidableEq ι] {S : ι → Surroundings ρ} {F : Fleet ι} {ttl : Nat}
  {es : Entries ι} {c c' : Cluster ι ρ} {i : ι}

omit [DecidableEq ι] in
/-- There are enough numbers: a member without an entry leaves one of them to itself. -/
theorem lowestFree_lt_card [Fintype ι] {number : UInt32} (h : es.LowestFree number)
    (hes : es i = none) : number.toNat < Fintype.card ι := by
  choose holder r t hholder hnumber using h.below
  let seat : Option (Fin number.toNat) → ι
    | none => i
    | some n => holder n.1 n.2
  have hseat : Function.Injective seat := by
    intro a b hab
    cases a with
    | none =>
        cases b with
        | none => rfl
        | some n =>
            have hnone : es (holder n.1 n.2) = none := by
              rw [← show i = holder n.1 n.2 from hab]
              exact hes
            rw [hholder n.1 n.2] at hnone
            cases hnone
    | some n =>
        cases b with
        | none =>
            have hnone : es (holder n.1 n.2) = none := by
              rw [show holder n.1 n.2 = i from hab]
              exact hes
            rw [hholder n.1 n.2] at hnone
            cases hnone
        | some k =>
            have hsame : holder n.1 n.2 = holder k.1 k.2 := hab
            have hn := hholder n.1 n.2
            rw [hsame, hholder k.1 k.2] at hn
            have hregistration : r k.1 k.2 = r n.1 n.2 := congrArg Prod.fst (Option.some.inj hn)
            refine congrArg some (Fin.ext ?_)
            rw [← hnumber n.1 n.2, ← hnumber k.1 k.2, hregistration]
  have hcard := Fintype.card_le_of_injective seat hseat
  rw [Fintype.card_option, Fintype.card_fin] at hcard
  exact hcard

theorem Alive.moved (h : Alive F ttl es c) {activity : Activity} {σ : Standing} {w : World ρ}
    {entry : Option (Registration × Nat)} (hnow : w.now = c.world.now)
    (hkept : Store.Kept F.region c.world.store w.store)
    (hheld : Entries.Held (Function.update es i entry) F w.store w.now)
    (hposture : Posture (F.member i) ttl c.world.now σ entry activity)
    (hentry : forall r t, entry = some (r, t) -> es.Alone i r) (hcalm : Calm w.events) :
    Alive F ttl (Function.update es i entry) (c.moved i activity σ w) where
  timeToLive := hkept.timeToLive.trans h.timeToLive
  held := hheld
  posture := by
    intro j
    dsimp only [Cluster.moved]
    rw [hnow]
    by_cases hj : j = i
    · rw [hj, Function.update_self, Function.update_self, Function.update_self]
      exact hposture
    · rw [Function.update_of_ne hj, Function.update_of_ne hj, Function.update_of_ne hj]
      exact h.posture j
  apart := h.apart.update hentry
  calm := hcalm

def Leads (F : Fleet ι) (ttl : Nat) (es : Entries ι) (c c' : Cluster ι ρ) : Prop :=
  exists es', Alive F ttl es' c' ∧ forall i,
    ((c.standing i).status = .deactivated -> (c'.standing i).status = .deactivated) ∧
      forall r t, es i = some (r, t) -> (c'.standing i).status ≠ .deactivated ->
        exists t', es' i = some (r, t')

theorem leads_moved {activity : Activity} {σ : Standing} {w : World ρ}
    {entry : Option (Registration × Nat)}
    (halive : Alive F ttl (Function.update es i entry) (c.moved i activity σ w))
    (hstatus : (c.standing i).status = .deactivated -> σ.status = .deactivated)
    (hentry : forall r t, es i = some (r, t) -> σ.status ≠ .deactivated ->
      exists t', entry = some (r, t')) : Leads F ttl es c (c.moved i activity σ w) := by
  refine ⟨_, halive, fun j => ?_⟩
  dsimp only [Cluster.moved]
  by_cases hj : j = i
  · subst hj
    rw [Function.update_self, Function.update_self]
    exact ⟨hstatus, hentry⟩
  · rw [Function.update_of_ne hj, Function.update_of_ne hj]
    exact ⟨id, fun r t he _ => ⟨t, he⟩⟩

theorem Alive.activate [Fintype ι] (h : Alive F ttl es c) (hi : c.activity i = .absent)
    (hattempts : (F.member i).config.settleAttempts ≠ 0)
    (hcard : Fintype.card ι ≤ UniqueId.serverRange)
    (httl : (F.member i).config.settleDelay.millis + Activity.interval (F.member i) ≤ ttl) :
    exists claim next w,
      (F.member i).activate.advance (S i).around (c.standing i) c.world =
        (.asleep (F.member i).config.settleDelay next,
          { c.standing i with status := .registering }, w) ∧
      w.now = c.world.now ∧ es i = none ∧ (c.standing i).status = .inactive ∧
      Alive F ttl (Function.update es i (some (claim, c.world.now)))
        (c.moved i (.registering (w.wakeTime (F.member i).config.settleDelay) next)
          { c.standing i with status := .registering } w) := by
  have hposture := h.posture i
  rw [hi] at hposture
  rcases hposture.of_absent with ⟨hstatus, hes⟩
  rcases activate_stretch (S := S i) h.held hstatus hes hattempts with
    ⟨claim, next, store, rest, hstretch, hspreads, hclaim, hlowest, hkept, hheld⟩
  have hrange := lowestFree_lt_card hlowest hes
  have hfree := hlowest.free (Nat.lt_of_lt_of_le hrange (Nat.le_trans hcard (by decide)))
  refine ⟨claim, next, _, hstretch, rfl, hes, hstatus, ?_⟩
  refine h.moved (w := ⟨c.world.now, store, _, rest⟩) rfl hkept hheld
    (.registering rfl hspreads hclaim (Nat.lt_of_lt_of_le hrange hcard) (Nat.le_add_right _ _) ?_)
    ?_ (h.calm.cons _ rfl)
  · have hwake := Nat.min_le_left (F.member i).config.settleDelay.millis
      Rehearsal.World.longestSleep
    unfold World.wakeTime
    dsimp only
    omega
  · intro r t he
    cases he
    exact fun j r t _ hj => hfree j r t hj

theorem Alive.wake (h : Alive F ttl es c) {wake : Nat}
    {next : Unit → Proc (Except Error UInt32)} (hi : c.activity i = .registering wake next)
    (hlive : (c.standing i).status ≠ .deactivated) (hdue : wake ≤ c.world.now) :
    exists settled t w,
      (next ()).advance (S i).around (c.standing i) c.world =
        (.ended (.ok settled.claim.number),
          { status := .ready settled.claim.number, settled := some settled }, w) ∧
      w.now = c.world.now ∧ es i = some (settled.claim, t) ∧
      Alive F ttl (Function.update es i (some (settled.claim, t)))
        (c.moved i (.waiting (c.world.now + Activity.interval (F.member i)))
          { status := .ready settled.claim.number, settled := some settled } w) := by
  have hposture := h.posture i
  rw [hi] at hposture
  generalize hes : es i = entry at hposture
  cases hposture with
  | leaving hstatus _ => exact absurd hstatus hlive
  | registering hstatus hnext hclaim hrange hnow hlives =>
      have halone := h.apart i _ _ hes
      rcases spread_stretch (S := S i) hnext h.held hstatus hclaim halone hrange with
        ⟨settled, store, hstretch, rfl, hkept, hheld⟩
      refine ⟨settled, _, _, hstretch, rfl, rfl, ?_⟩
      rw [← hes]
      refine h.moved (w := ⟨c.world.now, store, _, c.world.rest⟩) rfl hkept ?_ ?_ ?_
        (h.calm.cons _ rfl)
      · rw [Function.update_eq_self]
        exact hheld
      · rw [hes]
        exact .waiting rfl rfl hclaim (Nat.le_add_right _ _) (by omega)
      · intro r t he
        rw [hes] at he
        cases he
        exact halone

theorem Alive.leave (h : Alive F ttl es c) {wake : Nat} {next : Unit → Proc (Except Error UInt32)}
    (hi : c.activity i = .registering wake next)
    (hstatus : (c.standing i).status = .deactivated) :
    exists e w,
      (next ()).advance (S i).around (c.standing i) c.world = (.ended (.error e), c.standing i, w) ∧
      w.now = c.world.now ∧
      Alive F ttl (Function.update es i none) (c.moved i .finished (c.standing i) w) := by
  have hposture := h.posture i
  rw [hi] at hposture
  generalize hes : es i = entry at hposture
  cases hposture with
  | registering hregistering _ _ _ _ _ =>
      rw [hstatus] at hregistering
      cases hregistering
  | leaving _ hnext =>
      rcases late_stretch (S := S i) hnext h.held hstatus with ⟨store, hstretch, hkept, hheld⟩
      exact ⟨_, _, hstretch, rfl, h.moved (w := ⟨c.world.now, store, _, c.world.rest⟩) rfl hkept hheld
        (.finished hstatus) (fun _ _ he => nomatch he) (h.calm.cons _ rfl)⟩

/-!
# Ticks
-/

theorem tick_eq (m : Member) : Heartbeat.tick m = .ask .look fun standing =>
    if standing.status = .deactivated then .done false
    else m.heartbeat.bind fun _ => .done true := rfl

theorem Alive.tick (h : Alive F ttl es c) {due : Nat} (hi : c.activity i = .waiting due)
    (hlive : (c.standing i).status ≠ .deactivated) (hdue : due ≤ c.world.now)
    (httl : Activity.interval (F.member i) ≤ ttl) :
    exists (settled : Settled) (t : Nat) (w : World ρ),
      (Heartbeat.tick (F.member i)).advance (S i).around (c.standing i) c.world =
        (.ended true, c.standing i, w) ∧
      w.now = c.world.now ∧ es i = some (settled.claim, t) ∧
      Alive F ttl (Function.update es i (some (settled.claim, c.world.now)))
        (c.moved i (.waiting (Heartbeat.nextDue (Activity.interval (F.member i)) due c.world.now))
          (c.standing i) w) := by
  have hposture := h.posture i
  rw [hi] at hposture
  generalize hes : es i = entry at hposture
  cases hposture with
  | stopping hstatus => exact absurd hstatus hlive
  | @waiting settled t _ hstatus hsettled hclaim hnow hlives =>
      have halone := h.apart i _ _ hes
      have hready := Status.isReady_of_ready hstatus
      rcases heartbeat_stretch (S := S i) h.held hready hsettled hclaim hes halone with
        ⟨store, hstretch, hkept, hheld⟩
      let w : World ρ := { c.world with
        store
        events := .member (F.member i).id (.refreshed settled.claim.number) :: c.world.events }
      have htick : (Heartbeat.tick (F.member i)).advance (S i).around (c.standing i) c.world =
          (.ended true, c.standing i, w) := by
        rw [tick_eq, advance_look, if_neg hlive, Proc.advance_bind, hstretch]
        rfl
      -- A tick is never taken up late, since nobody oversleeps.
      have honTime : Heartbeat.nextDue (Activity.interval (F.member i)) due c.world.now =
          due + Activity.interval (F.member i) :=
        if_pos (Nat.le_trans hnow (Nat.le_add_right _ _))
      refine ⟨settled, t, w, htick, rfl, rfl, ?_⟩
      rw [honTime]
      refine h.moved (w := w) rfl hkept hheld
        (.waiting hstatus hsettled hclaim (by omega) (by omega)) ?_ (h.calm.cons _ rfl)
      intro r t he
      cases he
      exact halone

theorem Alive.stop (h : Alive F ttl es c)
    (hstatus : (c.standing i).status = .deactivated) :
    (Heartbeat.tick (F.member i)).advance (S i).around (c.standing i) c.world =
        (.ended false, c.standing i, c.world) ∧
      Alive F ttl (Function.update es i none)
        (c.moved i .finished (c.standing i) (Activity.closed (F.member i) c.world (.ended false))) := by
  have hes := (h.posture i).entry_of_deactivated hstatus
  constructor
  · rw [tick_eq, advance_look, if_pos hstatus]
    rfl
  · refine h.moved rfl (.refl _ _) ?_ (.finished hstatus) (fun _ _ he => nomatch he)
      (h.calm.cons _ rfl)
    rw [← hes, Function.update_eq_self]
    exact h.held

/-!
# Deactivations
-/

theorem Alive.deactivate (h : Alive F ttl es c) (hi : c.activity i ≠ .absent) :
    exists w,
      (F.member i).deactivate.advance (S i).around (c.standing i) c.world =
        (.ended (.ok ()), { status := .deactivated, settled := none }, w) ∧
      w.now = c.world.now ∧
      Alive F ttl (Function.update es i none)
        (c.moved i (c.activity i) { status := .deactivated, settled := none } w) := by
  rcases deactivate_stretch (S := S i) h.held (h.posture i).entry_of_deactivated with
    ⟨store, events, hstretch, hevents, hkept, hheld⟩
  refine ⟨_, hstretch, rfl, h.moved (w := ⟨c.world.now, store, events, c.world.rest⟩) rfl hkept hheld
    ((h.posture i).deactivated hi rfl) (fun _ _ he => nomatch he) ?_⟩
  rcases hevents with rfl | rfl
  · exact h.calm
  · exact h.calm.cons _ rfl

/-!
# Steps and runs
-/

omit [DecidableEq ι] in
theorem Alive.pass (h : Alive F ttl es c) {time : Nat}
    (hdue : forall i due, (c.activity i).time? = some due -> c.world.now + time ≤ due) :
    Alive F ttl es { c with world := c.world.later time } := by
  have hposture (i : ι) := (h.posture i).later (hdue i)
  refine ⟨h.timeToLive, ?_, hposture, h.apart, h.calm⟩
  refine h.held.later (Nat.le_add_right _ _) fun i r t he => ?_
  exact (Store.lives_iff h.timeToLive).mpr ((hposture i).lives he)

omit [DecidableEq ι] in
theorem Alive.elsewhere (h : Alive F ttl es c) {store : Store}
    (havailable : store.available = c.world.store.available)
    (httl : store.timeToLive = c.world.store.timeToLive)
    (hregion : store.regions.getD F.region ∅ = c.world.store.regions.getD F.region ∅) :
    Alive F ttl es { c with world := { c.world with store } } where
  timeToLive := httl.trans h.timeToLive
  held := h.held.congr havailable (Store.shelf_congr httl hregion _)
  posture := h.posture
  apart := h.apart
  calm := h.calm

omit [DecidableEq ι] in
theorem leads_of_same (halive : Alive F ttl es c') (hstanding : c'.standing = c.standing) :
    Leads F ttl es c c' := by
  refine ⟨es, halive, fun i => ?_⟩
  rw [hstanding]
  exact ⟨id, fun r t he _ => ⟨t, he⟩⟩

theorem Alive.step [Fintype ι] (hvalid : forall i, (F.member i).config.validate = .ok ())
    (hcard : Fintype.card ι ≤ UniqueId.serverRange)
    (httl : forall i,
      (F.member i).config.settleDelay.millis + Activity.interval (F.member i) ≤ ttl)
    (h : Alive F ttl es c) (hstep : Step S F c c') : Leads F ttl es c c' := by
  cases hstep with
  | pass time hdue => exact leads_of_same (h.pass hdue) rfl
  | elsewhere havailable hlives hregion =>
      exact leads_of_same (h.elsewhere havailable hlives hregion) rfl
  | @activate i halt σ w hi hrun =>
      have hattempts := ((Config.validate_eq_ok _).mp (hvalid i)).attempts_ne_zero
      rcases h.activate (S := S) hi hattempts hcard (httl i) with
        ⟨claim, next, w, hstretch, _, hes, hstatus, halive⟩
      cases hstretch.symm.trans hrun
      refine leads_moved halive (fun hgone => ?_) fun r t he _ => ?_
      · rw [hstatus] at hgone
        cases hgone
      · rw [hes] at he
        cases he
  | @wake i wake next halt σ w hi hdue hrun =>
      by_cases hstatus : (c.standing i).status = .deactivated
      · rcases h.leave (S := S) hi hstatus with ⟨e, w, hstretch, _, halive⟩
        cases hstretch.symm.trans hrun
        exact leads_moved halive id fun r t he hlive => absurd hstatus hlive
      · rcases h.wake (S := S) hi hstatus hdue with ⟨settled, t, w, hstretch, hnow, hes, halive⟩
        cases hstretch.symm.trans hrun
        rw [← hnow] at halive
        refine leads_moved halive (fun hgone => absurd hgone hstatus) fun r t he _ => ?_
        rw [hes] at he
        cases he
        exact ⟨_, rfl⟩
  | @tick i due halt σ w hi hdue hrun =>
      by_cases hstatus : (c.standing i).status = .deactivated
      · rcases h.stop (S := S) hstatus with ⟨hstretch, halive⟩
        cases hstretch.symm.trans hrun
        exact leads_moved halive id fun r t he hlive => absurd hstatus hlive
      · rcases h.tick (S := S) hi hstatus hdue (Nat.le_trans (Nat.le_add_left _ _) (httl i)) with
          ⟨settled, t, w, hstretch, _, hes, halive⟩
        cases hstretch.symm.trans hrun
        refine leads_moved halive id fun r t he _ => ?_
        rw [hes] at he
        cases he
        exact ⟨_, rfl⟩
  | @resume i due taken wake next halt σ w hi hdue hrun =>
      -- Ticks end without sleeping.
      have hposture := h.posture i
      rw [hi] at hposture
      generalize es i = entry at hposture
      cases hposture
  | @deactivate i result σ w hi hrun =>
      rcases h.deactivate (S := S) hi with ⟨w, hstretch, _, halive⟩
      cases hstretch.symm.trans hrun
      exact leads_moved halive (fun _ => rfl) fun r t he hlive => absurd rfl hlive

theorem Alive.runs [Fintype ι] (hvalid : forall i, (F.member i).config.validate = .ok ())
    (hcard : Fintype.card ι ≤ UniqueId.serverRange)
    (httl : forall i,
      (F.member i).config.settleDelay.millis + Activity.interval (F.member i) ≤ ttl)
    (h : Alive F ttl es c) (hrun : Runs S F c c') : Leads F ttl es c c' := by
  induction hrun with
  | refl => exact leads_of_same h rfl
  | tail _ hstep ih =>
      rcases ih with ⟨es₁, h₁, hkeeps₁⟩
      rcases h₁.step (S := S) hvalid hcard httl hstep with ⟨es₂, h₂, hkeeps₂⟩
      refine ⟨es₂, h₂, fun i => ?_⟩
      rcases hkeeps₁ i with ⟨hgone₁, hentry₁⟩
      rcases hkeeps₂ i with ⟨hgone₂, hentry₂⟩
      refine ⟨fun hgone => hgone₂ (hgone₁ hgone), fun r t he hlive => ?_⟩
      rcases hentry₁ r t he (fun hgone => hlive (hgone₂ hgone)) with ⟨t₁, he₁⟩
      exact hentry₂ r t₁ he₁ hlive

omit [DecidableEq ι] in
theorem alive_start {w : World ρ} (havailable : w.store.available = true)
    (httl : w.store.timeToLive = some ttl)
    (hempty : forall key, w.store.visible w.now F.region key = none) (hevents : w.events = []) :
    Alive F ttl (fun _ => none) (Cluster.start w : Cluster ι ρ) where
  timeToLive := httl
  held := Entries.Held.empty havailable fun key => Option.map_eq_none_iff.mp (hempty key)
  posture := fun _ => .absent rfl
  apart := fun _ _ _ h => nomatch h
  calm := by
    intro event hevent
    change event ∈ w.events at hevent
    rw [hevents] at hevent
    cases hevent

/-- Registrations are kept alive: from the moment at which a member has begun to register until it is
deactivated, its registration can be seen under the number that it has claimed.  Nobody ever reports
that an entry is missing, that a claim is lost or that a number has changed, and no two members are
ready with the same number. -/
theorem registrations_kept_alive [Fintype ι]
    (hvalid : forall i, (F.member i).config.validate = .ok ())
    (hcard : Fintype.card ι ≤ 65536)
    (httl : forall i, (F.member i).config.settleDelay.millis +
      (F.member i).config.heartbeatInterval.millis ≤ ttl) {w : World ρ}
    (havailable : w.store.available = true) (hstore : w.store.timeToLive = some ttl)
    (hempty : forall key, w.store.visible w.now F.region key = none) (hevents : w.events = [])
    (hrun : Runs S F (.start w) c) :
    (forall i, c.activity i ≠ .absent -> (c.standing i).status ≠ .deactivated ->
      exists r, forall c', Runs S F c c' -> (c'.standing i).status ≠ .deactivated ->
        c'.registration? F i = some r ∧
          ((c'.standing i).status = .registering ∨ (c'.standing i).status = .ready r.number)) ∧
    (forall event, event ∈ c.world.events -> exists id e, event = .member id e ∧ calm e = true) ∧
    forall i j number, (c.standing i).status = .ready number ->
      (c.standing j).status = .ready number -> i = j := by
  rcases (alive_start havailable hstore hempty hevents).runs (S := S) hvalid hcard httl hrun with
    ⟨es, h, _⟩
  refine ⟨fun i hbegun hlive => ?_, h.calm, fun i j number hi hj => ?_⟩
  · rcases (h.posture i).entry_of_live hbegun hlive with ⟨r, t, he⟩
    refine ⟨r.written, fun c' hrun' hlive' => ?_⟩
    rcases h.runs (S := S) hvalid hcard httl hrun' with ⟨es', h', hkeeps⟩
    rcases (hkeeps i).2 r t he hlive' with ⟨t', he'⟩
    have hposture := h'.posture i
    rw [he'] at hposture
    refine ⟨?_, hposture.status_of_entry⟩
    unfold Cluster.registration?
    rw [h'.held.registration?_eq i, he']
    rfl
  · rcases (h.posture i).entry_of_ready hi with ⟨r, t, he, hr⟩
    rcases (h.posture j).entry_of_ready hj with ⟨r', t', he', hr'⟩
    by_contra hne
    exact h.apart i r t he j r' t' (Ne.symm hne) he' (hr'.trans hr.symm)

end

/-!
# Two members
-/

/-- The first member of a pair is ready after its first tick, at the very end of the time for which
its claim would have lived, and its registration can be seen. -/
theorem pair_kept_alive : exists (c : Cluster Bool Unit) (r : Registration),
    Runs (fun _ => .plain) .pair (.start ⟨0, { timeToLive := some 301000 }, [], ()⟩) c ∧
      c.world.now = 301000 ∧ c.activity false = .waiting 601000 ∧
      (c.standing false).status = .ready r.number ∧ c.registration? .pair false = some r := by
  let S : Bool → Surroundings Unit := fun _ => .plain
  let w₀ : World Unit := ⟨0, { timeToLive := some 301000 }, [], ()⟩
  let c₀ : Cluster Bool Unit := .start w₀
  have hvalid (i : Bool) : (Fleet.pair.member i).config.validate = .ok () :=
    (Config.validate_eq_ok _).mpr Config.valid_default
  have httl (i : Bool) : (Fleet.pair.member i).config.settleDelay.millis +
      (Fleet.pair.member i).config.heartbeatInterval.millis ≤ 301000 :=
    (by decide : (Config.settleDelay {}).millis + (Config.heartbeatInterval {}).millis ≤ 301000)
  have hempty (key : String) : w₀.store.visible w₀.now Fleet.pair.region key = none :=
    Store.visible_eq_none (Store.contents_of_empty rfl _ key) w₀.now
  have h₀ : Alive .pair 301000 (fun _ => none) c₀ := alive_start rfl rfl hempty rfl
  let settle : Nat := min (Config.settleDelay {}).millis Rehearsal.World.longestSleep
  let beat : Nat := Activity.interval (Fleet.pair.member false)
  -- It stakes a claim, and sleeps until that has spread.
  rcases h₀.activate (S := S) (i := false) rfl (by decide) (by decide) (httl false) with
    ⟨claim, next, ⟨_, store₁, events₁, rest₁⟩, hactivate, rfl, -, -, h₁⟩
  let c₁ := c₀.moved false (.registering (w₀.now + settle) next) { status := .registering }
    ⟨w₀.now, store₁, events₁, rest₁⟩
  have hstep₁ : Step S .pair c₀ c₁ := .activate rfl hactivate
  have hdue₁ (i : Bool) (due : Nat) (hdue : (c₁.activity i).time? = some due) :
      w₀.now + settle ≤ due := by
    cases i with
    | false =>
        cases hdue
        exact Nat.le_refl _
    | true => cases hdue
  let c₂ : Cluster Bool Unit := { c₁ with world := c₁.world.later settle }
  have hstep₂ : Step S .pair c₁ c₂ := .pass settle hdue₁
  -- Its claim stands, and its heartbeat starts.
  rcases (h₁.pass hdue₁).wake (S := S) (i := false) rfl (fun h => nomatch h) (Nat.le_refl _) with
    ⟨settled, t, ⟨_, store₃, events₃, rest₃⟩, hwake, rfl, -, h₃⟩
  let σ : Standing := { status := .ready settled.claim.number, settled := some settled }
  let c₃ := c₂.moved false (.waiting (c₂.world.now + beat)) σ
    ⟨c₂.world.now, store₃, events₃, rest₃⟩
  have hstep₃ : Step S .pair c₂ c₃ := .wake rfl (Nat.le_refl _) hwake
  have hdue₃ (i : Bool) (due : Nat) (hdue : (c₃.activity i).time? = some due) :
      c₂.world.now + beat ≤ due := by
    cases i with
    | false =>
        cases hdue
        exact Nat.le_refl _
    | true => cases hdue
  let c₄ : Cluster Bool Unit := { c₃ with world := c₃.world.later beat }
  have hstep₄ : Step S .pair c₃ c₄ := .pass beat hdue₃
  -- Its first tick.
  rcases (h₃.pass hdue₃).tick (S := S) (i := false) rfl (fun h => nomatch h) (Nat.le_refl _)
    (by decide) with ⟨settled', t', ⟨_, store₅, events₅, rest₅⟩, htick, rfl, -, -⟩
  let c₅ := c₄.moved false (.waiting (Heartbeat.nextDue beat (c₂.world.now + beat) c₄.world.now)) σ
    ⟨c₄.world.now, store₅, events₅, rest₅⟩
  have hstep₅ : Step S .pair c₄ c₅ := .tick rfl (Nat.le_refl _) htick
  have hrun : Runs S .pair c₀ c₅ :=
    ((((Relation.ReflTransGen.single hstep₁).tail hstep₂).tail hstep₃).tail hstep₄).tail hstep₅
  rcases (registrations_kept_alive hvalid (by decide) httl rfl rfl hempty rfl hrun).1 false
    (fun h => nomatch h) (fun h => nomatch h) with ⟨r, hkept⟩
  rcases hkept c₅ .refl (fun h => nomatch h) with ⟨hseen, hstatus | hstatus⟩
  · cases hstatus
  · have htime : 0 + settle + beat = 301000 := by decide
    have hdue : Heartbeat.nextDue beat (0 + settle + beat) (0 + settle + beat) = 601000 := by decide
    exact ⟨c₅, r, hrun, htime, congrArg Activity.waiting hdue, hstatus, hseen⟩

end Keepalive
end Roster
