import Roster.Heartbeat
import Roster.Proofs.Interleaving.Proper
import Roster.Proofs.Numbering
import Roster.Proofs.Registry.Entries
import Roster.Proofs.VirtualTime.World

/-!
# Stretches

What the members of a fleet do from one sleep to the next, as long as their entries hold different
numbers: a claim is staked in one stretch and found to stand in the next, a heartbeat writes the
entry of its member anew, and what comes too late removes it.
-/

namespace Roster

open Interleaving

/-- The number is the lowest one that no entry has, short of the highest there is. -/
structure Entries.LowestFree {ι : Type} (es : Entries ι) (number : UInt32) : Prop where
  below : forall n, n < number.toNat -> exists i r t, es i = some (r, t) ∧ r.number.toNat = n
  free : number.toNat < Numbering.highest ->
    forall i r t, es i = some (r, t) -> r.number ≠ number

def Entries.Alone {ι : Type} (es : Entries ι) (i : ι) (claim : Registration) : Prop :=
  forall j r t, j ≠ i -> es j = some (r, t) -> r.number ≠ claim.number

def Entries.Apart {ι : Type} (es : Entries ι) : Prop :=
  forall i r t, es i = some (r, t) -> es.Alone i r

theorem Entries.Apart.update {ι : Type} [DecidableEq ι] {es : Entries ι} (h : es.Apart) {i : ι}
    {entry : Option (Registration × Nat)}
    (hentry : forall r t, entry = some (r, t) -> es.Alone i r) :
    Entries.Apart (Function.update es i entry) := by
  intro j r t he k r' t' hk he'
  by_cases hj : j = i
  · subst hj
    rw [Function.update_self] at he
    rw [Function.update_of_ne hk] at he'
    exact hentry r t he k r' t' hk he'
  · rw [Function.update_of_ne hj] at he
    by_cases hki : k = i
    · subst hki
      rw [Function.update_self] at he'
      exact (hentry r' t' he' j r t hj he).symm
    · rw [Function.update_of_ne hki] at he'
      exact h j r t he k r' t' hk he'

theorem Entries.Alone.update {ι : Type} [DecidableEq ι] {es : Entries ι} {i : ι}
    {claim : Registration} (h : es.Alone i claim) (entry : Option (Registration × Nat)) :
    Entries.Alone (Function.update es i entry) i claim := by
  intro j r t hj he
  rw [Function.update_of_ne hj] at he
  exact h j r t hj he

namespace VirtualTime

section

variable {α ι ρ : Type} {S : Surroundings ρ} {F : Fleet ι} {i : ι} {σ : Standing} {w : World ρ}
  {es : Entries ι} {claim : Registration} {t : Nat}

/-!
# Single effects
-/

theorem advance_look (f : Standing → Proc α) :
    (Proc.ask .look f).advance S.around σ w = (f σ).advance S.around σ w := rfl

theorem advance_store (σ' : Standing) (f : Unit → Proc α) :
    (Proc.ask (.store σ') f).advance S.around σ w = (f ()).advance S.around σ' w := rfl

theorem advance_report (event : Event) (f : Unit → Proc α) :
    (Proc.ask (.report event) f).advance S.around σ w =
      (f ()).advance S.around σ { w with events := event :: w.events } := rfl

theorem advance_call {c : Call} {answer : Except RegistryError c.Answer} {store : Store}
    (hanswer : w.store.answer w.now c = (answer, store)) (f : (Effect.call c).Answer → Proc α) :
    (Proc.ask (.call c) f).advance S.around σ w =
      (f answer).advance S.around σ { w with store } := by
  change (f (w.store.answer w.now c).1).advance S.around σ
    { w with store := (w.store.answer w.now c).2 } = _
  rw [hanswer]

theorem advance_list (h : es.Held F w.store w.now) (i : ι)
    (f : Except RegistryError (List Registration) → Proc α) :
    exists live store,
      (Proc.ask (.call (.list (F.member i).servers.name)) fun answer =>
          f (heardListing answer)).advance S.around σ w =
        (f (.ok live)).advance S.around σ { w with store } ∧
      (live.map (·.serverId)).Nodup ∧ (forall r, r ∈ live ↔ exists j e, es j = some e ∧ r = e.1.written) ∧
      Store.Kept F.region w.store store ∧ es.Held F store w.now := by
  rcases h.list with ⟨values, store, live, hanswer, hheard, hnodup, hlive, hkept, hheld⟩
  refine ⟨live, store, ?_, hnodup, hlive, hkept, hheld⟩
  have hregion : (F.member i).servers.name = F.region := F.region_eq i
  rw [hregion, advance_call hanswer, hheard]

variable [DecidableEq ι]

theorem advance_put (h : es.Held F w.store w.now) (hclaim : claim.serverId = (F.member i).id.text)
    (f : Except RegistryError (Option Registration) → Proc α) :
    exists store,
      (Proc.ask (.call (.put (F.member i).servers.name (F.member i).id.text
          (Storable.encode claim))) fun answer => f (heardPrevious answer)).advance S.around σ w =
        (f (.ok ((es i).map (·.1.written)))).advance S.around σ { w with store } ∧
      Store.Kept F.region w.store store ∧
      Entries.Held (Function.update es i (some (claim, w.now))) F store w.now := by
  rcases h.put hclaim with ⟨previous, store, hanswer, hheard, hkept, hheld⟩
  refine ⟨store, ?_, hkept, hheld⟩
  have hregion : (F.member i).servers.name = F.region := F.region_eq i
  rw [hregion, advance_call hanswer, hheard]

theorem advance_remove (h : es.Held F w.store w.now) (i : ι)
    (f : Except RegistryError (Option Registration) → Proc α) :
    exists store,
      (Proc.ask (.call (.remove (F.member i).servers.name (F.member i).id.text)) fun answer =>
          f (heardPrevious answer)).advance S.around σ w =
        (f (.ok ((es i).map (·.1.written)))).advance S.around σ { w with store } ∧
      Store.Kept F.region w.store store ∧
      Entries.Held (Function.update es i none) F store w.now := by
  rcases h.remove i with ⟨previous, store, hanswer, hheard, hkept, hheld⟩
  refine ⟨store, ?_, hkept, hheld⟩
  have hregion : (F.member i).servers.name = F.region := F.region_eq i
  rw [hregion, advance_call hanswer, hheard]

end

/-!
# Staking a claim
-/

def Spreads (m : Member) (claim : Registration) (next : Unit → Proc (Except Error UInt32)) : Prop :=
  exists round, forall u, (next u).bind (fun result => .done (.registered result)) =
    (Spot.spreading .register round claim).next m ()

section

variable {ι ρ : Type} {S : Surroundings ρ} {F : Fleet ι} {i : ι} {σ : Standing} {w : World ρ}
  {es : Entries ι} {claim : Registration} {t : Nat}

theorem lowestFree_of_listing (h : es.Held F w.store w.now) (hes : es i = none)
    {live : List Registration} (hlive : forall r, r ∈ live ↔ exists j e, es j = some e ∧ r = e.1.written) :
    es.LowestFree (Numbering.lowestFree (F.member i).id.text live) := by
  constructor
  · intro n hn
    rcases Numbering.exists_of_lt_lowestFree hn with ⟨r, hr, _, hnumber⟩
    rcases (hlive r).mp hr with ⟨j, ⟨claim, t⟩, hj, rfl⟩
    exact ⟨j, claim, t, hj, hnumber⟩
  · intro hhighest j r t hj
    refine Numbering.number_ne_lowestFree (e := r.written) hhighest
      ((hlive r.written).mpr ⟨j, (r, t), hj, rfl⟩) ?_
    change r.serverId ≠ _
    rw [h.named j r t hj]
    intro hid
    rw [F.id_injective j i hid, hes] at hj
    cases hj

theorem verdict_of_alone (h : es.Held F w.store w.now)
    (hclaim : claim.serverId = (F.member i).id.text) (halone : es.Alone i claim)
    {live : List Registration} (hlive : forall r, r ∈ live ↔ exists j e, es j = some e ∧ r = e.1.written) :
    Numbering.verdict claim live ≠ .lost := by
  rw [Numbering.verdict_ne_lost_iff]
  intro e he hnumber hother
  rcases (hlive e).mp he with ⟨j, ⟨r, t⟩, hj, rfl⟩
  refine absurd hnumber (halone j r t ?_ hj)
  rintro rfl
  exact hother ((h.named j r t hj).trans hclaim.symm)

variable [DecidableEq ι]

/-- An activation claims the lowest free number, and sleeps. -/
theorem activate_stretch (h : es.Held F w.store w.now) (hσ : σ.status = .inactive)
    (hes : es i = none) (hattempts : (F.member i).config.settleAttempts ≠ 0) :
    exists claim next store rest,
      (F.member i).activate.advance S.around σ w =
        (.asleep (F.member i).config.settleDelay next, { σ with status := .registering },
          { w with store, events := .member (F.member i).id .registering :: w.events, rest }) ∧
      Spreads (F.member i) claim next ∧ claim.serverId = (F.member i).id.text ∧
      es.LowestFree claim.number ∧ Store.Kept F.region w.store store ∧
      Entries.Held (Function.update es i (some (claim, w.now))) F store w.now := by
  let m := F.member i
  have hpositive : m.config.settleAttempts.toNat ≠ 0 :=
    fun hzero => hattempts (UInt32.toNat_inj.mp hzero)
  rcases Nat.exists_eq_succ_of_ne_zero hpositive with ⟨remaining, hremaining⟩
  let round : Round := ⟨1, remaining⟩
  let w₁ : World ρ := { w with events := .member m.id .registering :: w.events }
  rcases advance_list (S := S) (w := w₁) (σ := { σ with status := .registering }) h i
    ((Spot.listing .register round).next m) with
    ⟨live, store₁, hlisted, -, hlive, hkept₁, hheld₁⟩
  let w₂ : World ρ := { w₁ with store := store₁, rest := (S.answer .now { w₁ with store := store₁ }).2 }
  let claim : Registration := ⟨m.id.text, Numbering.lowestFree m.id.text live,
    (S.answer .now { w₁ with store := store₁ }).1⟩
  have hclaim : claim.serverId = m.id.text := rfl
  rcases advance_put (S := S) (w := w₂) (σ := { σ with status := .registering }) (i := i) hheld₁
    hclaim ((Spot.staking .register round claim).next m) with ⟨store₂, hput, hkept₂, hheld₂⟩
  have hoperation : (Operation.activate.proc m).advance S.around σ w =
      (.asleep m.config.settleDelay (fun _ => (Spot.spreading .register round claim).next m ()),
        { σ with status := .registering },
        { w₂ with store := store₂ }) := by
    rw [Operation.proc_activate, advance_look, if_pos hσ, advance_store, advance_report, hremaining,
      Aim.rounds_succ, advance_look]
    refine hlisted.trans ?_
    rw [Spot.next_listing]
    refine hput.trans ?_
    rw [Spot.next_staking]
    rfl
  rcases Proc.asleep_of_bind_done hoperation with ⟨next, hnext, hspreads⟩
  exact ⟨claim, next, store₂, w₂.rest, hnext, ⟨round, hspreads⟩, hclaim,
    lowestFree_of_listing h hes hlive, hkept₁.trans hkept₂, hheld₂⟩

/-!
# Finding that it stands
-/

omit [DecidableEq ι] in
theorem advance_spread (h : es.Held F w.store w.now) (hσ : σ.status = .registering)
    (hclaim : claim.serverId = (F.member i).id.text) (halone : es.Alone i claim) (round : Round) :
    exists store,
      ((Spot.spreading .register round claim).next (F.member i) ()).advance S.around σ w =
        (Aim.register.settled (F.member i) (.ok claim)).advance S.around σ { w with store } ∧
      Store.Kept F.region w.store store ∧ es.Held F store w.now := by
  let m := F.member i
  rcases advance_list (S := S) (σ := σ) h i ((Spot.verifying .register round claim).next m) with
    ⟨live, store, hlisted, -, hlive, hkept, hheld⟩
  refine ⟨store, ?_, hkept, hheld⟩
  have hsettle : σ.status.maySettle = true := by
    rw [hσ]
    rfl
  rw [Spot.next_spreading, advance_look, if_pos hsettle]
  refine hlisted.trans ?_
  rw [Spot.next_verifying _ _ _ (verdict_of_alone h hclaim halone hlive)]

omit [DecidableEq ι] in
theorem spread_stretch {next : Unit → Proc (Except Error UInt32)}
    (hnext : Spreads (F.member i) claim next) (h : es.Held F w.store w.now)
    (hσ : σ.status = .registering) (hclaim : claim.serverId = (F.member i).id.text)
    (halone : es.Alone i claim) (hrange : claim.number.toNat < UniqueId.serverRange) :
    exists settled store,
      (next ()).advance S.around σ w =
        (.ended (.ok claim.number), { status := .ready claim.number, settled := some settled },
          { w with
            store
            events := .member (F.member i).id (.registered claim.number) :: w.events }) ∧
      settled.claim = claim ∧ Store.Kept F.region w.store store ∧ es.Held F store w.now := by
  rcases hnext with ⟨round, hround⟩
  rcases advance_spread (S := S) h hσ hclaim halone round with ⟨store, hspread, hkept, hheld⟩
  let settled : Settled := ⟨claim, ⟨UInt16.ofNat claim.number.toNat, 0⟩⟩
  have hof : Settled.ofClaim? claim = some settled := Settled.ofClaim?_of_lt hrange
  have hsettled : Aim.register.settled (F.member i) (.ok claim) =
      Aim.register.finish (F.member i) (.ok settled) := by
    simp only [Aim.settled, hof]
  rw [hsettled, Aim.finish_register_ok, advance_look, if_pos hσ, advance_store, advance_report,
    ← hround ()] at hspread
  rcases Proc.ended_of_bind_done hspread with ⟨result, hend, hresult⟩
  cases hresult
  exact ⟨settled, store, hend, rfl, hkept, hheld⟩

theorem advance_abandon (h : es.Held F w.store w.now) (i : ι) (e : Error) :
    exists store,
      (Aim.register.finish (F.member i) (.error e)).advance S.around σ w =
        (.ended (.registered (.error e)),
          if σ.status = .registering then { σ with status := .inactive } else σ,
          { w with
            store
            events := .member (F.member i).id (.registrationFailed e) :: w.events }) ∧
      Store.Kept F.region w.store store ∧
      Entries.Held (Function.update es i none) F store w.now := by
  rcases advance_remove (S := S) (σ := σ) (w := { w with
      events := .member (F.member i).id (.registrationFailed e) :: w.events }) h i
    ((Spot.withdrawing (.abandoning e)).next (F.member i)) with ⟨store, hremoved, hkept, hheld⟩
  refine ⟨store, ?_, hkept, hheld⟩
  have hleave : (Exit.abandoning e).leave = .ask .look fun standing =>
      if standing.status = .registering then
        .ask (.store { standing with status := .inactive }) fun _ => .done (.registered (.error e))
      else .done (.registered (.error e)) :=
    congrArg (Proc.ask .look) (funext fun standing => ite_bind _ _ _)
  rw [Aim.finish_register_error, advance_report]
  refine hremoved.trans ?_
  change (Exit.abandoning e).leave.advance S.around σ _ = _
  rw [hleave, advance_look]
  by_cases hσ : σ.status = .registering
  · rw [if_pos hσ, if_pos hσ]
    rfl
  · rw [if_neg hσ, if_neg hσ]
    rfl

theorem overflow_stretch {next : Unit → Proc (Except Error UInt32)}
    (hnext : Spreads (F.member i) claim next) (h : es.Held F w.store w.now)
    (hσ : σ.status = .registering) (hclaim : claim.serverId = (F.member i).id.text)
    (halone : es.Alone i claim) (hrange : UniqueId.serverRange ≤ claim.number.toNat) :
    exists store events,
      (next ()).advance S.around σ w =
        (.ended (.error (.numberOverflow claim.number)), { σ with status := .inactive },
          { w with store, events }) ∧
      Store.Kept F.region w.store store ∧
      Entries.Held (Function.update es i none) F store w.now := by
  rcases hnext with ⟨round, hround⟩
  rcases advance_spread (S := S) h hσ hclaim halone round with ⟨store₁, hspread, hkept₁, hheld₁⟩
  have hof : Settled.ofClaim? claim = none := by
    unfold Settled.ofClaim? Issuer.start?
    rw [if_neg (Nat.not_lt.mpr hrange)]
    rfl
  have hsettled : Aim.register.settled (F.member i) (.ok claim) =
      Aim.register.finish (F.member i) (.error (.numberOverflow claim.number)) := by
    simp only [Aim.settled, hof]
  rcases advance_abandon (S := S) (σ := σ) (w := { w with store := store₁ }) hheld₁ i
    (.numberOverflow claim.number) with ⟨store₂, habandon, hkept₂, hheld₂⟩
  rw [hsettled, habandon, if_pos hσ, ← hround ()] at hspread
  rcases Proc.ended_of_bind_done hspread with ⟨result, hend, hresult⟩
  cases hresult
  exact ⟨store₂, _, hend, hkept₁.trans hkept₂, hheld₂⟩

theorem late_stretch {next : Unit → Proc (Except Error UInt32)}
    (hnext : Spreads (F.member i) claim next) (h : es.Held F w.store w.now)
    (hσ : σ.status = .deactivated) :
    exists store,
      (next ()).advance S.around σ w =
        (.ended (.error (.invalidState .registering .deactivated)), σ,
          { w with
            store
            events := .member (F.member i).id
              (.registrationFailed (.invalidState .registering .deactivated)) :: w.events }) ∧
      Store.Kept F.region w.store store ∧
      Entries.Held (Function.update es i none) F store w.now := by
  rcases hnext with ⟨round, hround⟩
  let e : Error := .invalidState .registering .deactivated
  rcases advance_abandon (S := S) (σ := σ) h i e with ⟨store, habandon, hkept, hheld⟩
  have hlate : ((Spot.spreading .register round claim).next (F.member i) ()).advance S.around σ w =
      (Aim.register.finish (F.member i) (.error e)).advance S.around σ w := by
    rw [Spot.next_spreading, advance_look, hσ]
    rfl
  rw [habandon, if_neg (by rw [hσ]; exact fun h => nomatch h), ← hround ()] at hlate
  rcases Proc.ended_of_bind_done hlate with ⟨result, hend, hresult⟩
  cases hresult
  exact ⟨store, hend, hkept, hheld⟩

/-!
# Heartbeats
-/

/-- A heartbeat of a ready member finds its entry and writes it anew. -/
theorem heartbeat_stretch (h : es.Held F w.store w.now) {settled : Settled}
    (hσ : σ.status.isReady = true) (hsettled : σ.settled = some settled)
    (hclaim : settled.claim.serverId = (F.member i).id.text) (hes : es i = some (settled.claim, t))
    (halone : es.Alone i settled.claim) :
    exists store,
      (F.member i).heartbeat.advance S.around σ w =
        (.ended (), σ,
          { w with
            store
            events := .member (F.member i).id (.refreshed settled.claim.number) :: w.events }) ∧
      Store.Kept F.region w.store store ∧
      Entries.Held (Function.update es i (some (settled.claim, w.now))) F store w.now := by
  let m := F.member i
  rcases advance_put (S := S) (σ := σ) (i := i) h hclaim
    ((Spot.refreshing settled.claim).next m) with ⟨store₁, hput, hkept₁, hheld₁⟩
  let w₁ : World ρ := { w with
    store := store₁, events := .member m.id (.refreshed settled.claim.number) :: w.events }
  rcases advance_list (S := S) (σ := σ) (w := w₁) hheld₁ i ((Spot.checking settled.claim).next m)
    with ⟨live, store₂, hlisted, -, hlive, hkept₂, hheld₂⟩
  have hoperation : (Operation.heartbeat.proc m).advance S.around σ w =
      (.ended .beaten, σ, { w₁ with store := store₂ }) := by
    rw [Operation.proc_heartbeat, advance_look, hsettled]
    dsimp only
    rw [if_pos hσ]
    refine hput.trans ?_
    rw [hes, Spot.next_refreshing]
    change (if σ.status.isReady then (Spot.checking settled.claim).proc m
      else (Spot.withdrawing .quiet).proc m).advance S.around σ w₁ = _
    rw [if_pos hσ]
    refine hlisted.trans ?_
    rw [Spot.next_checking _ (verdict_of_alone (w := w₁) hheld₁ hclaim (halone.update _) hlive)]
    rfl
  rcases Proc.ended_of_bind_done hoperation with ⟨result, hend, -⟩
  exact ⟨store₂, hend, hkept₁.trans hkept₂, hheld₂⟩

omit [DecidableEq ι] in
theorem heartbeat_idle (m : Member) (hσ : σ.settled = none) :
    m.heartbeat.advance S.around σ w = (.ended (), σ, w) := by
  have hoperation : (Operation.heartbeat.proc m).advance S.around σ w = (.ended .beaten, σ, w) := by
    rw [Operation.proc_heartbeat, advance_look, hσ]
    rfl
  rcases Proc.ended_of_bind_done hoperation with ⟨result, hend, -⟩
  exact hend

/-!
# Deactivation
-/

theorem deactivate_stretch (h : es.Held F w.store w.now)
    (hes : σ.status = .deactivated -> es i = none) :
    exists store events,
      (F.member i).deactivate.advance S.around σ w =
        (.ended (.ok ()), { status := .deactivated, settled := none },
          { w with store, events }) ∧
      (events = w.events ∨ events = .member (F.member i).id .deregistered :: w.events) ∧
      Store.Kept F.region w.store store ∧
      Entries.Held (Function.update es i none) F store w.now := by
  let m := F.member i
  by_cases hσ : σ.status = .deactivated
  · have hoperation : (Operation.deactivate.proc m).advance S.around σ w =
        (.ended (.deregistered (.ok ())), { status := .deactivated, settled := none }, w) := by
      rw [Operation.proc_deactivate, advance_look, advance_store, if_pos hσ]
      rfl
    rcases Proc.ended_of_bind_done hoperation with ⟨result, hend, hresult⟩
    cases hresult
    refine ⟨w.store, w.events, hend, Or.inl rfl, .refl _ _, ?_⟩
    rw [← hes hσ, Function.update_eq_self]
    exact h
  · rcases advance_remove (S := S) (σ := { status := .deactivated, settled := none }) h i
      (Spot.removing.next m) with ⟨store, hremoved, hkept, hheld⟩
    have hoperation : (Operation.deactivate.proc m).advance S.around σ w =
        (.ended (.deregistered (.ok ())), { status := .deactivated, settled := none },
          { w with store, events := .member m.id .deregistered :: w.events }) := by
      rw [Operation.proc_deactivate, advance_look, advance_store, if_neg hσ]
      exact hremoved
    rcases Proc.ended_of_bind_done hoperation with ⟨result, hend, hresult⟩
    cases hresult
    exact ⟨store, _, hend, Or.inr rfl, hkept, hheld⟩

/-!
# Listing
-/

theorem allServers_eq (m : Member) : m.allServers =
    .ask (.call (.list m.servers.name)) fun answer =>
      match heardListing answer with
      | .error e => .done (.error (.registry e))
      | .ok live => .done (.ok live) :=
  list_bind m _

omit [DecidableEq ι] in
theorem allServers_stretch (h : es.Held F w.store w.now) (i : ι) :
    exists live store,
      (F.member i).allServers.advance S.around σ w = (.ended (.ok live), σ, { w with store }) ∧
      (live.map (·.serverId)).Nodup ∧ (forall r, r ∈ live ↔ exists j e, es j = some e ∧ r = e.1.written) ∧
      Store.Kept F.region w.store store ∧ es.Held F store w.now := by
  rcases advance_list (S := S) (σ := σ) h i (fun
      | .error e => Proc.done (.error (.registry e))
      | .ok live => Proc.done (.ok live) :
    Except RegistryError (List Registration) → Proc (Except Error (List Registration))) with
    ⟨live, store, hlisted, hrest⟩
  rw [← allServers_eq] at hlisted
  exact ⟨live, store, hlisted, hrest⟩

end
end VirtualTime
end Roster
