import Roster.Proofs.Completion
import Roster.Proofs.Interleaving.Proper
import Roster.Proofs.Numbering
import Roster.Proofs.Registry.InMemory

/-!
# Heartbeats without interruption

A heartbeat that nothing interrupts writes the claim of its member again.  When another claim to its
number comes first, the member takes over a number that nobody else holds.  The store is available
and keeps its values; clocks, pauses and reports are answered by the surroundings, whatever these
do.
-/

namespace Roster
namespace Healing

open Interleaving

/-!
# Stores that can be read
-/

def entries (store : Store) (region : String) : String → Option Registration :=
  store.contents.registration? region

theorem entries_congr {store store' : Store} {region : String}
    (h : store'.contents region = store.contents region) :
    entries store' region = entries store region := by
  funext key
  unfold entries Contents.registration?
  rw [h]

theorem entries_eq_some {store : Store} {region : String} {r : Registration} (hfits : r.Fits)
    (h : store.contents region r.serverId = some (Storable.encode r)) :
    entries store region r.serverId = some r.written := by
  unfold entries Contents.registration?
  rw [h, Option.bind_some, Contents.decode_encode hfits]
  rfl

theorem entries_update {store store' : Store} {region : String} {r : Registration}
    (hfits : r.Fits) (h : store'.contents region =
      Function.update (store.contents region) r.serverId (some (Storable.encode r))) :
    entries store' region = Function.update (entries store region) r.serverId (some r.written) := by
  funext key
  by_cases hkey : key = r.serverId
  · rw [hkey, Function.update_self]
    exact entries_eq_some hfits (by rw [h, Function.update_self])
  · unfold entries Contents.registration?
    rw [Function.update_of_ne hkey, h, Function.update_of_ne hkey]

/-- The store is available for good, and holds under each key a registration of the server with
that id. -/
structure Legible (store : Store) (region : String) (keys : List String) : Prop where
  available : store.available = true
  timeToLive : store.timeToLive = none
  nodup : keys.Nodup
  keys_iff : forall key, key ∈ keys ↔ store.contents region key ≠ none
  reads : forall key, key ∈ keys -> exists r, entries store region key = some r ∧ r.serverId = key

namespace Legible

variable {store : Store} {region : String} {keys : List String}

theorem decode_of_contents (h : Legible store region keys) {key : String} {bytes : Bytes}
    (hbytes : store.contents region key = some bytes) :
    exists r, Registration.decode bytes = .ok r ∧ r.serverId = key := by
  have hkey : key ∈ keys := (h.keys_iff key).mpr (by rw [hbytes]; exact fun h => nomatch h)
  rcases h.reads key hkey with ⟨r, hr, hid⟩
  unfold entries Contents.registration? at hr
  rw [hbytes, Option.bind_some] at hr
  cases hdecode : Registration.decode bytes with
  | error fault =>
      rw [hdecode] at hr
      cases hr
  | ok record =>
      rw [hdecode] at hr
      cases hr
      exact ⟨r, rfl, hid⟩

theorem serverId_eq (h : Legible store region keys) {key : String} {r : Registration}
    (hr : entries store region key = some r) : r.serverId = key :=
  Contents.Sound.serverId_eq (fun _ hbytes => h.decode_of_contents hbytes) hr

theorem list (h : Legible store region keys) (now : Nat) :
    exists values store' live, store.answer now (.list region) = (.ok values, store') ∧
      heardListing (.ok values) = .ok live ∧ live.length = keys.length ∧
      (forall r, r ∈ live ↔ exists key, entries store region key = some r) ∧
      Legible store' region keys ∧ store'.contents region = store.contents region := by
  rcases Store.answers_of_available h.available h.timeToLive now (.list region) with
    ⟨values, store', hanswer, havailable, httl, hlist⟩
  have hcontents := hlist.eq_of_list
  have hentries : entries store' region = entries store region :=
    entries_congr (congrFun hcontents region)
  have hlegible : Legible store' region keys := by
    refine ⟨havailable, httl, h.nodup, ?_, ?_⟩
    · rw [hcontents]
      exact h.keys_iff
    · rw [hentries]
      exact h.reads
  rcases Contents.listing_ok hlist h.nodup h.keys_iff fun key bytes hbytes =>
    (h.decode_of_contents hbytes).imp fun _ hr => hr.1 with ⟨live, hlive, hlength⟩
  exact ⟨values, store', live, hanswer, hlive, hlength, Contents.mem_listing hlist hlive, hlegible,
    congrFun hcontents region⟩

theorem put (h : Legible store region keys) {r : Registration} (hkey : r.serverId ∈ keys)
    (hfits : r.Fits) (now : Nat) :
    exists previous store' before,
      store.answer now (.put region r.serverId (Storable.encode r)) = (.ok previous, store') ∧
      heardPrevious (.ok previous) = .ok before ∧ Legible store' region keys ∧
      store'.contents region =
        Function.update (store.contents region) r.serverId (some (Storable.encode r)) := by
  rcases Store.answers_of_available h.available h.timeToLive now
    (.put region r.serverId (Storable.encode r)) with
    ⟨previous, store', hanswer, havailable, httl, hput⟩
  rcases hput.put_ok with ⟨rfl, hcontents⟩
  have hbytes : store'.contents region =
      Function.update (store.contents region) r.serverId (some (Storable.encode r)) := by
    funext key
    rw [hcontents]
    by_cases hid : key = r.serverId
    · rw [hid, Function.update_self, Contents.assign_self]
    · rw [Function.update_of_ne hid, Contents.assign_of_ne _ _ hid]
  have hlegible : Legible store' region keys := by
    refine ⟨havailable, httl, h.nodup, fun key => ?_, fun key hmem => ?_⟩
    · rw [hbytes]
      by_cases hid : key = r.serverId
      · rw [hid, Function.update_self]
        exact ⟨fun _ h => (nomatch h), fun _ => hkey⟩
      · rw [Function.update_of_ne hid]
        exact h.keys_iff key
    · rw [entries_update hfits hbytes]
      by_cases hid : key = r.serverId
      · exact ⟨r.written, by rw [hid, Function.update_self], hid.symm⟩
      · rw [Function.update_of_ne hid]
        exact h.reads key hmem
  cases hbefore : store.contents region r.serverId with
  | none => exact absurd hbefore ((h.keys_iff _).mp hkey)
  | some bytes =>
      rcases h.decode_of_contents hbefore with ⟨before, hdecode, _⟩
      refine ⟨_, store', some before, by rw [hanswer, hbefore], ?_, hlegible, hbytes⟩
      change (Region.decode bytes).map some = .ok (some before)
      rw [Contents.decode_eq_ok.mpr hdecode]
      rfl

end Legible

/-!
# What a heartbeat asks for
-/

structure Surroundings (ρ : Type) where
  answer : (e : Effect) → ρ → e.Answer × ρ
  now : ρ → Nat

def Surroundings.around {ρ : Type} (S : Surroundings ρ) :
    (e : Effect) → Store × ρ → e.Answer × (Store × ρ)
  | .call c, (store, r) =>
      ((store.answer (S.now r) c).1, ((store.answer (S.now r) c).2, r))
  | e, (store, r) => ((S.answer e r).1, (store, (S.answer e r).2))

def Unheld (es : String → Option Registration) (id : String) (number : UInt32) : Prop :=
  forall key e, key ≠ id -> es key = some e -> e.number ≠ number

/-- No entry of another server with the number of the claim comes before it. -/
def Stands (es : String → Option Registration) (claim : Registration) : Prop :=
  forall key e, key ≠ claim.serverId -> es key = some e -> e.number = claim.number ->
    claim.outranks e = true

theorem Unheld.update {es : String → Option Registration} {id : String} {number : UInt32}
    (h : Unheld es id number) (entry : Option Registration) :
    Unheld (Function.update es id entry) id number := by
  intro key e hkey he
  rw [Function.update_of_ne hkey] at he
  exact h key e hkey he

theorem Unheld.stands {es : String → Option Registration} {claim : Registration}
    (h : Unheld es claim.serverId claim.number) : Stands es claim :=
  fun key e hkey he hnumber => absurd hnumber (h key e hkey he)

section

variable {ρ : Type} {S : Surroundings ρ} {m : Member} {σ : Standing} {store : Store}
  {region : String} {keys : List String} {live : List Registration} {claim : Registration}

/-!
# What listings show
-/

theorem stands_iff (h : Legible store region keys)
    (hlive : forall r, r ∈ live ↔ exists key, entries store region key = some r) :
    Stands (entries store region) claim ↔ Numbering.verdict claim live ≠ .lost := by
  rw [Numbering.verdict_ne_lost_iff]
  constructor
  · intro hstands e he hnumber hserver
    rcases (hlive e).mp he with ⟨key, hkey⟩
    have hid := h.serverId_eq hkey
    exact hstands key e (by rw [← hid]; exact hserver) hkey hnumber
  · intro hverdict key e hkey he hnumber
    have hid := h.serverId_eq he
    exact hverdict e ((hlive e).mpr ⟨key, he⟩) hnumber (by rw [hid]; exact hkey)

theorem unheld_lowestFree (h : Legible store region keys) {id : String} (hid : id ∈ keys)
    (hcount : keys.length ≤ UniqueId.serverRange) (hlength : live.length = keys.length)
    (hlive : forall r, r ∈ live ↔ exists key, entries store region key = some r) :
    (Numbering.lowestFree id live).toNat < UniqueId.serverRange ∧
      Unheld (entries store region) id (Numbering.lowestFree id live) := by
  rcases h.reads id hid with ⟨own, hown, hserver⟩
  have hfree : (Numbering.lowestFree id live).toNat < live.length :=
    Numbering.lowestFree_lt_length ((hlive own).mpr ⟨id, hown⟩) hserver
  have hrange : (Numbering.lowestFree id live).toNat < UniqueId.serverRange := by omega
  refine ⟨hrange, fun key e hkey he => ?_⟩
  have hhighest : (Numbering.lowestFree id live).toNat < Numbering.highest := by
    unfold UniqueId.serverRange at hrange
    unfold Numbering.highest
    omega
  refine Numbering.number_ne_lowestFree hhighest ((hlive e).mpr ⟨key, he⟩) ?_
  rw [h.serverId_eq he]
  exact hkey

end

/-!
# From spot to spot
-/

def Surroundings.ending {ρ : Type} (S : Surroundings ρ) (m : Member) (s : Spot) (σ : Standing)
    (store : Store) (r : ρ) : Standing × Store × ρ :=
  ((s.proc m).complete S.around σ (store, r)).2

section

variable {ρ : Type} {S : Surroundings ρ} {m : Member} {σ : Standing} {store store' : Store}
  {region : String} {keys : List String} {live : List Registration} {claim : Registration}

theorem complete_list {f : Except RegistryError (List Registration) → Proc Outcome} {r : ρ}
    {values : List Bytes} (hanswer : store.answer (S.now r) (.list region) = (.ok values, store'))
    (hlive : heardListing (.ok values) = .ok live) :
    (Proc.ask (.call (.list region)) fun answer => f (heardListing answer)).complete S.around σ
        (store, r) =
      (f (.ok live)).complete S.around σ (store', r) := by
  change (f (heardListing (store.answer (S.now r) (.list region)).1)).complete S.around σ
    ((store.answer (S.now r) (.list region)).2, r) = _
  rw [hanswer]
  dsimp only
  rw [hlive]

theorem complete_put {f : Except RegistryError (Option Registration) → Proc Outcome} {r : ρ}
    {key : String} {bytes : Bytes} {previous : Option Bytes} {before : Option Registration}
    (hanswer : store.answer (S.now r) (.put region key bytes) = (.ok previous, store'))
    (hbefore : heardPrevious (.ok previous) = .ok before) :
    (Proc.ask (.call (.put region key bytes)) fun answer => f (heardPrevious answer)).complete
        S.around σ (store, r) =
      (f (.ok before)).complete S.around σ (store', r) := by
  change (f (heardPrevious (store.answer (S.now r) (.put region key bytes)).1)).complete S.around σ
    ((store.answer (S.now r) (.put region key bytes)).2, r) = _
  rw [hanswer]
  dsimp only
  rw [hbefore]

theorem ending_refreshing (h : Legible store m.servers.name keys)
    (hready : σ.status.isReady = true) (hclaim : claim.serverId = m.id.text)
    (hkey : m.id.text ∈ keys) (hfits : Stored.Fits m.id.text) (r : ρ) :
    exists store' r', S.ending m (.refreshing claim) σ store r =
        S.ending m (.checking claim) σ store' r' ∧
      Legible store' m.servers.name keys ∧ store'.contents m.servers.name =
        Function.update (store.contents m.servers.name) m.id.text
          (some (Storable.encode claim)) := by
  rw [← hclaim] at hkey hfits
  rcases h.put hkey hfits (S.now r) with
    ⟨previous, store', before, hanswer, hbefore, hlegible, hput⟩
  rw [hclaim] at hanswer hput
  let event : MemberEvent :=
    if before.isSome then .refreshed claim.number else .reappeared claim.number
  refine ⟨store', (S.answer (.report (.member m.id event)) r).2, ?_, hlegible, hput⟩
  refine congrArg Prod.snd
    ((complete_put (f := (Spot.refreshing claim).next m) hanswer hbefore).trans ?_)
  rw [Spot.next_refreshing]
  change Proc.complete S.around (if σ.status.isReady then _ else _) σ _ = _
  rw [if_pos hready]
  rfl

theorem ending_uncontested (h : Legible store m.servers.name keys)
    (hstands : Stands (entries store m.servers.name) claim) (r : ρ) :
    exists store' r', S.ending m (.checking claim) σ store r = (σ, store', r') ∧
      Legible store' m.servers.name keys ∧
      store'.contents m.servers.name = store.contents m.servers.name := by
  rcases h.list (S.now r) with
    ⟨values, store', live, hanswer, hheard, hlength, hlive, hlegible, hcontents⟩
  refine ⟨store', r, ?_, hlegible, hcontents⟩
  have hverdict := (stands_iff h hlive).mp hstands
  have hlisted := complete_list (σ := σ) (f := (Spot.checking claim).next m) hanswer hheard
  rw [Spot.next_checking m hverdict] at hlisted
  exact congrArg Prod.snd hlisted

theorem ending_contested (h : Legible store m.servers.name keys)
    (hstands : ¬ Stands (entries store m.servers.name) claim) (hready : σ.status.isReady = true)
    (hattempts : m.config.settleAttempts ≠ 0) (r : ρ) :
    exists store' r' remaining, S.ending m (.checking claim) σ store r =
        S.ending m (.listing (.renumber claim) ⟨1, remaining⟩) σ store' r' ∧
      Legible store' m.servers.name keys ∧
      store'.contents m.servers.name = store.contents m.servers.name := by
  rcases h.list (S.now r) with
    ⟨values, store', live, hanswer, hheard, hlength, hlive, hlegible, hcontents⟩
  have hverdict : Numbering.verdict claim live = .lost :=
    not_not.mp fun hverdict => hstands ((stands_iff h hlive).mpr hverdict)
  have hpositive : m.config.settleAttempts.toNat ≠ 0 :=
    fun hzero => hattempts (UInt32.toNat_inj.mp hzero)
  rcases Nat.exists_eq_succ_of_ne_zero hpositive with ⟨remaining, hremaining⟩
  refine ⟨store', (S.answer (.report (.member m.id (.collision claim.number))) r).2, remaining, ?_,
    hlegible, hcontents⟩
  refine congrArg Prod.snd ((complete_list (f := (Spot.checking claim).next m) hanswer hheard).trans
    ?_)
  rw [Spot.next_checking_lost m hverdict, hremaining, Aim.rounds_succ]
  change Proc.complete S.around (if σ.status.maySettle then _ else _) σ _ = _
  rw [if_pos (Status.maySettle_of_isReady hready)]
  rfl

theorem ending_listing (aim : Aim) (round : Round) (h : Legible store m.servers.name keys)
    (hkey : m.id.text ∈ keys) (hcount : keys.length ≤ UniqueId.serverRange) (r : ρ) :
    exists claim store' r', S.ending m (.listing aim round) σ store r =
        S.ending m (.staking aim round claim) σ store' r' ∧
      claim.serverId = m.id.text ∧ claim.number.toNat < UniqueId.serverRange ∧
      Unheld (entries store m.servers.name) m.id.text claim.number ∧
      Legible store' m.servers.name keys ∧
      store'.contents m.servers.name = store.contents m.servers.name := by
  rcases h.list (S.now r) with
    ⟨values, store', live, hanswer, hheard, hlength, hlive, hlegible, hcontents⟩
  rcases unheld_lowestFree h hkey hcount hlength hlive with ⟨hrange, hunheld⟩
  let claim : Registration :=
    ⟨m.id.text, Numbering.lowestFree m.id.text live, (S.answer .now r).1⟩
  refine ⟨claim, store', (S.answer .now r).2, ?_, rfl, hrange, hunheld, hlegible, hcontents⟩
  refine congrArg Prod.snd ((complete_list (f := (Spot.listing aim round).next m) hanswer
    hheard).trans ?_)
  rw [Spot.next_listing]
  rfl

theorem ending_staking (aim : Aim) (round : Round) (h : Legible store m.servers.name keys)
    (hclaim : claim.serverId = m.id.text) (hkey : m.id.text ∈ keys) (hfits : Stored.Fits m.id.text)
    (r : ρ) :
    exists store', S.ending m (.staking aim round claim) σ store r =
        S.ending m (.spreading aim round claim) σ store' r ∧
      Legible store' m.servers.name keys ∧ store'.contents m.servers.name =
        Function.update (store.contents m.servers.name) m.id.text
          (some (Storable.encode claim)) := by
  rw [← hclaim] at hkey hfits
  rcases h.put hkey hfits (S.now r) with
    ⟨previous, store', before, hanswer, hbefore, hlegible, hput⟩
  rw [hclaim] at hanswer hput
  refine ⟨store', ?_, hlegible, hput⟩
  refine congrArg Prod.snd ((complete_put (f := (Spot.staking aim round claim).next m) hanswer
    hbefore).trans ?_)
  rw [Spot.next_staking]

theorem ending_spreading (aim : Aim) (round : Round) (claim : Registration) (store : Store)
    (hready : σ.status.isReady = true) (r : ρ) :
    exists r', S.ending m (.spreading aim round claim) σ store r =
      S.ending m (.verifying aim round claim) σ store r' := by
  refine ⟨(S.answer (.pause m.config.settleDelay) r).2, congrArg Prod.snd ?_⟩
  change Proc.complete S.around ((Spot.spreading aim round claim).next m ()) σ _ = _
  rw [Spot.next_spreading]
  change Proc.complete S.around (if σ.status.maySettle then _ else _) σ _ = _
  rw [if_pos (Status.maySettle_of_isReady hready)]
  rfl

theorem ending_verifying (old : Registration) (round : Round)
    (h : Legible store m.servers.name keys)
    (hready : σ.status.isReady = true) (hrange : claim.number.toNat < UniqueId.serverRange)
    (hclaim : claim.serverId = m.id.text)
    (hstands : Stands (entries store m.servers.name) claim) (r : ρ) :
    exists settled store' r', S.ending m (.verifying (.renumber old) round claim) σ store r =
        ({ status := .ready claim.number, settled := some settled }, store', r') ∧
      settled.claim = claim ∧ settled.Proper m.id.text ∧ Legible store' m.servers.name keys ∧
      store'.contents m.servers.name = store.contents m.servers.name := by
  rcases h.list (S.now r) with
    ⟨values, store', live, hanswer, hheard, hlength, hlive, hlegible, hcontents⟩
  have hverdict := (stands_iff h hlive).mp hstands
  have hof := Settled.ofClaim?_of_lt hrange
  rcases Settled.proper_of_ofClaim? hof hclaim with ⟨_, _, hproper⟩
  have hsettled : (Aim.renumber old).settled m (.ok claim) =
      (Aim.renumber old).finish m (.ok ⟨claim, ⟨UInt16.ofNat claim.number.toNat, 0⟩⟩) := by
    simp only [Aim.settled, hof]
  refine ⟨_, store', (S.answer (.report (.member m.id (.renumbered old.number claim.number))) r).2,
    ?_, rfl, hproper, hlegible, hcontents⟩
  refine congrArg Prod.snd ((complete_list (f := (Spot.verifying _ round claim).next m) hanswer
    hheard).trans (c := (Outcome.beaten, _)) ?_)
  rw [Spot.next_verifying _ _ _ hverdict, hsettled, Aim.finish_renumber_ok]
  change Proc.complete S.around (if σ.status.isReady then _ else _) σ _ = _
  rw [if_pos hready]
  rfl

/-!
# From end to end
-/

theorem heartbeat_ending {settled : Settled} (hready : σ.status.isReady = true)
    (hsettled : σ.settled = some settled) (r : ρ) :
    (m.heartbeat.complete S.around σ (store, r)).2 =
      S.ending m (.refreshing settled.claim) σ store r := by
  have hbeat : ((Operation.heartbeat.proc m).complete S.around σ (store, r)).2 =
      (m.heartbeat.complete S.around σ (store, r)).2 :=
    congrArg Prod.snd (Proc.complete_bind m.heartbeat _)
  rw [← hbeat, Operation.proc_heartbeat]
  rcases σ with ⟨status, held⟩
  cases hsettled
  change (Proc.complete S.around (if status.isReady then _ else _) _ _).2 = _
  rw [if_pos hready]
  rfl

/-- A heartbeat of a ready member whose claim is on record keeps the claim where it stands, and
claims a number that nobody else holds where it does not. -/
theorem heartbeat_complete (h : Legible store m.servers.name keys) (hσ : σ.Proper m.id.text)
    {settled : Settled} (hsettled : σ.settled = some settled)
    (hbytes : store.contents m.servers.name m.id.text = some (Storable.encode settled.claim))
    (hcount : keys.length ≤ UniqueId.serverRange) (hfits : Stored.Fits m.id.text)
    (hattempts : m.config.settleAttempts ≠ 0) (r : ρ) :
    exists settled' store' r', (m.heartbeat.complete S.around σ (store, r)).2 =
        ({ status := .ready settled'.claim.number, settled := some settled' }, store', r') ∧
      settled'.Proper m.id.text ∧ Legible store' m.servers.name keys ∧
      store'.contents m.servers.name = Function.update (store.contents m.servers.name) m.id.text
        (some (Storable.encode settled'.claim)) ∧
      ((Stands (entries store m.servers.name) settled.claim ∧ settled' = settled) ∨
        (¬ Stands (entries store m.servers.name) settled.claim ∧
          Unheld (entries store m.servers.name) m.id.text settled'.claim.number)) := by
  rcases hσ.of_settled settled hsettled with ⟨hstatus, hproper⟩
  have hready := Status.isReady_of_ready hstatus
  have hkey : m.id.text ∈ keys := (h.keys_iff _).mpr (by rw [hbytes]; exact fun h => nomatch h)
  have hsame : Function.update (store.contents m.servers.name) m.id.text
      (some (Storable.encode settled.claim)) = store.contents m.servers.name := by
    rw [← hbytes]
    exact Function.update_eq_self _ _
  rw [heartbeat_ending hready hsettled]
  rcases ending_refreshing (S := S) h hready hproper.serverId_eq hkey hfits r with
    ⟨store₁, r₁, hrefreshed, h₁, hbytes₁⟩
  rw [hsame] at hbytes₁
  have hentries₁ := entries_congr hbytes₁
  rw [hrefreshed]
  by_cases hstands : Stands (entries store m.servers.name) settled.claim
  · rcases ending_uncontested (S := S) (m := m) (σ := σ) h₁ (by rw [hentries₁]; exact hstands) r₁
      with ⟨store₂, r₂, hend, h₂, hbytes₂⟩
    refine ⟨settled, store₂, r₂, ?_, hproper, h₂, ?_, Or.inl ⟨hstands, rfl⟩⟩
    · rw [hend, ← hstatus, ← hsettled]
    · rw [hsame, hbytes₂, hbytes₁]
  · rcases ending_contested (S := S) (σ := σ) h₁ (by rw [hentries₁]; exact hstands) hready hattempts
      r₁ with ⟨store₂, r₂, remaining, hcontested, h₂, hbytes₂⟩
    rcases ending_listing (S := S) (σ := σ) (.renumber settled.claim) ⟨1, remaining⟩ h₂ hkey hcount
      r₂ with
      ⟨claim, store₃, r₃, hlisted, hclaim, hrange, hunheld, h₃, hbytes₃⟩
    rcases ending_staking (S := S) (σ := σ) (.renumber settled.claim) ⟨1, remaining⟩ h₃ hclaim hkey
      hfits r₃ with ⟨store₄, hstaked, h₄, hbytes₄⟩
    rcases ending_spreading (S := S) (m := m) (.renumber settled.claim) ⟨1, remaining⟩ claim store₄
      hready r₃ with ⟨r₄, hspread⟩
    rw [entries_congr hbytes₂, hentries₁] at hunheld
    rw [hbytes₃, hbytes₂, hbytes₁] at hbytes₄
    have hstands₄ : Stands (entries store₄ m.servers.name) claim := by
      rw [← hclaim] at hbytes₄ hfits hunheld
      rw [entries_update hfits hbytes₄]
      exact (hunheld.update _).stands
    rcases ending_verifying (S := S) settled.claim ⟨1, remaining⟩ h₄ hready
      hrange hclaim hstands₄ r₄ with ⟨settled', store₅, r₅, hend, rfl, hproper', h₅, hbytes₅⟩
    refine ⟨settled', store₅, r₅, ?_, hproper', h₅, hbytes₅.trans hbytes₄,
      Or.inr ⟨hstands, hunheld⟩⟩
    rw [hcontested, hlisted, hstaked, hspread, hend]

end

end Healing
end Roster
