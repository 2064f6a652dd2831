import Roster.Proofs.Config
import Roster.Proofs.Healing.Beat

/-!
# One round of heartbeats

Members that share a store run one heartbeat each, in any order.  However many claims collide at
first, none do in the end: a member whose claim does not stand takes over a number that nobody else
holds, and whoever moves later does not take it away from it.

What is compared with the claim that a member holds are the claims of the others as they are read,
so that two claims can come before each other when one was made in a leap second inside a minute.
Only members that keep their first claims are exposed to this, because nobody else holds the number
of one that has moved.
-/

namespace Roster
namespace Healing

open Interleaving (Fleet)

/-!
# Rounds
-/

structure Scene (ι ρ : Type) where
  standing : ι → Standing
  store : Store
  rest : ρ

section

variable {ι ρ : Type} [DecidableEq ι] (S : ι → Surroundings ρ) (F : Fleet ι)

def beat (x : Scene ι ρ) (i : ι) : Scene ι ρ :=
  let result := (F.member i).heartbeat.complete (S i).around (x.standing i) (x.store, x.rest)
  ⟨Function.update x.standing i result.2.1, result.2.2.1, result.2.2.2⟩

def round (order : List ι) (x : Scene ι ρ) : Scene ι ρ :=
  order.foldl (beat S F) x

omit [DecidableEq ι] in
/-- What is on record under the id of a member is its claim. -/
structure Recorded (x : Scene ι ρ) (i : ι) (settled : Settled) : Prop where
  holds : (x.standing i).settled = some settled
  bytes : x.store.contents F.region (F.member i).id.text = some (Storable.encode settled.claim)

/-- All members are ready with their claims on record, among few others. -/
structure Ready (x : Scene ι ρ) (keys : List String) : Prop where
  legible : Legible x.store F.region keys
  few : keys.length ≤ UniqueId.serverRange
  proper : forall i, (x.standing i).Proper (F.member i).id.text
  recorded : forall i, exists settled, Recorded F x i settled

/-- A member stands where it stood at first, or nobody else holds its number. -/
def Exclusive (first : ι → Standing) (x : Scene ι ρ) : Prop :=
  forall i settled, (x.standing i).settled = some settled -> x.standing i = first i ∨
    Unheld (entries x.store F.region) (F.member i).id.text settled.claim.number

/-- The claim of a member comes before those of all others to its number. -/
def Safe (x : Scene ι ρ) (i : ι) : Prop :=
  exists settled, (x.standing i).settled = some settled ∧
    Stands (entries x.store F.region) settled.claim

end

/-!
# What one heartbeat changes
-/

section

variable {ι ρ : Type} [DecidableEq ι] {S : ι → Surroundings ρ} {F : Fleet ι}
  {x : Scene ι ρ} {keys : List String}

structure Beaten (F : Fleet ι) (x y : Scene ι ρ) (i : ι) (settled settled' : Settled) :
    Prop where
  standing : y.standing =
    Function.update x.standing i
      { status := .ready settled'.claim.number, settled := some settled' }
  written : y.store.contents F.region =
    Function.update (x.store.contents F.region) (F.member i).id.text
      (some (Storable.encode settled'.claim))
  proper : settled'.Proper (F.member i).id.text
  kept : (Stands (entries x.store F.region) settled.claim ∧ settled' = settled) ∨
    (¬ Stands (entries x.store F.region) settled.claim ∧
      Unheld (entries x.store F.region) (F.member i).id.text settled'.claim.number)

theorem beaten (h : Ready F x keys)
    (hattempts : forall i, (F.member i).config.settleAttempts ≠ 0) (i : ι) :
    exists settled settled', Recorded F x i settled ∧
      Legible (beat S F x i).store F.region keys ∧
      Beaten F x (beat S F x i) i settled settled' := by
  rcases h.recorded i with ⟨settled, hrecorded⟩
  have hregion : (F.member i).servers.name = F.region := F.region_eq i
  have hlegible := h.legible
  have hbytes := hrecorded.bytes
  rw [← hregion] at hlegible hbytes
  rcases heartbeat_complete (S := S i) hlegible (h.proper i) hrecorded.holds hbytes h.few
    (F.fits i) (hattempts i) x.rest with
    ⟨settled', store', r', hbeat, hproper, hlegible', hwritten, hkept⟩
  rw [hregion] at hlegible' hwritten hkept
  have hscene : beat S F x i = ⟨Function.update x.standing i
      { status := .ready settled'.claim.number, settled := some settled' }, store', r'⟩ := by
    unfold beat
    dsimp only
    rw [hbeat]
  rw [hscene]
  exact ⟨settled, settled', hrecorded, hlegible', rfl, hwritten, hproper, hkept⟩

omit [DecidableEq ι] in
theorem id_ne {i j : ι} (h : j ≠ i) : (F.member j).id.text ≠ (F.member i).id.text :=
  fun heq => h (F.id_injective j i heq)

omit [DecidableEq ι] in
theorem Ready.entry (hx : Ready F x keys) {i : ι} {settled : Settled}
    (h : Recorded F x i settled) :
    entries x.store F.region (F.member i).id.text = some settled.claim.written := by
  have hserver := ((hx.proper i).of_settled settled h.holds).2.serverId_eq
  have hbytes := h.bytes
  have hfits : settled.claim.Fits := by
    unfold Registration.Fits
    rw [hserver]
    exact F.fits i
  rw [← hserver] at hbytes ⊢
  exact entries_eq_some hfits hbytes

theorem Beaten.entries_eq {y : Scene ι ρ} {i : ι} {settled settled' : Settled}
    (h : Beaten F x y i settled settled') : entries y.store F.region =
      Function.update (entries x.store F.region) (F.member i).id.text
        (some settled'.claim.written) := by
  have hwritten := h.written
  have hfits : settled'.claim.Fits := by
    unfold Registration.Fits
    rw [h.proper.serverId_eq]
    exact F.fits i
  rw [← h.proper.serverId_eq] at hwritten ⊢
  exact entries_update hfits hwritten

theorem Beaten.ready {y : Scene ι ρ} {i : ι} {settled settled' : Settled}
    (h : Beaten F x y i settled settled') (hx : Ready F x keys)
    (hlegible : Legible y.store F.region keys) : Ready F y keys where
  legible := hlegible
  few := hx.few
  proper := by
    intro j
    rw [h.standing]
    by_cases hj : j = i
    · rw [hj, Function.update_self]
      refine ⟨fun _ hnone => (nomatch hnone), fun settled hsettled => ?_⟩
      cases hsettled
      exact ⟨rfl, h.proper⟩
    · rw [Function.update_of_ne hj]
      exact hx.proper j
  recorded := by
    intro j
    by_cases hj : j = i
    · subst hj
      exact ⟨settled', by rw [h.standing, Function.update_self],
        by rw [h.written, Function.update_self]⟩
    · rcases hx.recorded j with ⟨own, hown⟩
      refine ⟨own, by rw [h.standing, Function.update_of_ne hj]; exact hown.holds, ?_⟩
      rw [h.written, Function.update_of_ne (id_ne hj)]
      exact hown.bytes

theorem Beaten.standing_of_kept {y : Scene ι ρ} {i : ι} {settled settled' : Settled}
    (h : Beaten F x y i settled settled') (hx : Ready F x keys)
    (hholds : (x.standing i).settled = some settled) (hkept : settled' = settled) :
    y.standing i = x.standing i := by
  subst hkept
  have hstatus := ((hx.proper i).of_settled settled' hholds).1
  rw [h.standing, Function.update_self, ← hstatus, ← hholds]

theorem Beaten.exclusive {y : Scene ι ρ} {i : ι} {settled settled' : Settled}
    {first : ι → Standing} (h : Beaten F x y i settled settled') (hx : Ready F x keys)
    (hrecorded : Recorded F x i settled) (hfirst : Exclusive F first x) :
    Exclusive F first y := by
  intro j own hown
  by_cases hj : j = i
  · subst hj
    rcases h.kept with ⟨_, hsame⟩ | ⟨_, hunheld⟩
    · have hstanding := h.standing_of_kept hx hrecorded.holds hsame
      rw [hstanding] at hown ⊢
      cases hrecorded.holds.symm.trans hown
      rw [h.entries_eq]
      exact (hfirst j settled hown).imp_right fun hunheld => hunheld.update _
    · rw [h.standing, Function.update_self] at hown
      cases hown
      rw [h.entries_eq]
      exact Or.inr (hunheld.update _)
  · rw [h.standing, Function.update_of_ne hj] at hown ⊢
    refine (hfirst j own hown).imp_right fun hunheld key e hkey he => ?_
    rw [h.entries_eq] at he
    by_cases hid : key = (F.member i).id.text
    · rw [hid, Function.update_self] at he
      cases he
      rcases h.kept with ⟨_, rfl⟩ | ⟨_, hfree⟩
      · exact hunheld _ _ (id_ne hj).symm (hx.entry hrecorded)
      · rcases hx.recorded j with ⟨own', hrecorded'⟩
        cases hown.symm.trans hrecorded'.holds
        exact (hfree _ _ (id_ne hj) (hx.entry hrecorded')).symm
    · rw [Function.update_of_ne hid] at he
      exact hunheld key e hkey he

theorem Beaten.safe {y : Scene ι ρ} {i : ι} {settled settled' : Settled}
    (h : Beaten F x y i settled settled')
    (hentry : entries x.store F.region (F.member i).id.text = some settled.claim.written) :
    Safe F y i := by
  refine ⟨settled', by rw [h.standing, Function.update_self], ?_⟩
  rw [h.entries_eq]
  rcases h.kept with ⟨hstands, rfl⟩ | ⟨_, hunheld⟩
  · rw [← hentry, Function.update_eq_self]
    exact hstands
  · rw [← h.proper.serverId_eq] at hunheld ⊢
    exact (hunheld.update _).stands

theorem Beaten.undisturbed {y : Scene ι ρ} {i j : ι} {settled settled' : Settled}
    (h : Beaten F x y i settled settled') (hx : Ready F x keys)
    (hrecorded : Recorded F x i settled) (hsafe : Safe F x j) :
    Safe F y j ∧ y.standing j = x.standing j := by
  rcases hsafe with ⟨held, hheld, hstands⟩
  have hentry := hx.entry hrecorded
  by_cases hj : j = i
  · subst hj
    cases hrecorded.holds.symm.trans hheld
    refine ⟨h.safe hentry, ?_⟩
    rcases h.kept with ⟨_, hsame⟩ | ⟨hfails, _⟩
    · exact h.standing_of_kept hx hheld hsame
    · exact absurd hstands hfails
  · have hstanding : y.standing j = x.standing j := by
      rw [h.standing, Function.update_of_ne hj]
    refine ⟨⟨held, by rw [hstanding]; exact hheld, ?_⟩, hstanding⟩
    rcases hx.recorded j with ⟨held', hown⟩
    cases hheld.symm.trans hown.holds
    intro key e hkey he hnumber
    rw [h.entries_eq] at he
    by_cases hid : key = (F.member i).id.text
    · rw [hid] at he hkey
      rw [Function.update_self] at he
      cases he
      rcases h.kept with ⟨_, rfl⟩ | ⟨_, hunheld⟩
      · exact hstands _ _ hkey hentry hnumber
      · exact absurd hnumber.symm (hunheld _ held.claim.written (id_ne hj) (hx.entry hown))
    · rw [Function.update_of_ne hid] at he
      exact hstands key e hkey he hnumber

/-!
# What a round changes
-/

theorem round_cons (i : ι) (order : List ι) (x : Scene ι ρ) :
    round S F (i :: order) x = round S F order (beat S F x i) := rfl

/-- A round disturbs no member that is safe, and makes safe all that take part. -/
theorem round_safe (hx : Ready F x keys)
    (hattempts : forall i, (F.member i).config.settleAttempts ≠ 0) (order : List ι) :
    Ready F (round S F order x) keys ∧
      (forall first, Exclusive F first x -> Exclusive F first (round S F order x)) ∧
      (forall j, Safe F x j -> Safe F (round S F order x) j ∧
        (round S F order x).standing j = x.standing j) ∧
      forall j, j ∈ order -> Safe F (round S F order x) j := by
  induction order generalizing x with
  | nil => exact ⟨hx, fun _ h => h, fun j hj => ⟨hj, rfl⟩, fun j hj => (nomatch hj)⟩
  | cons i order ih =>
      rw [round_cons]
      rcases beaten (S := S) hx hattempts i with ⟨settled, settled', hrecorded, hlegible, hbeat⟩
      rcases ih (hbeat.ready hx hlegible) with ⟨hready, hexclusive, hkeeps, hsafe⟩
      refine ⟨hready, fun first h => hexclusive first (hbeat.exclusive hx hrecorded h),
        fun j hj => ?_, fun j hj => ?_⟩
      · rcases hbeat.undisturbed hx hrecorded hj with ⟨hj', hsame⟩
        rcases hkeeps j hj' with ⟨hj'', hsame'⟩
        exact ⟨hj'', hsame'.trans hsame⟩
      · rcases List.mem_cons.mp hj with rfl | hj
        · exact (hkeeps j (hbeat.safe (hx.entry hrecorded))).1
        · exact hsafe j hj

omit [DecidableEq ι] in
theorem Ready.crossed (hx : Ready F x keys) {first : ι → Standing}
    (hfirst : Exclusive F first x) (hsafe : forall i, Safe F x i) {i j : ι} {n : UInt32}
    (hi : (x.standing i).status = .ready n) (hj : (x.standing j).status = .ready n)
    (hne : i ≠ j) :
    x.standing i = first i ∧ x.standing j = first j ∧
      exists a b, (x.standing i).settled = some a ∧ (x.standing j).settled = some b ∧
        Numbering.Crossed a.claim b.claim := by
  have hholds (k : ι) (hk : (x.standing k).status = .ready n) : exists settled,
      (x.standing k).settled = some settled ∧ settled.claim.number = n ∧
        settled.claim.serverId = (F.member k).id.text ∧
        entries x.store F.region (F.member k).id.text = some settled.claim.written ∧
        Stands (entries x.store F.region) settled.claim := by
    rcases hx.recorded k with ⟨settled, hrecorded⟩
    rcases hsafe k with ⟨settled', hsettled', hstands⟩
    cases hrecorded.holds.symm.trans hsettled'
    rcases (hx.proper k).of_settled settled hsettled' with ⟨hready, hproper⟩
    cases hk.symm.trans hready
    exact ⟨settled, hsettled', rfl, hproper.serverId_eq, hx.entry hrecorded, hstands⟩
  rcases hholds i hi with ⟨a, hsettled, hna, hida, ha, hstands⟩
  rcases hholds j hj with ⟨b, hsettled', hnb, hidb, hb, hstands'⟩
  have hsame : b.claim.number = a.claim.number := hnb.trans hna.symm
  -- a member that has moved would hold the number alone
  have hkept := (hfirst i a hsettled).resolve_right fun hunheld =>
    hunheld _ _ (id_ne (Ne.symm hne)) hb hsame
  have hkept' := (hfirst j b hsettled').resolve_right fun hunheld =>
    hunheld _ _ (id_ne hne) ha hsame.symm
  refine ⟨hkept, hkept', a, b, hsettled, hsettled', ?_, ?_⟩
  · exact hstands _ _ (by rw [hida]; exact id_ne (Ne.symm hne)) hb hsame
  · exact hstands' _ _ (by rw [hidb]; exact id_ne hne) ha hsame.symm

/-!
# Collisions heal
-/

omit [DecidableEq ι] in
theorem legible_of_reads {store : Store} {region : String} (havailable : store.available = true)
    (httl : store.timeToLive = none)
    (hreads : forall key bytes, store.contents region key = some bytes ->
      exists r, Registration.decode bytes = .ok r ∧ r.serverId = key) :
    Legible store region (store.regions.getD region ∅).keys where
  available := havailable
  timeToLive := httl
  nodup := Std.TreeMap.nodup_keys
  keys_iff := store.mem_keys region
  reads := by
    intro key hkey
    rcases Option.ne_none_iff_exists'.mp ((store.mem_keys region key).mp hkey) with ⟨bytes, hbytes⟩
    rcases hreads key bytes hbytes with ⟨r, hdecode, hid⟩
    refine ⟨r, ?_, hid⟩
    unfold entries Contents.registration?
    rw [hbytes, Option.bind_some, hdecode]
    rfl

/-- Ready members share an available store that keeps its values, each with its claim under its id,
among the entries of other servers. -/
structure Gathered (F : Fleet ι) (x : Scene ι ρ) (now : Nat) : Prop where
  available : x.store.available = true
  timeToLive : x.store.timeToLive = none
  reads : forall key bytes, x.store.contents F.region key = some bytes ->
    exists r, Registration.decode bytes = .ok r ∧ r.serverId = key
  few : x.store.count now F.region ≤ 65536
  ready : forall i, exists settled,
    x.standing i = { status := .ready settled.claim.number, settled := some settled } ∧
      settled.Proper (F.member i).id.text ∧
      x.store.contents F.region (F.member i).id.text = some (Storable.encode settled.claim)

omit [DecidableEq ι] in
theorem Gathered.isReady {now : Nat} (h : Gathered F x now) :
    Ready F x (x.store.regions.getD F.region ∅).keys where
  legible := legible_of_reads h.available h.timeToLive h.reads
  few := by
    rw [Std.TreeMap.length_keys, ← Store.live_eq h.timeToLive now]
    exact h.few
  proper := by
    intro i
    rcases h.ready i with ⟨settled, hstanding, hproper, _⟩
    rw [hstanding]
    exact .ready hproper
  recorded := by
    intro i
    rcases h.ready i with ⟨settled, hstanding, _, hbytes⟩
    exact ⟨settled, by rw [hstanding], hbytes⟩

/-- When every member has run a heartbeat, all are ready with numbers of their own, and whoever had
the first claim to its number has kept it.  Two members share a number only when both have kept
their first claims, these come before each other as they are read back, and one was made in a leap
second inside a minute. -/
theorem collisions_heal (now : Nat) (hvalid : forall i, (F.member i).config.validate = .ok ())
    (hx : Gathered F x now) {order : List ι} (horder : forall i, i ∈ order) :
    (forall i, exists settled,
      (round S F order x).standing i =
          { status := .ready settled.claim.number, settled := some settled } ∧
        (round S F order x).store.contents F.region (F.member i).id.text =
          some (Storable.encode settled.claim) ∧
        Stands (entries (round S F order x).store F.region) settled.claim) ∧
    (forall i j n, ((round S F order x).standing i).status = .ready n ->
      ((round S F order x).standing j).status = .ready n -> i ≠ j ->
      (round S F order x).standing i = x.standing i ∧
        (round S F order x).standing j = x.standing j ∧
        exists a b, (x.standing i).settled = some a ∧ (x.standing j).settled = some b ∧
          Numbering.Crossed a.claim b.claim ∧
          ¬ (a.claim.claimedAt.HasText ∧ b.claim.claimedAt.HasText)) ∧
    forall i settled, (x.standing i).settled = some settled ->
      Stands (entries x.store F.region) settled.claim ->
        (round S F order x).standing i = x.standing i := by
  have hattempts (i : ι) : (F.member i).config.settleAttempts ≠ 0 :=
    ((Config.validate_eq_ok _).mp (hvalid i)).attempts_ne_zero
  rcases round_safe (S := S) hx.isReady hattempts order with ⟨hy, hexclusive, hkeeps, hsafe⟩
  have hsafe (i : ι) : Safe F (round S F order x) i := hsafe i (horder i)
  have hexclusive := hexclusive x.standing fun _ _ _ => Or.inl rfl
  refine ⟨fun i => ?_, fun i j n hi hj hne => ?_, fun i settled hsettled hstands => ?_⟩
  · rcases hy.recorded i with ⟨settled, hrecorded⟩
    rcases hsafe i with ⟨settled', hsettled', hstands⟩
    cases hrecorded.holds.symm.trans hsettled'
    refine ⟨settled, ?_, hrecorded.bytes, hstands⟩
    rw [← hsettled', ← ((hy.proper i).of_settled settled hsettled').1]
  · rcases hy.crossed hexclusive hsafe hi hj hne with ⟨hkept, hkept', a, b, ha, hb, hcrossed⟩
    rw [hkept] at ha
    rw [hkept'] at hb
    exact ⟨hkept, hkept', a, b, ha, hb, hcrossed, hcrossed.not_hasText⟩
  · exact (hkeeps i ⟨settled, hsettled, hstands⟩).2

end

/-!
# Two members with one number
-/

def silence : Surroundings Unit where
  answer
    | .call _, r => (.error (.unavailable "" ""), r)
    | .pause _, r | .store _, r | .report _, r => ((), r)
    | .now, r => (.epoch, r)
    | .readingPast _, r => (0, r)
    | .look, r => ({}, r)
    | .ticket, r => (0, r)
    | .threadName, r => (none, r)
    | .entropy, r => ([], r)
  now := fun _ => 0

section

variable (claimedAt : Bool → Instant)

def rivals (second : Bool) : Settled :=
  ⟨⟨(Fleet.pair.member second).id.text, 0, claimedAt second⟩, ⟨0, 0⟩⟩

def bystander : Registration := ⟨"c", 1, .epoch⟩

theorem exists_gathered : exists x : Scene Bool Unit, Gathered Fleet.pair x 0 ∧
    (forall second, x.standing second = ⟨.ready 0, some (rivals claimedAt second)⟩) ∧
    x.store.contents.Lists Fleet.pair.region [(rivals claimedAt false).claim.written,
      (rivals claimedAt true).claim.written, bystander] := by
  have hlegible (second : Bool) : (rivals claimedAt second).claim.written.Legible :=
    Registration.legible_written (Fleet.pair.fits second)
  rcases Store.exists_lists Fleet.pair.region [(rivals claimedAt false).claim.written,
      (rivals claimedAt true).claim.written, bystander]
    (show [(Fleet.pair.member false).id.text, (Fleet.pair.member true).id.text, "c"].Nodup by
      decide) (fun r hr => by
      rcases List.mem_cons.mp hr with rfl | hr
      · exact hlegible false
      · rcases List.mem_cons.mp hr with rfl | hr
        · exact hlegible true
        · cases List.mem_singleton.mp hr
          exact ⟨Stored.fits_of_size (by decide), by decide⟩) with ⟨store, havailable, httl, hlists⟩
  have hmem (second : Bool) : (rivals claimedAt second).claim.written ∈
      [(rivals claimedAt false).claim.written, (rivals claimedAt true).claim.written, bystander] := by
    cases second with
    | false => exact List.mem_cons_self
    | true => exact List.mem_cons_of_mem _ List.mem_cons_self
  let x : Scene Bool Unit :=
    ⟨fun second => ⟨.ready 0, some (rivals claimedAt second)⟩, store, ()⟩
  have hgathered : Gathered Fleet.pair x 0 := by
    refine ⟨havailable, httl, fun _ _ => hlists.decodes, ?_, fun second => ?_⟩
    · rw [Store.count_of_lists httl hlists]
      exact (by decide : 3 ≤ 65536)
    · refine ⟨rivals claimedAt second, rfl, ⟨rfl, rfl⟩, ?_⟩
      exact (hlists.lookup _ _).mpr ⟨_, hmem second, rfl, Registration.encode_written _⟩
  exact ⟨x, hgathered, fun _ => rfl, hlists⟩

variable {claimedAt}

theorem stands_of_outranks {x : Scene Bool Unit}
    (hlists : x.store.contents.Lists Fleet.pair.region [(rivals claimedAt false).claim.written,
      (rivals claimedAt true).claim.written, bystander]) (second : Bool)
    (h : (rivals claimedAt second).claim.outranks
      (rivals claimedAt (!second)).claim.written = true) :
    Stands (entries x.store Fleet.pair.region) (rivals claimedAt second).claim := by
  intro key e hkey he hnumber
  rcases hlists.registration?_eq.mp he with ⟨hmem, rfl⟩
  rcases List.mem_cons.mp hmem with rfl | hmem
  · cases second with
    | false => exact absurd rfl hkey
    | true => exact h
  · rcases List.mem_cons.mp hmem with rfl | hmem
    · cases second with
      | false => exact h
      | true => exact absurd rfl hkey
    · cases List.mem_singleton.mp hmem
      cases hnumber

end

/-- Two members hold a number that only one of them can keep. -/
theorem pair_heals : exists x : Scene Bool Unit, Gathered Fleet.pair x 0 ∧
    (x.standing false).status = .ready 0 ∧ (x.standing true).status = .ready 0 ∧
    ((round (fun _ => silence) Fleet.pair [true, false] x).standing false).status = .ready 0 ∧
    exists n, n ≠ 0 ∧
      ((round (fun _ => silence) Fleet.pair [true, false] x).standing true).status = .ready n := by
  rcases exists_gathered fun _ => .epoch with ⟨x, hx, hstanding, hlists⟩
  have htext : Instant.epoch.HasText := by decide
  have hstatus (second : Bool) : (x.standing second).status = .ready 0 := by rw [hstanding]
  rcases collisions_heal (S := fun _ => silence) (F := Fleet.pair) (x := x) 0
    (fun _ => (Config.validate_eq_ok _).mpr Config.valid_default) hx
    (show forall second, second ∈ [true, false] by decide) with ⟨hready, hdistinct, hkept⟩
  have hsame := hkept false _ (by rw [hstanding]) (stands_of_outranks hlists false (by decide))
  rcases hready true with ⟨moved, hmoved, _⟩
  refine ⟨x, hx, hstatus false, hstatus true, by rw [hsame, hstatus], moved.claim.number,
    fun hzero => ?_, by rw [hmoved]⟩
  rw [hzero] at hmoved
  rcases hdistinct false true 0 (by rw [hsame, hstatus]) (by rw [hmoved]) (by decide) with
    ⟨_, _, a, b, ha, hb, _, hleap⟩
  rw [hstanding] at ha hb
  cases ha
  cases hb
  exact hleap ⟨htext, htext⟩

/-- One of two members has claimed their number in a leap second inside a minute, and the other one
just afterwards.  Each takes the claim of the other for the later one, and both keep the number. -/
theorem pair_keeps_one_number : exists x : Scene Bool Unit, Gathered Fleet.pair x 0 ∧
    ((round (fun _ => silence) Fleet.pair [true, false] x).standing false).status = .ready 0 ∧
    ((round (fun _ => silence) Fleet.pair [true, false] x).standing true).status = .ready 0 := by
  rcases exists_gathered fun second => cond second .afterwards .insideMinute with
    ⟨x, hx, hstanding, hlists⟩
  have hattempts (second : Bool) : (Fleet.pair.member second).config.settleAttempts ≠ 0 :=
    Config.valid_default.attempts_ne_zero
  rcases round_safe (S := fun _ => silence) hx.isReady hattempts [true, false] with
    ⟨_, _, hkeeps, _⟩
  have hfirst := (hkeeps false ⟨_, by rw [hstanding],
    stands_of_outranks hlists false (by decide)⟩).2
  have hsecond := (hkeeps true ⟨_, by rw [hstanding],
    stands_of_outranks hlists true (by decide)⟩).2
  exact ⟨x, hx, by rw [hfirst, hstanding], by rw [hsecond, hstanding]⟩

end Healing
end Roster
