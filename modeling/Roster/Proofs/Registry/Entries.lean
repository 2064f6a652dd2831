import Roster.Proofs.Registry.Listing
import Roster.Proofs.Registry.Shelf

/-!
# Entries of members

A fleet that has a region of a store for itself is described by the entries of its members: what each
member has registered, and when it has written that last.
-/

namespace Roster

open Interleaving

abbrev Entries (ι : Type) := ι → Option (Registration × Nat)

/-- The region of the fleet holds these entries at a time, and nothing else. -/
structure Entries.Held {ι : Type} (es : Entries ι) (F : Fleet ι) (store : Store) (now : Nat) :
    Prop where
  available : store.available = true
  named : forall i r t, es i = some (r, t) -> r.serverId = (F.member i).id.text
  entry : forall i, store.shelf now F.region (F.member i).id.text =
    (es i).map fun e => ⟨Storable.encode e.1, e.2⟩
  exclusive : forall key, store.shelf now F.region key ≠ none ->
    exists i, key = (F.member i).id.text

namespace Entries.Held

variable {ι : Type} {F : Fleet ι} {store : Store} {now : Nat} {es : Entries ι}

theorem empty (havailable : store.available = true)
    (h : forall key, store.shelf now F.region key = none) :
    Held (fun _ => none) F store now where
  available := havailable
  named := fun _ _ _ h => nomatch h
  entry := fun _ => h _
  exclusive := fun key hkey => absurd (h key) hkey

theorem later (h : es.Held F store now) {later : Nat} (hle : now ≤ later)
    (hlives : forall i r t, es i = some (r, t) ->
      store.lives later ⟨Storable.encode r, t⟩ = true) : es.Held F store later where
  available := h.available
  named := h.named
  entry := by
    intro i
    rw [Store.shelf_later store hle, h.entry i]
    cases he : es i with
    | none => rfl
    | some e =>
        rw [Option.map_some, Option.filter_some, if_pos (hlives i e.1 e.2 he)]
  exclusive := by
    intro key hkey
    refine h.exclusive key fun hnone => hkey ?_
    rw [Store.shelf_later store hle, hnone]
    rfl

theorem congr (h : es.Held F store now) {store' : Store}
    (havailable : store'.available = store.available)
    (hshelf : store'.shelf now F.region = store.shelf now F.region) : es.Held F store' now where
  available := havailable.trans h.available
  named := h.named
  entry := by
    rw [hshelf]
    exact h.entry
  exclusive := by
    rw [hshelf]
    exact h.exclusive

theorem fits (h : es.Held F store now) {i : ι} {r : Registration} {t : Nat}
    (he : es i = some (r, t)) : Stored.Fits r.serverId := by
  rw [h.named i r t he]
  exact F.fits i

theorem heardPrevious (h : es.Held F store now) (i : ι) :
    Interleaving.heardPrevious
        (.ok ((store.shelf now F.region (F.member i).id.text).map (·.bytes))) =
      .ok ((es i).map (·.1.written)) := by
  rw [h.entry i]
  cases he : es i with
  | none => rfl
  | some e =>
      have hdecode : Region.decode (Storable.encode e.1) = .ok e.1.written :=
        Contents.decode_eq_ok.mpr (Contents.decode_encode (h.fits he))
      simp only [Option.map_some]
      unfold Interleaving.heardPrevious Except.bind Region.decodeOption
      dsimp only
      rw [hdecode]
      rfl

theorem registration?_eq (h : es.Held F store now) (i : ι) :
    (store.visible now).registration? F.region (F.member i).id.text =
      (es i).map (·.1.written) := by
  unfold Contents.registration? Store.visible
  rw [h.entry i]
  cases he : es i with
  | none => rfl
  | some e =>
      simp only [Option.map_some, Option.bind_some]
      rw [Contents.decode_encode (h.fits he)]
      rfl

theorem visible_eq_encode (h : es.Held F store now) (key : String) :
    store.visible now F.region key =
      ((store.visible now).registration? F.region key).map Storable.encode := by
  cases hshelf : store.shelf now F.region key with
  | none =>
      unfold Contents.registration? Store.visible
      rw [hshelf]
      rfl
  | some value =>
      rcases h.exclusive key (by rw [hshelf]; exact fun h => nomatch h) with ⟨i, rfl⟩
      rw [h.registration?_eq i]
      unfold Store.visible
      rw [h.entry i, Option.map_map, Option.map_map]
      exact congrFun (congrArg Option.map (funext fun e => (e.1.encode_written).symm)) (es i)

theorem registration?_eq_some (h : es.Held F store now) {key : String} {r : Registration} :
    (store.visible now).registration? F.region key = some r ↔
      exists i e, es i = some e ∧ r = e.1.written ∧ key = (F.member i).id.text := by
  constructor
  · intro hr
    have hshelf : store.shelf now F.region key ≠ none := by
      intro hnone
      unfold Contents.registration? Store.visible at hr
      rw [hnone] at hr
      cases hr
    rcases h.exclusive key hshelf with ⟨i, rfl⟩
    rw [h.registration?_eq i] at hr
    rcases Option.map_eq_some_iff.mp hr with ⟨e, he, rfl⟩
    exact ⟨i, e, he, rfl, rfl⟩
  · rintro ⟨i, e, he, rfl, rfl⟩
    rw [h.registration?_eq i, he]
    rfl

theorem contents_eq {store' : Store} {now' : Nat} (h : es.Held F store now)
    (h' : es.Held F store' now') (hkept : Store.Kept F.region store store')
    (httl : store.timeToLive = none) : store'.contents = store.contents := by
  funext r key
  by_cases hr : r = F.region
  · rw [← Store.visible_of_forever httl now,
      ← Store.visible_of_forever (hkept.timeToLive.trans httl) now', hr, h.visible_eq_encode,
      h'.visible_eq_encode]
    refine congrArg (Option.map Storable.encode) (Option.ext fun r => ?_)
    exact h'.registration?_eq_some.trans h.registration?_eq_some.symm
  · unfold Store.contents
    rw [hkept.elsewhere r hr]

/-!
# Calls
-/

theorem list (h : es.Held F store now) :
    exists values store' live, store.answer now (.list F.region) = (.ok values, store') ∧
      heardListing (.ok values) = .ok live ∧ (live.map (·.serverId)).Nodup ∧
      (forall r, r ∈ live ↔ exists i e, es i = some e ∧ r = e.1.written) ∧
      Store.Kept F.region store store' ∧ es.Held F store' now := by
  rcases Store.answer_list h.available now F.region with
    ⟨keys, store', hanswer, hnodup, hkeys, hkept, hshelf⟩
  let reads := (store.visible now).registration? F.region
  let live := keys.filterMap reads
  have hmem (r : Registration) : r ∈ live ↔ exists i e, es i = some e ∧ r = e.1.written := by
    rw [List.mem_filterMap]
    constructor
    · rintro ⟨key, _, hr⟩
      rcases h.registration?_eq_some.mp hr with ⟨i, e, he, hread, _⟩
      exact ⟨i, e, he, hread⟩
    · rintro ⟨i, e, he, hread⟩
      refine ⟨(F.member i).id.text, (hkeys _).mpr ?_,
        h.registration?_eq_some.mpr ⟨i, e, he, hread, rfl⟩⟩
      rw [h.entry i, he]
      exact fun h => nomatch h
  have hvalues : keys.filterMap (store.visible now F.region) = live.map Storable.encode := by
    rw [List.map_filterMap]
    exact List.filterMap_congr fun key _ => h.visible_eq_encode key
  have hids : live.map (·.serverId) = keys := by
    rw [List.map_filterMap]
    refine (List.filterMap_congr fun key hkey => ?_).trans List.filterMap_some
    rcases h.exclusive key ((hkeys key).mp hkey) with ⟨i, rfl⟩
    have hentry := (hkeys _).mp hkey
    rw [h.entry i] at hentry
    cases he : es i with
    | none =>
        rw [he] at hentry
        exact absurd rfl hentry
    | some e =>
        change ((store.visible now).registration? _ _).map _ = _
        rw [h.registration?_eq i, he]
        exact congrArg some (h.named i e.1 e.2 he)
  refine ⟨_, store', live, hanswer, ?_, by rw [hids]; exact hnodup, hmem, hkept,
    h.congr hkept.available hshelf⟩
  rw [hvalues]
  refine Contents.heardListing_encode fun r hr => ?_
  rcases (hmem r).mp hr with ⟨i, e, he, rfl⟩
  exact Registration.legible_written (h.fits he)

variable [DecidableEq ι]

theorem updated (h : es.Held F store now) {store' : Store} {i : ι} {entry : Option (Registration × Nat)}
    (hkept : Store.Kept F.region store store')
    (hnamed : forall r t, entry = some (r, t) -> r.serverId = (F.member i).id.text)
    (hshelf : store'.shelf now F.region = Function.update (store.shelf now F.region)
      (F.member i).id.text (entry.map fun e => ⟨Storable.encode e.1, e.2⟩)) :
    Held (Function.update es i entry) F store' now where
  available := hkept.available.trans h.available
  named := by
    intro j r t he
    by_cases hj : j = i
    · subst hj
      rw [Function.update_self] at he
      exact hnamed r t he
    · rw [Function.update_of_ne hj] at he
      exact h.named j r t he
  entry := by
    intro j
    rw [hshelf]
    by_cases hj : j = i
    · rw [hj, Function.update_self, Function.update_self]
    · rw [Function.update_of_ne hj, Function.update_of_ne fun hid => hj (F.id_injective j i hid)]
      exact h.entry j
  exclusive := by
    intro key hkey
    by_cases hid : key = (F.member i).id.text
    · exact ⟨i, hid⟩
    · rw [hshelf, Function.update_of_ne hid] at hkey
      exact h.exclusive key hkey

theorem put (h : es.Held F store now) {i : ι} {claim : Registration}
    (hclaim : claim.serverId = (F.member i).id.text) :
    exists previous store', store.answer now
        (.put F.region (F.member i).id.text (Storable.encode claim)) = (.ok previous, store') ∧
      Interleaving.heardPrevious (.ok previous) = .ok ((es i).map (·.1.written)) ∧
      Store.Kept F.region store store' ∧
      Held (Function.update es i (some (claim, now))) F store' now := by
  rcases Store.answer_put h.available now F.region (F.member i).id.text (Storable.encode claim) with
    ⟨store', hanswer, hkept, hshelf⟩
  refine ⟨_, store', hanswer, h.heardPrevious i, hkept, h.updated hkept ?_ hshelf⟩
  intro r t he
  cases he
  exact hclaim

theorem remove (h : es.Held F store now) (i : ι) :
    exists previous store', store.answer now (.remove F.region (F.member i).id.text) =
        (.ok previous, store') ∧
      Interleaving.heardPrevious (.ok previous) = .ok ((es i).map (·.1.written)) ∧
      Store.Kept F.region store store' ∧ Held (Function.update es i none) F store' now := by
  rcases Store.answer_remove h.available now F.region (F.member i).id.text with
    ⟨store', hanswer, hkept, hshelf⟩
  exact ⟨_, store', hanswer, h.heardPrevious i, hkept,
    h.updated hkept (fun _ _ he => nomatch he) hshelf⟩

end Entries.Held
end Roster
