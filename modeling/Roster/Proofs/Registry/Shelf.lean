import Roster.Proofs.Registry.InMemory

/-!
# Stores in which values expire

What can be seen of a region at a time are the values that live then, each with the time of its last
writing.  At any one time an available store is a registry of these: sweeping out the rest cannot be
told.  As time passes, values only disappear, and they do so by age.
-/

namespace Roster
namespace Store

variable {store store' : Store} {now later : Nat} {region key : String}

def lives (store : Store) (now : Nat) (value : Stored.Value) : Bool :=
  match store.timeToLive with
  | none => true
  | some ttl => now - value.writtenAt ≤ ttl

def shelf (store : Store) (now : Nat) (region : String) : String → Option Stored.Value :=
  fun key => (store.live now region)[key]?

def visible (store : Store) (now : Nat) : Contents :=
  fun region key => (store.shelf now region key).map (·.bytes)

theorem shelf_eq (store : Store) (now : Nat) (region key : String) :
    store.shelf now region key =
      (store.regions.getD region ∅)[key]?.filter (store.lives now) := by
  unfold shelf live lives
  cases store.timeToLive with
  | none =>
      change (store.regions.getD region ∅)[key]? =
        (store.regions.getD region ∅)[key]?.filter fun _ => true
      cases (store.regions.getD region ∅)[key]? with
      | none | some _ => rfl
  | some ttl => exact Std.TreeMap.getElem?_filter'

theorem lives_of_fresh (store : Store) (now : Nat) (bytes : Bytes) :
    store.lives now ⟨bytes, now⟩ = true := by
  unfold lives
  cases store.timeToLive with
  | none => rfl
  | some ttl => simp

theorem lives_of_forever (httl : store.timeToLive = none) (now : Nat) (value : Stored.Value) :
    store.lives now value = true := by
  unfold lives
  rw [httl]

theorem lives_iff {ttl : Nat} (httl : store.timeToLive = some ttl) {value : Stored.Value} :
    store.lives now value = true ↔ now ≤ value.writtenAt + ttl := by
  unfold lives
  rw [httl]
  simp only [decide_eq_true_eq]
  exact Nat.sub_le_iff_le_add'

theorem lives_of_later (h : now ≤ later) {value : Stored.Value}
    (hlives : store.lives later value = true) : store.lives now value = true := by
  unfold lives at hlives ⊢
  cases httl : store.timeToLive with
  | none => rfl
  | some ttl =>
      rw [httl] at hlives
      simp only [decide_eq_true_eq] at hlives ⊢
      omega

theorem shelf_later (store : Store) (h : now ≤ later) (region key : String) :
    store.shelf later region key = (store.shelf now region key).filter (store.lives later) := by
  rw [shelf_eq, shelf_eq, Option.filter_filter]
  congr 1
  funext value
  cases hlives : store.lives later value with
  | false => rw [Bool.and_false]
  | true => rw [lives_of_later h hlives, Bool.and_self]

theorem shelf_congr (httl : store'.timeToLive = store.timeToLive)
    (hregion : store'.regions.getD region ∅ = store.regions.getD region ∅) (now : Nat) :
    store'.shelf now region = store.shelf now region := by
  funext key
  rw [shelf_eq, shelf_eq, hregion]
  unfold lives
  rw [httl]

theorem shelf_of_forever (httl : store.timeToLive = none) (now : Nat) (region key : String) :
    store.shelf now region key = (store.regions.getD region ∅)[key]? := by
  unfold shelf
  rw [live_eq httl]

theorem visible_of_forever (httl : store.timeToLive = none) (now : Nat) :
    store.visible now = store.contents := by
  funext region key
  unfold visible contents
  rw [shelf_of_forever httl]

theorem visible_eq_none (h : store.contents region key = none) (now : Nat) :
    store.visible now region key = none := by
  unfold visible
  rw [shelf_eq, Option.map_eq_none_iff.mp h]
  rfl

/-!
# Calls
-/

structure Kept (region : String) (store store' : Store) : Prop where
  available : store'.available = store.available
  timeToLive : store'.timeToLive = store.timeToLive
  elsewhere : forall r, r ≠ region -> store'.regions.getD r ∅ = store.regions.getD r ∅

theorem Kept.refl (region : String) (store : Store) : Kept region store store :=
  ⟨rfl, rfl, fun _ _ => rfl⟩

theorem Kept.trans {store'' : Store} (h : Kept region store store')
    (h' : Kept region store' store'') : Kept region store store'' :=
  ⟨h'.available.trans h.available, h'.timeToLive.trans h.timeToLive,
    fun r hr => (h'.elsewhere r hr).trans (h.elsewhere r hr)⟩

theorem Kept.lives_eq (h : Kept region store store') (now : Nat) :
    store'.lives now = store.lives now := by
  unfold lives
  rw [h.timeToLive]

theorem kept_setValues (store : Store) (region : String) (values : Stored.Values) :
    Kept region store (store.setValues region values) where
  available := rfl
  timeToLive := rfl
  elsewhere := fun r hr => by
    unfold setValues
    rw [Std.TreeMap.getD_insert, if_neg fun h => hr (Std.LawfulEqCmp.eq_of_compare h).symm]

theorem shelf_setValues (store : Store) (now : Nat) (region : String) (values : Stored.Values)
    (key : String) :
    (store.setValues region values).shelf now region key = values[key]?.filter (store.lives now) := by
  rw [shelf_eq]
  unfold setValues
  rw [Std.TreeMap.getD_insert_self]
  rfl

theorem shelf_setValues_live (store : Store) (now : Nat) (region key : String) :
    (store.shelf now region key).filter (store.lives now) = store.shelf now region key :=
  (shelf_later store (Nat.le_refl now) region key).symm

theorem answer_get (h : store.available = true) (now : Nat) (region key : String) :
    exists store', store.answer now (.get region key) =
        (.ok ((store.shelf now region key).map (·.bytes)), store') ∧
      Kept region store store' ∧ store'.shelf now region = store.shelf now region := by
  refine ⟨store.setValues region (store.live now region), ?_, kept_setValues _ _ _, ?_⟩
  · unfold answer
    rw [if_neg (by rw [h]; exact Bool.false_ne_true)]
    rfl
  · funext k
    rw [shelf_setValues]
    exact shelf_setValues_live store now region k

theorem answer_put (h : store.available = true) (now : Nat) (region key : String) (bytes : Bytes) :
    exists store', store.answer now (.put region key bytes) =
        (.ok ((store.shelf now region key).map (·.bytes)), store') ∧
      Kept region store store' ∧ store'.shelf now region =
        Function.update (store.shelf now region) key (some ⟨bytes, now⟩) := by
  refine ⟨store.setValues region ((store.live now region).insert key ⟨bytes, now⟩), ?_,
    kept_setValues _ _ _, ?_⟩
  · unfold answer
    rw [if_neg (by rw [h]; exact Bool.false_ne_true)]
    rfl
  · funext k
    rw [shelf_setValues, Std.TreeMap.getElem?_insert]
    by_cases hk : k = key
    · rw [hk, Function.update_self, if_pos Std.ReflCmp.compare_self, Option.filter_some,
        if_pos (store.lives_of_fresh now bytes)]
    · rw [Function.update_of_ne hk, if_neg fun h => hk (Std.LawfulEqCmp.eq_of_compare h).symm]
      exact shelf_setValues_live store now region k

theorem answer_remove (h : store.available = true) (now : Nat) (region key : String) :
    exists store', store.answer now (.remove region key) =
        (.ok ((store.shelf now region key).map (·.bytes)), store') ∧
      Kept region store store' ∧
      store'.shelf now region = Function.update (store.shelf now region) key none := by
  refine ⟨store.setValues region ((store.live now region).erase key), ?_, kept_setValues _ _ _, ?_⟩
  · unfold answer
    rw [if_neg (by rw [h]; exact Bool.false_ne_true)]
    rfl
  · funext k
    rw [shelf_setValues, Std.TreeMap.getElem?_erase]
    by_cases hk : k = key
    · rw [hk, Function.update_self, if_pos Std.ReflCmp.compare_self]
      rfl
    · rw [Function.update_of_ne hk, if_neg fun h => hk (Std.LawfulEqCmp.eq_of_compare h).symm]
      exact shelf_setValues_live store now region k

theorem answer_list (h : store.available = true) (now : Nat) (region : String) :
    exists (keys : List String) (store' : Store), store.answer now (.list region) =
        (.ok (keys.filterMap (store.visible now region)), store') ∧
      keys.Nodup ∧ (forall key, key ∈ keys ↔ store.shelf now region key ≠ none) ∧
      Kept region store store' ∧ store'.shelf now region = store.shelf now region := by
  refine ⟨(store.live now region).keys, store.setValues region (store.live now region), ?_,
    Std.TreeMap.nodup_keys, fun key => ?_, kept_setValues _ _ _, ?_⟩
  · unfold answer
    rw [if_neg (by rw [h]; exact Bool.false_ne_true)]
    dsimp only
    rw [← Std.TreeMap.map_fst_toList_eq_keys, List.filterMap_map, ← List.filterMap_eq_map]
    refine congrArg (fun values => (Except.ok values, _)) (List.filterMap_congr fun entry hentry => ?_)
    exact congrArg (Option.map (·.bytes))
      (Std.TreeMap.mem_toList_iff_getElem?_eq_some.mp hentry).symm
  · rw [Std.TreeMap.mem_keys, Std.TreeMap.mem_iff_isSome_getElem?, Option.isSome_iff_ne_none]
    rfl
  · funext k
    rw [shelf_setValues]
    exact shelf_setValues_live store now region k

/-!
# Stores with an expiry as registries
-/

theorem visible_of_kept (hkept : Kept region store store') {shelf : String → Option Stored.Value}
    (hshelf : store'.shelf now region = shelf) (r k : String) :
    store'.visible now r k =
      if r = region then (shelf k).map (·.bytes) else store.visible now r k := by
  unfold visible
  by_cases hr : r = region
  · rw [if_pos hr, hr, hshelf]
  · rw [if_neg hr, shelf_congr hkept.timeToLive (hkept.elsewhere r hr)]

theorem visible_of_same (hkept : Kept region store store')
    (hshelf : store'.shelf now region = store.shelf now region) :
    store'.visible now = store.visible now := by
  funext r k
  rw [visible_of_kept hkept hshelf]
  split
  · next hr => rw [hr, visible]
  · rfl

theorem visible_later_of_same (h : now ≤ later) (hkept : Kept region store store')
    (hshelf : store'.shelf now region = store.shelf now region) :
    store'.visible later = store.visible later := by
  refine visible_of_same hkept (funext fun key => ?_)
  rw [shelf_later store' h, shelf_later store h, hshelf, hkept.lives_eq]

theorem visible_of_update (hkept : Kept region store store') {value : Option Stored.Value}
    (hshelf : store'.shelf now region = Function.update (store.shelf now region) key value) :
    store'.visible now = (store.visible now).assign region key (value.map (·.bytes)) := by
  funext r k
  rw [visible_of_kept hkept hshelf]
  unfold Contents.assign
  by_cases hr : r = region
  · rw [if_pos hr]
    by_cases hk : k = key
    · rw [if_pos ⟨hr, hk⟩, hk, Function.update_self]
    · rw [if_neg fun h => hk h.2, Function.update_of_ne hk, hr, visible]
  · rw [if_neg hr, if_neg fun h => hr h.1]

/-- At any one time a store is a registry of what can be seen, whether or not values expire. -/
theorem answers_visible {call : Call} {answer : Except RegistryError call.Answer}
    (h : store.answer now call = (answer, store')) :
    (store.visible now).Answers call answer (store'.visible now) := by
  cases havailable : store.available with
  | false =>
      rw [answer_of_offline havailable] at h
      cases h
      exact .failed _
  | true =>
      cases call with
      | get region key =>
          rcases answer_get havailable now region key with ⟨after, hanswer, hkept, hshelf⟩
          cases hanswer.symm.trans h
          rw [visible_of_same hkept hshelf]
          exact .get
      | put region key bytes =>
          rcases answer_put havailable now region key bytes with ⟨after, hanswer, hkept, hshelf⟩
          cases hanswer.symm.trans h
          rw [visible_of_update hkept hshelf]
          exact .put
      | remove region key =>
          rcases answer_remove havailable now region key with ⟨after, hanswer, hkept, hshelf⟩
          cases hanswer.symm.trans h
          rw [visible_of_update hkept hshelf]
          exact .remove
      | list region =>
          rcases answer_list havailable now region with
            ⟨keys, after, hanswer, hnodup, hkeys, hkept, hshelf⟩
          cases hanswer.symm.trans h
          rw [visible_of_same hkept hshelf]
          refine .list hnodup fun key => (hkeys key).trans ?_
          unfold visible
          rw [Ne, Ne, Option.map_eq_none_iff]

/-- As time passes, entries lapse. -/
theorem visible_lapses (store : Store) (h : now ≤ later) (region : String) :
    (store.visible now).Lapses region (store.visible later) := by
  intro key
  unfold visible
  rw [shelf_later store h]
  cases store.shelf now region key with
  | none => exact Or.inl rfl
  | some value =>
      rw [Option.filter_some]
      split
      · exact Or.inl rfl
      · exact Or.inr rfl

end Store
end Roster
