import Roster.Proofs.Registry.Listing
import Roster.Store

/-!
# Stores in memory as registries

A store in which values live for ever answers at once, as long as it is available, and refuses every
call otherwise.
-/

namespace Roster
namespace Store

variable {store store' : Store} {now : Nat} {region key : String}

def contents (store : Store) : Contents :=
  fun region key => (store.regions.getD region ∅)[key]?.map (·.bytes)

theorem contents_of_empty (h : store.regions = ∅) (region key : String) :
    store.contents region key = none := by
  unfold contents
  rw [h, Std.TreeMap.getD_emptyc, Std.TreeMap.getElem?_emptyc]
  rfl

theorem live_eq (httl : store.timeToLive = none) (now : Nat) (region : String) :
    store.live now region = store.regions.getD region ∅ := by
  unfold live
  rw [httl]

theorem contents_setValues (store : Store) (region : String) (values : Stored.Values)
    (r k : String) :
    (store.setValues region values).contents r k =
      if r = region then values[k]?.map (·.bytes) else store.contents r k := by
  unfold contents setValues
  simp only [Std.TreeMap.getD_insert, Std.LawfulEqCmp.compare_eq_iff_eq]
  by_cases hr : r = region
  · rw [if_pos hr.symm, if_pos hr]
  · rw [if_neg (Ne.symm hr), if_neg hr]

theorem contents_setValues_self (store : Store) (region : String) :
    (store.setValues region (store.regions.getD region ∅)).contents = store.contents := by
  funext r k
  rw [contents_setValues]
  by_cases hr : r = region
  · rw [if_pos hr, hr]
    rfl
  · rw [if_neg hr]

theorem contents_setValues_assign {store : Store} {region key : String} {values : Stored.Values}
    {value : Option Bytes}
    (h : forall k, values[k]?.map (·.bytes) = if k = key then value else store.contents region k) :
    (store.setValues region values).contents = store.contents.assign region key value := by
  funext r k
  unfold Contents.assign
  rw [contents_setValues, h]
  by_cases hr : r = region
  · simp only [hr, true_and, if_pos]
  · rw [if_neg hr, if_neg fun h => hr h.1]

theorem contents_insert (store : Store) (region key : String) (value : Stored.Value) :
    (store.setValues region ((store.regions.getD region ∅).insert key value)).contents =
      store.contents.assign region key (some value.bytes) := by
  refine contents_setValues_assign fun k => ?_
  rw [Std.TreeMap.getElem?_insert]
  by_cases hk : k = key
  · rw [hk, if_pos rfl, if_pos Std.ReflCmp.compare_self]
    rfl
  · rw [if_neg hk, if_neg fun h => hk (Std.LawfulEqCmp.eq_of_compare h).symm]
    rfl

theorem contents_erase (store : Store) (region key : String) :
    (store.setValues region ((store.regions.getD region ∅).erase key)).contents =
      store.contents.assign region key none := by
  refine contents_setValues_assign fun k => ?_
  rw [Std.TreeMap.getElem?_erase]
  by_cases hk : k = key
  · rw [hk, if_pos rfl, if_pos Std.ReflCmp.compare_self]
    rfl
  · rw [if_neg hk, if_neg fun h => hk (Std.LawfulEqCmp.eq_of_compare h).symm]
    rfl

theorem contents_values (store : Store) (region : String) :
    (store.regions.getD region ∅).toList.map (·.2.bytes) =
      ((store.regions.getD region ∅).toList.map Prod.fst).filterMap (store.contents region) := by
  rw [List.filterMap_map, ← List.filterMap_eq_map]
  refine List.filterMap_congr fun entry hentry => ?_
  have hvalue := Std.TreeMap.mem_toList_iff_getElem?_eq_some.mp hentry
  unfold contents
  exact (congrArg (Option.map (·.bytes)) hvalue).symm

theorem mem_keys (store : Store) (region key : String) :
    key ∈ (store.regions.getD region ∅).keys ↔ store.contents region key ≠ none := by
  unfold contents
  rw [Std.TreeMap.mem_keys, Std.TreeMap.mem_iff_isSome_getElem?, Option.isSome_iff_ne_none, Ne, Ne,
    Option.map_eq_none_iff]

theorem answer_of_available (havailable : store.available = true) (now : Nat) (call : Call) :
    exists value regions, store.answer now call = (.ok value, { store with regions }) := by
  unfold answer
  rw [if_neg (by rw [havailable]; exact Bool.false_ne_true)]
  cases call with
  | get region key | put region key bytes | remove region key | list region => exact ⟨_, _, rfl⟩

/-- A store in which values live for ever is a registry that answers at once. -/
theorem answers_contents {call : Call} {answer : Except RegistryError call.Answer}
    (httl : store.timeToLive = none) (h : store.answer now call = (answer, store')) :
    store.contents.Answers call answer store'.contents := by
  unfold Store.answer at h
  by_cases havailable : store.available = true
  · rw [if_neg (by rw [havailable]; exact Bool.false_ne_true)] at h
    cases call with
    | get region key =>
        simp only [Call.region, live_eq httl] at h
        cases h
        rw [contents_setValues_self]
        exact .get
    | put region key bytes =>
        simp only [Call.region, live_eq httl] at h
        cases h
        rw [contents_insert]
        exact .put
    | remove region key =>
        simp only [Call.region, live_eq httl] at h
        cases h
        rw [contents_erase]
        exact .remove
    | list region =>
        simp only [Call.region, live_eq httl] at h
        cases h
        rw [contents_setValues_self, contents_values, Std.TreeMap.map_fst_toList_eq_keys]
        exact .list Std.TreeMap.nodup_keys (store.mem_keys region)
  · rw [if_pos (by rw [Bool.not_eq_true] at havailable; rw [havailable]; rfl)] at h
    cases h
    exact .failed _

theorem answers_of_available (havailable : store.available = true) (httl : store.timeToLive = none)
    (now : Nat) (call : Call) :
    exists value store', store.answer now call = (.ok value, store') ∧
      store'.available = true ∧ store'.timeToLive = none ∧
      store.contents.Answers call (.ok value) store'.contents := by
  rcases answer_of_available havailable now call with ⟨value, regions, hanswer⟩
  exact ⟨value, _, hanswer, havailable, httl, answers_contents httl hanswer⟩

theorem answer_of_offline (h : store.available = false) (now : Nat) (call : Call) :
    store.answer now call = (.error (.unavailable call.region offline), store) := by
  unfold answer
  rw [if_pos (by rw [h]; rfl)]

/-!
# Stores that hold given registrations
-/

theorem count_of_lists {rs : List Registration} (httl : store.timeToLive = none)
    (h : store.contents.Lists region rs) : store.count now region = rs.length := by
  have hperm : (store.regions.getD region ∅).keys.Perm (rs.map (·.serverId)) :=
    (List.perm_ext_iff_of_nodup Std.TreeMap.nodup_keys h.nodup).mpr fun key =>
      (store.mem_keys region key).trans (h.mem_keys key).symm
  unfold count
  rw [live_eq httl, ← Std.TreeMap.length_keys, hperm.length_eq, List.length_map]

theorem exists_lists (region : String) (rs : List Registration)
    (hnodup : (rs.map (·.serverId)).Nodup) (hlegible : forall r, r ∈ rs -> r.Legible) :
    exists store : Store, store.available = true ∧ store.timeToLive = none ∧
      store.contents.Lists region rs := by
  induction rs with
  | nil =>
      exact ⟨{}, rfl, rfl, Contents.lists_nil (contents_of_empty rfl region)⟩
  | cons r rs ih =>
      rw [List.map_cons, List.nodup_cons] at hnodup
      rcases ih hnodup.2 fun e he => hlegible e (List.mem_cons_of_mem r he) with
        ⟨store, havailable, httl, hlists⟩
      rcases answer_of_available havailable 0 (.put region r.serverId (Storable.encode r)) with
        ⟨previous, regions, hanswer⟩
      refine ⟨{ store with regions }, havailable, httl, ?_⟩
      rw [(answers_contents httl hanswer).put_ok.2]
      have hput := hlists.put (hlegible r List.mem_cons_self)
      have hothers : rs.filter (·.serverId ≠ r.serverId) = rs :=
        List.filter_eq_self.mpr fun e he => by
          simpa using fun heq => hnodup.1 (List.mem_map.mpr ⟨e, he, heq⟩)
      rw [hothers] at hput
      exact hput

end Store
end Roster
