import Mathlib.Data.List.Nodup
import Mathlib.Data.List.Perm.Subperm
import Roster.Proofs.Registry.Records

/-!
# Regions as lists of registrations

A region that holds registrations, each under the id of its server, is described by a list of them.
-/

namespace Roster
namespace Contents

structure Lists (c : Contents) (region : String) (rs : List Registration) : Prop where
  nodup : (rs.map (·.serverId)).Nodup
  legible : forall r, r ∈ rs -> r.Legible
  lookup : forall key bytes, c region key = some bytes ↔
    exists r, r ∈ rs ∧ r.serverId = key ∧ Storable.encode r = bytes

variable {c : Contents} {region : String} {rs : List Registration}

theorem lists_nil (h : forall key, c region key = none) : c.Lists region [] where
  nodup := List.nodup_nil
  legible := fun _ h => (nomatch h)
  lookup := fun key bytes => by simp [h key]

theorem heardListing_encode (h : forall r, r ∈ rs -> r.Legible) :
    Interleaving.heardListing (.ok (rs.map Storable.encode)) = .ok rs :=
  Region.decodeAll_encode fun r hr => decode_eq_ok.mpr (h r hr).decode_encode

namespace Lists

theorem mem_keys (h : c.Lists region rs) (key : String) :
    key ∈ rs.map (·.serverId) ↔ c region key ≠ none := by
  rw [List.mem_map, Option.ne_none_iff_exists']
  constructor
  · rintro ⟨r, hr, rfl⟩
    exact ⟨_, (h.lookup r.serverId _).mpr ⟨r, hr, rfl, rfl⟩⟩
  · rintro ⟨bytes, hbytes⟩
    rcases (h.lookup key bytes).mp hbytes with ⟨r, hr, hkey, _⟩
    exact ⟨r, hr, hkey⟩

theorem answers (h : c.Lists region rs) :
    c.Answers (.list region) (.ok (rs.map Storable.encode)) c := by
  have hvalues : (rs.map (·.serverId)).filterMap (c region) = rs.map Storable.encode := by
    rw [List.filterMap_map, ← List.filterMap_eq_map]
    refine List.filterMap_congr fun r hr => ?_
    exact (h.lookup r.serverId _).mpr ⟨r, hr, rfl, rfl⟩
  rw [← hvalues]
  exact .list h.nodup h.mem_keys

theorem heard (h : c.Lists region rs) :
    Interleaving.heardListing (.ok (rs.map Storable.encode)) = .ok rs :=
  heardListing_encode h.legible

theorem registration?_eq (h : c.Lists region rs) {key : String} {r : Registration} :
    c.registration? region key = some r ↔ r ∈ rs ∧ r.serverId = key := by
  unfold registration?
  constructor
  · intro hr
    rcases Option.bind_eq_some_iff.mp hr with ⟨bytes, hbytes, hdecode⟩
    rcases (h.lookup key bytes).mp hbytes with ⟨e, he, hkey, rfl⟩
    have hread := congrArg Except.toOption (h.legible e he).decode_encode
    cases hread.symm.trans hdecode
    exact ⟨he, hkey⟩
  · rintro ⟨hr, hkey⟩
    rw [(h.lookup key _).mpr ⟨r, hr, hkey, rfl⟩, Option.bind_some]
    exact congrArg Except.toOption (h.legible r hr).decode_encode

theorem decodes (h : c.Lists region rs) {key : String} {bytes : Bytes}
    (hbytes : c region key = some bytes) :
    exists r, Registration.decode bytes = .ok r ∧ r.serverId = key := by
  rcases (h.lookup key bytes).mp hbytes with ⟨r, hr, hkey, rfl⟩
  exact ⟨r, (h.legible r hr).decode_encode, hkey⟩

theorem heard_perm (h : c.Lists region rs) {values : List Bytes} {c' : Contents}
    (hlist : c.Answers (.list region) (.ok values) c') :
    exists live, Interleaving.heardListing (.ok values) = .ok live ∧ live.Perm rs := by
  have hreads (key : String) (bytes : Bytes) (hbytes : c region key = some bytes) :
      exists r, Registration.decode bytes = .ok r :=
    (h.decodes hbytes).imp fun _ hr => hr.1
  rcases listing_ok hlist h.nodup h.mem_keys hreads with ⟨live, hlive, hlength⟩
  refine ⟨live, hlive, ?_⟩
  have hsubset : rs ⊆ live := by
    intro r hr
    exact (mem_listing hlist hlive r).mpr ⟨r.serverId, h.registration?_eq.mpr ⟨hr, rfl⟩⟩
  have hsubperm := List.subperm_of_subset (List.Nodup.of_map _ h.nodup) hsubset
  rw [List.length_map] at hlength
  exact (hsubperm.perm_of_length_le hlength.le).symm

theorem heard_of_answers (h : c.Lists region rs) {values : List Bytes} {c' : Contents}
    (hlist : c.Answers (.list region) (.ok values) c') :
    exists live, Interleaving.heardListing (.ok values) = .ok live ∧
      forall r, r ∈ live ↔ r ∈ rs := by
  rcases h.heard_perm hlist with ⟨live, hlive, hperm⟩
  exact ⟨live, hlive, fun r => hperm.mem_iff⟩

theorem heardPrevious (h : c.Lists region rs) (key : String) :
    exists previous, Interleaving.heardPrevious (.ok (c region key)) = .ok previous := by
  cases hbytes : c region key with
  | none => exact ⟨none, rfl⟩
  | some bytes =>
      rcases (h.lookup key bytes).mp hbytes with ⟨r, hr, _, hencode⟩
      have hdecode : Region.decode bytes = .ok r := by
        rw [← hencode]
        exact decode_eq_ok.mpr (h.legible r hr).decode_encode
      refine ⟨some r, ?_⟩
      change (Region.decode bytes).map some = .ok (some r)
      rw [hdecode]
      rfl

theorem remove (h : c.Lists region rs) (id : String) :
    (c.assign region id none).Lists region (rs.filter (·.serverId ≠ id)) where
  nodup := h.nodup.sublist (List.filter_sublist.map _)
  legible := fun r hr => h.legible r (List.mem_of_mem_filter hr)
  lookup := by
    intro key bytes
    by_cases hkey : key = id
    · rw [hkey, assign_self]
      constructor
      · exact fun h => nomatch h
      · rintro ⟨r, hr, hid, _⟩
        simpa [hid] using (List.mem_filter.mp hr).2
    · rw [assign_of_ne c none hkey, h.lookup]
      constructor
      · rintro ⟨r, hr, rfl, hbytes⟩
        exact ⟨r, List.mem_filter.mpr ⟨hr, by simpa using hkey⟩, rfl, hbytes⟩
      · rintro ⟨r, hr, hid, hbytes⟩
        exact ⟨r, List.mem_of_mem_filter hr, hid, hbytes⟩

theorem put (h : c.Lists region rs) {r : Registration} (hr : r.Legible) :
    (c.assign region r.serverId (some (Storable.encode r))).Lists region
      (r :: rs.filter (·.serverId ≠ r.serverId)) where
  nodup := by
    rw [List.map_cons, List.nodup_cons]
    refine ⟨?_, (h.remove r.serverId).nodup⟩
    rw [List.mem_map]
    rintro ⟨e, he, hid⟩
    simpa [hid] using (List.mem_filter.mp he).2
  legible := by
    intro e he
    rcases List.mem_cons.mp he with rfl | he
    · exact hr
    · exact h.legible e (List.mem_of_mem_filter he)
  lookup := by
    intro key bytes
    by_cases hkey : key = r.serverId
    · rw [hkey, assign_self]
      constructor
      · rintro ⟨rfl⟩
        exact ⟨r, List.mem_cons_self, rfl, rfl⟩
      · rintro ⟨e, he, hid, hbytes⟩
        rcases List.mem_cons.mp he with rfl | he
        · rw [hbytes]
        · simpa [hid] using (List.mem_filter.mp he).2
    · have hremoved := (h.remove r.serverId).lookup key bytes
      rw [assign_of_ne c none hkey] at hremoved
      rw [assign_of_ne c _ hkey, hremoved]
      constructor
      · rintro ⟨e, he, hid, hbytes⟩
        exact ⟨e, List.mem_cons_of_mem r he, hid, hbytes⟩
      · rintro ⟨e, he, hid, hbytes⟩
        rcases List.mem_cons.mp he with rfl | he
        · exact absurd hid.symm hkey
        · exact ⟨e, he, hid, hbytes⟩

theorem put_written (h : c.Lists region rs) {r : Registration} (hr : r.Fits) :
    (c.assign region r.serverId (some (Storable.encode r))).Lists region
      (r.written :: rs.filter (·.serverId ≠ r.serverId)) := by
  have hput := h.put (Registration.legible_written hr)
  have hencode : Storable.encode r.written = Storable.encode r := r.encode_written
  rwa [hencode] at hput

end Lists

/-!
# Entries that lapse
-/

/-- Under each key of the region is what was there before, or nothing any more. -/
def Lapses (c : Contents) (region : String) (c' : Contents) : Prop :=
  forall key, c' region key = c region key ∨ c' region key = none

theorem Lists.lapse {c' : Contents} (h : c.Lists region rs) (hlapses : c.Lapses region c') :
    c'.Lists region (rs.filter fun r => (c' region r.serverId).isSome) where
  nodup := h.nodup.sublist (List.filter_sublist.map _)
  legible := fun r hr => h.legible r (List.mem_of_mem_filter hr)
  lookup := by
    intro key bytes
    constructor
    · intro hbytes
      have hsame : c' region key = c region key := by
        rcases hlapses key with hsame | hnone
        · exact hsame
        · cases hnone.symm.trans hbytes
      rcases (h.lookup key bytes).mp (hsame.symm.trans hbytes) with ⟨r, hr, rfl, hencode⟩
      refine ⟨r, List.mem_filter.mpr ⟨hr, ?_⟩, rfl, hencode⟩
      rw [hbytes]
      rfl
    · intro hr
      rcases hr with ⟨r, hr, rfl, hencode⟩
      rcases List.mem_filter.mp hr with ⟨hr, hsome⟩
      rcases hlapses r.serverId with hsame | hnone
      · rw [hsame]
        exact (h.lookup _ bytes).mpr ⟨r, hr, rfl, hencode⟩
      · rw [hnone] at hsome
        cases hsome

end Contents
end Roster
