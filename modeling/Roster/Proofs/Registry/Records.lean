import Roster.Proofs.Registry.Contents

/-!
# Regions as tables of records

A region that is written by puts and removals of records returns just these records, and whoever is
given one judges it as the one that was put there.
-/

namespace Roster

/-!
# What a registry returns
-/

/-- What a procedure comes to when the registry answers all of its calls. -/
inductive Contents.Serves {β : Type} : Contents → Proc β → β → Contents → Prop where
  | done {c} (result : β) : Serves c (.done result) result c
  | ask {c c' c'' call next result} {value : call.Answer} (h : c.Answers call (.ok value) c')
      (hnext : Serves c' (next (.ok value)) result c'') :
      Serves c (.ask (.call call) next) result c''

namespace Region

theorem update_storing {α : Type} {Storing : α → Prop} {rs : String → Option α} {key : String}
    {value : Option α} (h : forall k r, rs k = some r -> Storing r)
    (hvalue : forall r, value = some r -> Storing r) :
    forall k r, Function.update rs key value k = some r -> Storing r := by
  intro k r hr
  by_cases hk : k = key
  · rw [hk, Function.update_self] at hr
    exact hvalue r hr
  · rw [Function.update_of_ne hk] at hr
    exact h k r hr

variable {α β : Type} [Storable α] {region : Region α} {c c' : Contents} {key : String}

theorem serves_get {reply : Except RegistryError (Option α)}
    (h : c.Serves (region.get key) reply c') : reply = decodeOption (c region.name key) := by
  cases h with
  | ask hcall hnext =>
      cases hcall with
      | get =>
          cases hnext with
          | done => rfl

theorem serves_put {record : α} {reply : Except RegistryError (Option α)}
    (h : c.Serves (region.put key record) reply c') :
    c' = c.assign region.name key (some (Storable.encode record)) := by
  cases h with
  | ask hcall hnext =>
      cases hcall with
      | put =>
          cases hnext with
          | done => rfl

theorem serves_remove {reply : Except RegistryError (Option α)}
    (h : c.Serves (region.remove key) reply c') : c' = c.assign region.name key none := by
  cases h with
  | ask hcall hnext =>
      cases hcall with
      | remove =>
          cases hnext with
          | done => rfl

theorem serves_list {reply : Except RegistryError (List α)}
    (h : c.Serves region.list reply c') :
    exists keys : List String, keys.Nodup ∧ (forall key, key ∈ keys ↔ c region.name key ≠ none) ∧
      reply = decodeAll (keys.filterMap (c region.name)) := by
  cases h with
  | ask hcall hnext =>
      cases hcall with
      | @list _ keys hnodup hkeys =>
          cases hnext with
          | done => exact ⟨keys, hnodup, hkeys, rfl⟩

/-- The region has been written by puts of records that can be stored and by removals, and these are
the records last put.  Meanwhile records may have been lost, and other regions may have changed. -/
inductive Written (Storing : α → Prop) (region : Region α) :
    Contents → (String → Option α) → Prop where
  | empty {c : Contents} (h : forall key, c region.name key = none) :
      Written Storing region c fun _ => none
  | put {c c' : Contents} {rs : String → Option α} {key : String} {r : α}
      {reply : Except RegistryError (Option α)} (h : Written Storing region c rs) (hr : Storing r)
      (hput : c.Serves (region.put key r) reply c') :
      Written Storing region c' (Function.update rs key (some r))
  | remove {c c' : Contents} {rs : String → Option α} {key : String}
      {reply : Except RegistryError (Option α)} (h : Written Storing region c rs)
      (hremove : c.Serves (region.remove key) reply c') :
      Written Storing region c' (Function.update rs key none)
  | lost {c : Contents} {rs : String → Option α} (h : Written Storing region c rs) (key : String) :
      Written Storing region (c.assign region.name key none) (Function.update rs key none)
  | elsewhere {c c' : Contents} {rs : String → Option α} (h : Written Storing region c rs)
      (hc : c' region.name = c region.name) : Written Storing region c' rs

def only (key : String) (record : α) : String → Option α :=
  Function.update (fun _ => none) key (some record)

theorem exists_written {Storing : α → Prop} (region : Region α) (key : String) {record : α}
    (h : Storing record) : exists c, region.Written Storing c (only key record) := by
  have hempty : region.Written Storing (fun _ _ => none) fun _ => none := .empty fun _ => rfl
  have hput : Contents.Serves (fun _ _ => none) (region.put key record) (.ok none) _ :=
    .ask .put (.done _)
  exact ⟨_, hempty.put h hput⟩

def Keeps (region : Region α) (c : Contents) (rs : String → Option α) : Prop :=
  forall key, c region.name key = (rs key).map Storable.encode

theorem Keeps.update {rs : String → Option α} (h : region.Keeps c rs) (key : String)
    (value : Option α) :
    region.Keeps (c.assign region.name key (value.map Storable.encode))
      (Function.update rs key value) := by
  intro k
  by_cases hk : k = key
  · rw [hk, Contents.assign_self, Function.update_self]
  · rw [Contents.assign_of_ne c _ hk, Function.update_of_ne hk]
    exact h k

theorem Written.keeps {Storing : α → Prop} {rs : String → Option α}
    (h : region.Written Storing c rs) :
    region.Keeps c rs ∧ forall key r, rs key = some r -> Storing r := by
  induction h with
  | empty h => exact ⟨h, fun _ _ hr => nomatch hr⟩
  | put h hr hput ih =>
      rw [serves_put hput]
      refine ⟨ih.1.update _ (some _), update_storing ih.2 ?_⟩
      rintro r ⟨⟩
      exact hr
  | remove h hremove ih =>
      rw [serves_remove hremove]
      exact ⟨ih.1.update _ none, update_storing ih.2 fun _ hr => nomatch hr⟩
  | lost h key ih => exact ⟨ih.1.update key none, update_storing ih.2 fun _ hr => nomatch hr⟩
  | elsewhere h hc ih =>
      refine ⟨fun key => ?_, ih.2⟩
      rw [hc]
      exact ih.1 key

/-- Whoever fetches a record or lists the region judges what he is given as he would judge the
records that were put. -/
structure Judged (judge : α → β) (region : Region α) (c : Contents) (rs : String → Option α) :
    Prop where
  fetched : forall key reply c', c.Serves (region.get key) reply c' ->
    exists got, reply = .ok got ∧ got.map judge = (rs key).map judge
  listed : forall reply c', c.Serves region.list reply c' ->
    exists (keys : List String) (live : List α), keys.Nodup ∧
      (forall key, key ∈ keys ↔ rs key ≠ none) ∧ reply = .ok live ∧
      live.map judge = keys.filterMap fun key => (rs key).map judge

theorem decode_of_reads {record : α}
    (h : Stored.Reads Storable.decode (Storable.encode record) fun _ => record) :
    decode (Storable.encode record) = .ok record := by
  unfold decode
  rw [h.exact]

theorem decodeAll_encode {records : List α}
    (h : forall r, r ∈ records -> decode (Storable.encode r) = .ok r) :
    decodeAll (records.map Storable.encode) = .ok records := by
  induction records with
  | nil => rfl
  | cons r records ih =>
      rw [List.map_cons]
      unfold decodeAll
      rw [h r List.mem_cons_self, ih fun e he => h e (List.mem_cons_of_mem r he)]
      rfl

theorem Written.judged {Storing : α → Prop} {rs : String → Option α}
    (hreads : forall r, Storing r ->
      Stored.Reads Storable.decode (Storable.encode r) fun _ => r)
    (h : region.Written Storing c rs) (judge : α → β) : region.Judged judge c rs := by
  rcases h.keeps with ⟨hkeeps, hstoring⟩
  have hdecode (key : String) (r : α) (hr : rs key = some r) :
      decode (Storable.encode r) = .ok r :=
    decode_of_reads (hreads r (hstoring key r hr))
  constructor
  · intro key reply c' hserves
    refine ⟨rs key, ?_, rfl⟩
    rw [serves_get hserves, hkeeps key]
    cases hr : rs key with
    | none => rfl
    | some r =>
        change (decode (Storable.encode r)).map some = _
        rw [hdecode key r hr]
        rfl
  · intro reply c' hserves
    rcases serves_list hserves with ⟨keys, hnodup, hkeys, hreply⟩
    have hbytes : keys.filterMap (c region.name) = (keys.filterMap rs).map Storable.encode := by
      rw [List.map_filterMap]
      exact List.filterMap_congr fun key _ => hkeeps key
    refine ⟨keys, keys.filterMap rs, hnodup, ?_, ?_, List.map_filterMap⟩
    · intro key
      rw [hkeys, hkeeps key, Ne, Option.map_eq_none_iff]
    · rw [hreply, hbytes, decodeAll_encode]
      intro r hr
      rcases List.mem_filterMap.mp hr with ⟨key, _, hkey⟩
      exact hdecode key r hkey

end Region

/-!
# Ranks and freshness
-/

/-- Whether a sighting is expired, and whether it must be rewritten, for all users and times. -/
def Sighting.freshness (s : Sighting) (user : String) (now : Instant) (window : Int) :
    Bool × Bool :=
  (s.isExpired now window, s.needsRefresh user now window)

/-- A record is read as it was put, except that a leap second inside a minute is read as the second
after it.  Records without such times are ranked and found fresh as they were when they were put. -/
theorem Stored.records_exact :
    (forall r : Registration, r.Fits ->
      Stored.Reads Storable.decode (Storable.encode r) (fun _ => r.written) ∧
        (r.written = r ↔ r.claimedAt.HasText)) ∧
    (forall s : Sighting, s.Fits ->
      Stored.Reads Storable.decode (Storable.encode s) (fun _ => s.written) ∧
        (s.written = s ↔ s.refreshedAt.HasText)) ∧
    (forall (region : Region Registration) (c : Contents) (rs : String → Option Registration),
      region.Written Registration.Legible c rs ->
      region.Judged Registration.compareRank c rs) ∧
    (forall (region : Region Sighting) (c : Contents) (rs : String → Option Sighting),
      region.Written Sighting.Legible c rs -> region.Judged Sighting.freshness c rs) := by
  refine ⟨fun r h => ⟨Registration.reads h, Registration.written_eq_self⟩,
    fun s h => ⟨Sighting.reads h, Sighting.written_eq_self⟩, ?_, ?_⟩
  · intro region c rs h
    exact h.judged (fun r hr => hr.reads) _
  · intro region c rs h
    exact h.judged (fun s hs => hs.reads) _

/-- The end of a leap second on the last day of the year -1. -/
def Instant.beforeYearZero : Instant where
  day := -719529
  second := 43199
  nano := 1999999999
  firstDay_le := by decide
  le_lastDay := by decide
  second_lt := by decide
  nano_lt := by decide

/-- A registration and a sighting of that moment, with texts of two-byte and four-byte characters,
line ends and zeros. -/
theorem Stored.ancient_records_exact :
    let r : Registration := ⟨"é\u0000\n", 4294967295, .beforeYearZero⟩
    let s : Sighting := ⟨"t", "", "😀\u0000", .beforeYearZero⟩
    let servers : Region Registration := ⟨"servers"⟩
    let users : Region Sighting := ⟨"users"⟩
    r.Legible ∧ s.Legible ∧
      Stored.Reads Storable.decode (Storable.encode r) (fun _ => r) ∧
      Stored.Reads Storable.decode (Storable.encode s) (fun _ => s) ∧
      (exists c, servers.Written Registration.Legible c (Region.only "k" r) ∧
        servers.Judged Registration.compareRank c (Region.only "k" r)) ∧
      exists c, users.Written Sighting.Legible c (Region.only "t" s) ∧
        users.Judged Sighting.freshness c (Region.only "t" s) := by
  intro r s servers users
  have hr : r.Legible := ⟨Stored.fits_of_size (by decide), by decide⟩
  have hs : s.Legible := by
    refine ⟨?_, by decide⟩
    constructor
    · exact Stored.fits_of_size (by decide)
    · exact Stored.fits_of_size (by decide)
    · exact Stored.fits_of_size (by decide)
  have hreads := (records_exact.1 r hr.fits).1
  rw [(records_exact.1 r hr.fits).2.mpr hr.hasText] at hreads
  have hreads' := (records_exact.2.1 s hs.fits).1
  rw [(records_exact.2.1 s hs.fits).2.mpr hs.hasText] at hreads'
  rcases Region.exists_written servers "k" hr with ⟨c, hservers⟩
  rcases Region.exists_written users "t" hs with ⟨c', husers⟩
  exact ⟨hr, hs, hreads, hreads', ⟨c, hservers, records_exact.2.2.1 servers c _ hservers⟩,
    c', husers, records_exact.2.2.2 users c' _ husers⟩

/-- Half a second into a leap second four seconds after 23:56 on the third of June, 2024. -/
def Instant.insideMinute : Instant :=
  (ofParts? 19877 86164 1500000000).getD epoch

def Instant.afterwards : Instant :=
  (ofParts? 19877 86165 200000000).getD epoch

/-- A registration of that moment is read as a later one, behind a claim that it comes before. -/
theorem Stored.leap_second_not_exact :
    let r : Registration := ⟨"a", 0, .insideMinute⟩
    let rival : Registration := ⟨"b", 0, .afterwards⟩
    r.Fits ∧ ¬ Stored.Reads Storable.decode (Storable.encode r) (fun _ => r) ∧
      exists read, Registration.decode (Storable.encode r) = .ok read ∧
        r.outranks rival = true ∧ rival.outranks read = true := by
  intro r rival
  have hfits : r.Fits := Stored.fits_of_size (by decide)
  have hread : Registration.decode (Storable.encode r) = .ok r.written :=
    Registration.decode_encode hfits
  refine ⟨hfits, fun hexact => ?_, r.written, hread, by decide, by decide⟩
  have hsame : r.written = r := Except.ok.inj (hread.symm.trans hexact.exact)
  exact absurd (Registration.written_eq_self.mp hsame) (by decide)

end Roster
