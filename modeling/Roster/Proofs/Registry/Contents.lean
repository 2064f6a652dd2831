import Mathlib.Data.List.Basic
import Roster.Proofs.Record.Stored
import Roster.Proofs.Settling.Ledger

/-!
# What a registry holds

A registry holds bytes under regions and keys.  A call takes effect at once and as a whole, or fails
and has no effect.  A listing gives the values of a region in any order.
-/

namespace Roster

abbrev Contents := String → String → Option Bytes

namespace Contents

def assign (c : Contents) (region key : String) (value : Option Bytes) : Contents :=
  fun r k => if r = region ∧ k = key then value else c r k

theorem assign_self (c : Contents) (region key : String) (value : Option Bytes) :
    c.assign region key value region key = value := by
  unfold assign
  rw [if_pos ⟨rfl, rfl⟩]

theorem assign_of_ne (c : Contents) {region key k : String} (value : Option Bytes) (h : k ≠ key) :
    c.assign region key value region k = c region k := by
  unfold assign
  rw [if_neg fun heq => h heq.2]

inductive Answers (c : Contents) :
    (call : Call) → Except RegistryError call.Answer → Contents → Prop where
  | failed {call} (e : RegistryError) : Answers c call (.error e) c
  | get {region key} : Answers c (.get region key) (.ok (c region key)) c
  | put {region key bytes} :
      Answers c (.put region key bytes) (.ok (c region key)) (c.assign region key (some bytes))
  | remove {region key} :
      Answers c (.remove region key) (.ok (c region key)) (c.assign region key none)
  | list {region} {keys : List String} (hnodup : keys.Nodup)
      (hkeys : forall key, key ∈ keys ↔ c region key ≠ none) :
      Answers c (.list region) (.ok (keys.filterMap (c region))) c

theorem Answers.eq_of_error {c c' : Contents} {call : Call} {e : RegistryError}
    (h : c.Answers call (.error e) c') : c' = c := by
  cases h with
  | failed e => rfl

theorem Answers.get_ok {c c' : Contents} {region key : String} {value : Option Bytes}
    (h : c.Answers (.get region key) (.ok value) c') : value = c region key ∧ c' = c := by
  cases h with
  | get => exact ⟨rfl, rfl⟩

theorem Answers.put_ok {c c' : Contents} {region key : String} {bytes : Bytes}
    {previous : Option Bytes} (h : c.Answers (.put region key bytes) (.ok previous) c') :
    previous = c region key ∧ c' = c.assign region key (some bytes) := by
  cases h with
  | put => exact ⟨rfl, rfl⟩

theorem Answers.remove_ok {c c' : Contents} {region key : String} {previous : Option Bytes}
    (h : c.Answers (.remove region key) (.ok previous) c') :
    previous = c region key ∧ c' = c.assign region key none := by
  cases h with
  | remove => exact ⟨rfl, rfl⟩

theorem Answers.eq_of_list {c c' : Contents} {region : String}
    {answer : Except RegistryError (List Bytes)} (h : c.Answers (.list region) answer c') :
    c' = c := by
  cases h with
  | failed e => rfl
  | list hnodup hkeys => rfl

/-!
# Registrations
-/

def registration? (c : Contents) (region key : String) : Option Registration :=
  (c region key).bind fun bytes => (Registration.decode bytes).toOption

/-- What is under the id of a server is a registration of the server. -/
def Sound (c : Contents) (region id : String) : Prop :=
  forall bytes, c region id = some bytes ->
    exists r, Registration.decode bytes = .ok r ∧ r.serverId = id

theorem decode_encode {r : Registration} (h : Stored.Fits r.serverId) :
    Registration.decode (Storable.encode r) = .ok r.written :=
  Registration.decode_encode h

theorem registration?_assign_self (c : Contents) {region key : String} {r : Registration}
    (h : Stored.Fits r.serverId) :
    (c.assign region key (some (Storable.encode r))).registration? region key =
      some r.written := by
  unfold registration?
  rw [assign_self, Option.bind_some, decode_encode h]
  rfl

theorem registration?_erase_self (c : Contents) (region key : String) :
    (c.assign region key none).registration? region key = none := by
  unfold registration?
  rw [assign_self]
  rfl

theorem registration?_assign_of_ne (c : Contents) {region key k : String} (value : Option Bytes)
    (h : k ≠ key) :
    (c.assign region key value).registration? region k = c.registration? region k := by
  unfold registration?
  rw [assign_of_ne c value h]

theorem Sound.serverId_eq {c : Contents} {region id : String} (h : c.Sound region id)
    {r : Registration} (hr : c.registration? region id = some r) : r.serverId = id := by
  unfold registration? at hr
  cases hbytes : c region id with
  | none =>
      rw [hbytes] at hr
      cases hr
  | some bytes =>
      rcases h bytes hbytes with ⟨r', hdecode, hid⟩
      rw [hbytes, Option.bind_some, hdecode] at hr
      cases hr
      exact hid

theorem Sound.registration?_eq_none {c : Contents} {region id : String} (h : c.Sound region id) :
    c.registration? region id = none ↔ c region id = none := by
  unfold registration?
  constructor
  · intro hnone
    cases hbytes : c region id with
    | none => rfl
    | some bytes =>
        rcases h bytes hbytes with ⟨r, hdecode, _⟩
        rw [hbytes, Option.bind_some, hdecode] at hnone
        cases hnone
  · intro hnone
    rw [hnone]
    rfl

/-!
# Listings
-/

theorem decode_eq_ok {bytes : Bytes} {r : Registration} :
    Region.decode bytes = .ok r ↔ Registration.decode bytes = .ok r := by
  have hstorable : Storable.decode bytes = Registration.decode bytes := rfl
  unfold Region.decode
  rw [hstorable]
  cases Registration.decode bytes with
  | error fault => simp
  | ok record => simp

theorem mem_of_decodeAll {values : List Bytes} {live : List Registration}
    (h : Region.decodeAll values = .ok live) (r : Registration) :
    r ∈ live ↔ exists bytes, bytes ∈ values ∧ Registration.decode bytes = .ok r := by
  induction values generalizing live with
  | nil =>
      cases h
      simp
  | cons bytes rest ih =>
      unfold Region.decodeAll at h
      cases hbytes : Region.decode (α := Registration) bytes with
      | error e =>
          rw [hbytes] at h
          cases h
      | ok first =>
          rw [hbytes] at h
          cases hrest : Region.decodeAll (α := Registration) rest with
          | error e =>
              rw [hrest] at h
              cases h
          | ok others =>
              rw [hrest] at h
              cases h
              have hfirst := decode_eq_ok.mp hbytes
              rw [List.mem_cons, ih hrest]
              constructor
              · intro hr
                rcases hr with rfl | ⟨b, hb, hdecode⟩
                · exact ⟨bytes, List.mem_cons_self, hfirst⟩
                · exact ⟨b, List.mem_cons_of_mem bytes hb, hdecode⟩
              · intro hr
                rcases hr with ⟨b, hb, hdecode⟩
                rcases List.mem_cons.mp hb with rfl | hb
                · rw [hfirst] at hdecode
                  cases hdecode
                  exact Or.inl rfl
                · exact Or.inr ⟨b, hb, hdecode⟩

theorem decodeAll_eq_ok {values : List Bytes}
    (h : forall bytes, bytes ∈ values -> exists r, Registration.decode bytes = .ok r) :
    exists live : List Registration,
      Region.decodeAll values = .ok live ∧ live.length = values.length := by
  induction values with
  | nil => exact ⟨[], rfl, rfl⟩
  | cons bytes rest ih =>
      rcases h bytes List.mem_cons_self with ⟨r, hr⟩
      rcases ih fun b hb => h b (List.mem_cons_of_mem bytes hb) with ⟨live, hlive, hlength⟩
      refine ⟨r :: live, ?_, congrArg (· + 1) hlength⟩
      unfold Region.decodeAll
      rw [decode_eq_ok.mpr hr, hlive]
      rfl

theorem mem_listing {c c' : Contents} {region : String}
    {answer : Except RegistryError (List Bytes)} (h : c.Answers (.list region) answer c')
    {live : List Registration} (hlive : Interleaving.heardListing answer = .ok live)
    (r : Registration) : r ∈ live ↔ exists key, c.registration? region key = some r := by
  cases h with
  | failed e => cases hlive
  | @list _ keys hnodup hkeys =>
      change Region.decodeAll (keys.filterMap (c region)) = .ok live at hlive
      rw [mem_of_decodeAll hlive]
      constructor
      · intro hr
        rcases hr with ⟨bytes, hbytes, hdecode⟩
        rcases List.mem_filterMap.mp hbytes with ⟨key, _, hkey⟩
        refine ⟨key, ?_⟩
        unfold registration?
        rw [hkey, Option.bind_some, hdecode]
        rfl
      · intro hr
        rcases hr with ⟨key, hkey⟩
        unfold registration? at hkey
        cases hbytes : c region key with
        | none =>
            rw [hbytes] at hkey
            cases hkey
        | some bytes =>
            rw [hbytes, Option.bind_some] at hkey
            refine ⟨bytes, List.mem_filterMap.mpr ⟨key, (hkeys key).mpr ?_, hbytes⟩, ?_⟩
            · rw [hbytes]
              exact fun h => nomatch h
            · cases hdecode : Registration.decode bytes with
              | error fault =>
                  rw [hdecode] at hkey
                  cases hkey
              | ok record =>
                  rw [hdecode] at hkey
                  cases hkey
                  rfl

theorem listing_ok {c c' : Contents} {region : String} {keys : List String} {values : List Bytes}
    (h : c.Answers (.list region) (.ok values) c') (hnodup : keys.Nodup)
    (hkeys : forall key, key ∈ keys ↔ c region key ≠ none)
    (hreads : forall key bytes, c region key = some bytes ->
      exists r, Registration.decode bytes = .ok r) :
    exists live, Interleaving.heardListing (.ok values) = .ok live ∧ live.length = keys.length := by
  cases h with
  | @list _ ks hnodup' hkeys' =>
      have hdecodes (bytes : Bytes) (hbytes : bytes ∈ ks.filterMap (c region)) :
          exists r, Registration.decode bytes = .ok r := by
        rcases List.mem_filterMap.mp hbytes with ⟨key, _, hkey⟩
        exact hreads key bytes hkey
      have hperm : ks.Perm keys := (List.perm_ext_iff_of_nodup hnodup' hnodup).mpr fun key =>
        (hkeys' key).trans (hkeys key).symm
      have hcount : (ks.filterMap (c region)).length = ks.length :=
        List.filterMap_length_eq_length.mpr fun key hkey =>
          Option.isSome_iff_ne_none.mpr ((hkeys' key).mp hkey)
      rcases decodeAll_eq_ok hdecodes with ⟨live, hlive, hlength⟩
      exact ⟨live, hlive, hlength.trans (hcount.trans hperm.length_eq)⟩

end Contents

/-!
# Members that share a registry
-/

namespace Interleaving

variable {ι ω : Type}

structure Fleet (ι : Type) where
  member : ι → Member
  region : String
  region_eq : forall i, (member i).config.serverRegion = region
  id_injective : forall i j, (member i).id.text = (member j).id.text -> i = j
  fits : forall i, Stored.Fits (member i).id.text

def Fleet.pair : Fleet Bool where
  member := fun second => ⟨⟨if second then "b" else "a"⟩, {}⟩
  region := Config.serverRegion {}
  region_eq := fun _ => rfl
  id_injective := by decide
  fits := fun second => Stored.fits_of_size (by
    cases second with
    | false | true => decide)

/-- The members of a setting keep their registrations in one region of one registry, under ids that
tell them apart. -/
structure Shared (S : Setting ι ω) where
  contents : ω → Contents
  region : String
  region_eq : forall i, (S.member i).servers.name = region
  id_injective : forall i j, (S.member i).id.text = (S.member j).id.text -> i = j
  fits : forall i, Stored.Fits (S.member i).id.text
  call : forall {i w c answer w'}, S.answers i w (.call c) answer w' ->
    (contents w).Answers c answer (contents w')
  now : forall {i w t w'}, S.answers i w .now t w' -> contents w' = contents w
  readingPast : forall {i w previous reading w'},
    S.answers i w (.readingPast previous) reading w' -> contents w' = contents w
  note : forall w event, contents (S.notes w event) = contents w
  drift : forall {w w'}, S.drifts w w' -> forall i,
    contents w' region (S.member i).id.text = contents w region (S.member i).id.text

namespace Shared

variable {S : Setting ι ω} (R : Shared S)

def sound (w : ω) : Prop :=
  forall i, (R.contents w).Sound R.region (S.member i).id.text

def held (w : ω) (i : ι) : Option Registration :=
  (R.contents w).registration? R.region (S.member i).id.text

theorem keeps {w w' : ω}
    (h : forall i, R.contents w' R.region (S.member i).id.text =
      R.contents w R.region (S.member i).id.text) (hw : R.sound w) :
    R.sound w' ∧ R.held w' = R.held w := by
  constructor
  · intro i bytes hbytes
    exact hw i bytes (by rw [← h i]; exact hbytes)
  · funext i
    unfold held Contents.registration?
    rw [h i]

theorem keeps_of_eq {w w' : ω} (h : R.contents w' = R.contents w) (hw : R.sound w) :
    R.sound w' ∧ R.held w' = R.held w :=
  R.keeps (fun i => by rw [h]) hw

theorem heardPrevious_ok {w : ω} (hw : R.sound w) (i : ι) :
    exists previous, heardPrevious
      (.ok (R.contents w R.region (S.member i).id.text)) = .ok previous := by
  unfold heardPrevious
  cases hbytes : R.contents w R.region (S.member i).id.text with
  | none => exact ⟨none, rfl⟩
  | some bytes =>
      rcases hw i bytes hbytes with ⟨r, hdecode, _⟩
      refine ⟨some r, ?_⟩
      change (Region.decode bytes).map some = .ok (some r)
      rw [Contents.decode_eq_ok.mpr hdecode]
      rfl

include R in
theorem id_ne {i j : ι} (h : j ≠ i) : (S.member j).id.text ≠ (S.member i).id.text :=
  fun heq => h (R.id_injective j i heq)

variable [DecidableEq ι]

theorem assigned {w w' : ω} {i : ι} (entry : Option Registration)
    (hentry : forall r, entry = some r -> r.serverId = (S.member i).id.text)
    (h : R.contents w' = (R.contents w).assign R.region (S.member i).id.text
      (entry.map Storable.encode)) (hw : R.sound w) :
    R.sound w' ∧ R.held w' = Function.update (R.held w) i (entry.map Registration.written) := by
  have hfits (r : Registration) (hr : entry = some r) : Stored.Fits r.serverId := by
    rw [hentry r hr]
    exact R.fits i
  constructor
  · intro j bytes hbytes
    by_cases hj : j = i
    · rw [h, hj, Contents.assign_self] at hbytes
      rcases Option.map_eq_some_iff.mp hbytes with ⟨r, hr, rfl⟩
      exact ⟨r.written, Contents.decode_encode (hfits r hr), (hentry r hr).trans (by rw [hj])⟩
    · rw [h, Contents.assign_of_ne _ _ (R.id_ne hj)] at hbytes
      exact hw j bytes hbytes
  · funext j
    unfold held
    by_cases hj : j = i
    · rw [h, hj, Function.update_self]
      cases hr : entry with
      | none => exact Contents.registration?_erase_self _ _ _
      | some r => exact Contents.registration?_assign_self _ (hfits r hr)
    · rw [h, Function.update_of_ne hj, Contents.registration?_assign_of_ne _ _ (R.id_ne hj)]

def ledger : Ledger S where
  sound := R.sound
  held := R.held
  put := by
    intro i w claim answer w' hw hclaim hanswer
    have hcall := R.call hanswer
    rw [R.region_eq] at hcall
    cases answer with
    | error e =>
        rcases R.keeps_of_eq hcall.eq_of_error hw with ⟨hsound, hheld⟩
        exact ⟨hsound, Or.inr ⟨⟨e, rfl⟩, hheld⟩⟩
    | ok previous =>
        rcases hcall.put_ok with ⟨rfl, hcontents⟩
        rcases R.assigned (some claim) (fun r hr => by cases hr; exact hclaim) hcontents hw with
          ⟨hsound, hheld⟩
        exact ⟨hsound, Or.inl ⟨R.heardPrevious_ok hw i, hheld⟩⟩
  remove := by
    intro i w answer w' hw hanswer
    have hcall := R.call hanswer
    rw [R.region_eq] at hcall
    cases answer with
    | error e =>
        rcases R.keeps_of_eq hcall.eq_of_error hw with ⟨hsound, hheld⟩
        exact ⟨hsound, Or.inr ⟨⟨e, rfl⟩, hheld⟩⟩
    | ok previous =>
        rcases hcall.remove_ok with ⟨rfl, hcontents⟩
        rcases R.assigned none (fun r hr => nomatch hr) hcontents hw with
          ⟨hsound, hheld⟩
        exact ⟨hsound, Or.inl ⟨R.heardPrevious_ok hw i, hheld⟩⟩
  list := by
    intro i w answer w' hw hanswer
    have hcall := R.call hanswer
    exact R.keeps_of_eq hcall.eq_of_list hw
  now := fun hw hread => R.keeps_of_eq (R.now hread) hw
  readingPast := fun hw hread => R.keeps_of_eq (R.readingPast hread) hw
  note := fun event hw => R.keeps_of_eq (R.note _ event) hw
  drift := fun hw hdrift => R.keeps (R.drift hdrift) hw

/-!
# Regions that hold nothing else
-/

def Exclusive (w : ω) : Prop :=
  forall key, R.contents w R.region key ≠ none -> exists i, key = (S.member i).id.text

omit [DecidableEq ι] in
theorem exclusive_assign {w w' : ω} {i : ι} {value : Option Bytes}
    (h : R.contents w' = (R.contents w).assign R.region (S.member i).id.text value)
    (hw : R.Exclusive w) : R.Exclusive w' := by
  intro key hkey
  by_cases heq : key = (S.member i).id.text
  · exact ⟨i, heq⟩
  · rw [h, Contents.assign_of_ne _ _ heq] at hkey
    exact hw key hkey

omit [DecidableEq ι] in
theorem exclusive_of_keeps {w w' : ω}
    (h : forall key, R.contents w' R.region key = R.contents w R.region key) (hw : R.Exclusive w) :
    R.Exclusive w' := by
  intro key hkey
  rw [h key] at hkey
  exact hw key hkey

omit [DecidableEq ι] in
theorem exclusive_of_eq {w w' : ω} (h : R.contents w' = R.contents w) (hw : R.Exclusive w) :
    R.Exclusive w' :=
  R.exclusive_of_keeps (fun key => by rw [h]) hw

def exclusiveLedger
    (hdrift : forall {w w'}, S.drifts w w' ->
      forall key, R.contents w' R.region key = R.contents w R.region key) : Ledger S where
  sound := fun w => R.sound w ∧ R.Exclusive w
  held := R.held
  put := by
    intro i w claim answer w' hw hclaim hanswer
    rcases R.ledger.put hw.1 hclaim hanswer with ⟨hsound, hheld⟩
    refine ⟨⟨hsound, ?_⟩, hheld⟩
    have hcall := R.call hanswer
    rw [R.region_eq] at hcall
    cases answer with
    | error e => exact R.exclusive_of_eq hcall.eq_of_error hw.2
    | ok previous => exact R.exclusive_assign hcall.put_ok.2 hw.2
  remove := by
    intro i w answer w' hw hanswer
    rcases R.ledger.remove hw.1 hanswer with ⟨hsound, hheld⟩
    refine ⟨⟨hsound, ?_⟩, hheld⟩
    have hcall := R.call hanswer
    rw [R.region_eq] at hcall
    cases answer with
    | error e => exact R.exclusive_of_eq hcall.eq_of_error hw.2
    | ok previous => exact R.exclusive_assign hcall.remove_ok.2 hw.2
  list := by
    intro i w answer w' hw hanswer
    rcases R.ledger.list hw.1 hanswer with ⟨hsound, hheld⟩
    exact ⟨⟨hsound, R.exclusive_of_eq (R.call hanswer).eq_of_list hw.2⟩, hheld⟩
  now := fun hw hread =>
    have hkeep := R.ledger.now hw.1 hread
    ⟨⟨hkeep.1, R.exclusive_of_eq (R.now hread) hw.2⟩, hkeep.2⟩
  readingPast := fun hw hread =>
    have hkeep := R.ledger.readingPast hw.1 hread
    ⟨⟨hkeep.1, R.exclusive_of_eq (R.readingPast hread) hw.2⟩, hkeep.2⟩
  note := fun event hw =>
    have hkeep := R.ledger.note event hw.1
    ⟨⟨hkeep.1, R.exclusive_of_eq (R.note _ event) hw.2⟩, hkeep.2⟩
  drift := fun hw hdrifts =>
    have hkeep := R.ledger.drift hw.1 hdrifts
    ⟨⟨hkeep.1, R.exclusive_of_keeps (hdrift hdrifts) hw.2⟩, hkeep.2⟩

omit [DecidableEq ι] in
theorem mem_listing {i : ι} {w w' : ω} (hw : R.Exclusive w)
    {answer : Except RegistryError (List Bytes)}
    (h : S.answers i w (.call (.list (S.member i).servers.name)) answer w')
    {live : List Registration} (hlive : heardListing answer = .ok live) (r : Registration) :
    r ∈ live ↔ exists j, R.held w j = some r := by
  have hcall := R.call h
  rw [R.region_eq] at hcall
  rw [Contents.mem_listing hcall hlive]
  constructor
  · intro hr
    rcases hr with ⟨key, hkey⟩
    have hfull : R.contents w R.region key ≠ none := by
      intro hnone
      unfold Contents.registration? at hkey
      rw [hnone] at hkey
      cases hkey
    rcases hw key hfull with ⟨j, rfl⟩
    exact ⟨j, hkey⟩
  · intro hr
    rcases hr with ⟨j, hj⟩
    exact ⟨_, hj⟩

end Shared
end Interleaving
end Roster
