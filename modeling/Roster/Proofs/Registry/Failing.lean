import Roster.Proofs.Completion
import Roster.Proofs.Effects
import Roster.Proofs.Registry.Records
import Roster.Proofs.Registry.Shelf

/-!
# Operations that fail

An operation on a region fails when the store is switched off, and when it is given bytes that hold
no record.  A store that is switched off has done nothing, and fetches and listings change nothing
anyway.  But puts and removals are given the bytes that they have replaced: when these hold no
record, the operation fails although it has taken effect.
-/

namespace Roster

def Store.garbled : Store :=
  (({} : Store).answer 0 (.put "servers" "a" [0])).2

theorem Store.garbled_available : garbled.available = true :=
  rfl

theorem Store.visible_garbled : garbled.visible 0 "servers" "a" = some [0] := by
  have havailable : ({} : Store).available = true := rfl
  rcases answer_put havailable 0 "servers" "a" [0] with ⟨store', hanswer, hkept, hshelf⟩
  unfold garbled
  rw [hanswer, visible_of_update hkept hshelf, Contents.assign_self]
  rfl

namespace Region

inductive Operation (α : Type) where
  | get (key : String)
  | put (key : String) (record : α)
  | remove (key : String)
  | list

namespace Operation

variable {α : Type}

@[reducible] def Result : Operation α → Type
  | get _ | put _ _ | remove _ => Option α
  | list => List α

def Replaces : Operation α → Prop
  | get _ | list => False
  | put _ _ | remove _ => True

variable [Storable α]

def proc (region : Region α) : (op : Operation α) → Proc (Except RegistryError op.Result)
  | get key => region.get key
  | put key record => region.put key record
  | remove key => region.remove key
  | list => region.list

def call (region : Region α) : Operation α → Call
  | get key => .get region.name key
  | put key record => .put region.name key (Storable.encode record)
  | remove key => .remove region.name key
  | list => .list region.name

def read (region : Region α) :
    (op : Operation α) → (op.call region).Answer → Except RegistryError op.Result
  | get _, value | put _ _, value | remove _, value => decodeOption value
  | list, values => decodeAll values

def Given (region : Region α) (c : Contents) : Operation α → Bytes → Prop
  | get key, bytes | put key _, bytes | remove key, bytes => c region.name key = some bytes
  | list, bytes => exists key, c region.name key = some bytes

def leave (region : Region α) (c : Contents) : Operation α → Contents
  | get _ | list => c
  | put key record => c.assign region.name key (some (Storable.encode record))
  | remove key => c.assign region.name key none

def Storing (op : Operation α) : Prop :=
  forall key record, op = .put key record -> decode (Storable.encode record) = .ok record

def around (now : Nat) : (e : Effect) → Store → e.Answer × Store
  | .call c, store => store.answer now c
  | e, store => (e.plain, store)

def perform (op : Operation α) (region : Region α) (store : Store) (now : Nat) :
    Except RegistryError op.Result × Store :=
  let ended := (op.proc region).complete (around now) {} store
  (ended.1, ended.2.2)

variable {op : Operation α} {region : Region α} {store store' : Store} {now : Nat}
  {e : RegistryError}

theorem proc_eq (op : Operation α) (region : Region α) :
    op.proc region =
      .ask (.call (op.call region)) fun answer => .done (answer.bind (op.read region)) := by
  cases op with
  | get key => exact (Proc.bind_done _).symm.trans (get_bind _)
  | put key record => exact (Proc.bind_done _).symm.trans (put_bind record _)
  | remove key => exact (Proc.bind_done _).symm.trans (remove_bind _)
  | list =>
      refine congrArg (Proc.ask _) (funext fun answer => ?_)
      cases answer with
      | error e | ok values => rfl

/-- An operation comes to one call, and to what it makes of the answer. -/
theorem perform_eq (op : Operation α) (region : Region α) (store : Store) (now : Nat) :
    op.perform region store now =
      ((store.answer now (op.call region)).1.bind (op.read region),
        (store.answer now (op.call region)).2) := by
  unfold perform
  rw [proc_eq]
  rfl

end Operation

theorem decodeOption_error {α : Type} [Storable α] {value : Option Bytes} {e : RegistryError}
    (h : (decodeOption value : Except RegistryError (Option α)) = .error e) :
    exists bytes, value = some bytes ∧ (decode bytes : Except RegistryError α) = .error e := by
  cases value with
  | none => cases h
  | some bytes =>
      refine ⟨bytes, rfl, ?_⟩
      change (decode bytes).map some = _ at h
      cases hdecode : (decode bytes : Except RegistryError α) with
      | error e' =>
          rw [hdecode] at h
          cases h
          rfl
      | ok record =>
          rw [hdecode] at h
          cases h

theorem decodeAll_error {α : Type} [Storable α] {values : List Bytes} {e : RegistryError}
    (h : (decodeAll values : Except RegistryError (List α)) = .error e) :
    exists bytes, bytes ∈ values ∧ (decode bytes : Except RegistryError α) = .error e := by
  induction values with
  | nil => cases h
  | cons bytes rest ih =>
      unfold decodeAll at h
      cases hdecode : (decode bytes : Except RegistryError α) with
      | error e' =>
          rw [hdecode] at h
          cases h
          exact ⟨bytes, List.mem_cons_self, hdecode⟩
      | ok record =>
          rw [hdecode] at h
          cases hrest : (decodeAll rest : Except RegistryError (List α)) with
          | error e' =>
              rw [hrest] at h
              cases h
              rcases ih hrest with ⟨bytes', hmem, herror⟩
              exact ⟨bytes', List.mem_cons_of_mem bytes hmem, herror⟩
          | ok records =>
              rw [hrest] at h
              cases h

namespace Operation

variable {α : Type} [Storable α] {op : Operation α} {region : Region α} {store store' : Store}
  {now : Nat} {e : RegistryError}

theorem answer_of_available (havailable : store.available = true) (op : Operation α)
    (region : Region α) (now : Nat) :
    exists answer store', store.answer now (op.call region) = (.ok answer, store') ∧
      (forall e, op.read region answer = .error e ->
        exists bytes, op.Given region (store.visible now) bytes ∧
          (decode bytes : Except RegistryError α) = .error e) ∧
      store'.visible now = op.leave region (store.visible now) ∧
      (¬ op.Replaces ->
        forall later, now ≤ later -> store'.visible later = store.visible later) := by
  cases op with
  | get key =>
      rcases store.answer_get havailable now region.name key with
        ⟨store', hanswer, hkept, hshelf⟩
      exact ⟨_, store', hanswer, fun e he => decodeOption_error he,
        Store.visible_of_same hkept hshelf,
        fun _ later hlater => Store.visible_later_of_same hlater hkept hshelf⟩
  | put key record =>
      rcases store.answer_put havailable now region.name key (Storable.encode record) with
        ⟨store', hanswer, hkept, hshelf⟩
      exact ⟨_, store', hanswer, fun e he => decodeOption_error he,
        Store.visible_of_update hkept hshelf, fun hreads => absurd trivial hreads⟩
  | remove key =>
      rcases store.answer_remove havailable now region.name key with
        ⟨store', hanswer, hkept, hshelf⟩
      exact ⟨_, store', hanswer, fun e he => decodeOption_error he,
        Store.visible_of_update hkept hshelf, fun hreads => absurd trivial hreads⟩
  | list =>
      rcases store.answer_list havailable now region.name with
        ⟨keys, store', hanswer, hnodup, hkeys, hkept, hshelf⟩
      refine ⟨_, store', hanswer, fun e he => ?_, Store.visible_of_same hkept hshelf,
        fun _ later hlater => Store.visible_later_of_same hlater hkept hshelf⟩
      rcases decodeAll_error he with ⟨bytes, hmem, hdecode⟩
      rcases List.mem_filterMap.mp hmem with ⟨key, _, hkey⟩
      exact ⟨bytes, ⟨key, hkey⟩, hdecode⟩

theorem perform_of_available (havailable : store.available = true)
    (h : op.perform region store now = (.error e, store')) :
    (exists bytes, op.Given region (store.visible now) bytes ∧
        (decode bytes : Except RegistryError α) = .error e) ∧
      store'.visible now = op.leave region (store.visible now) ∧
      (¬ op.Replaces ->
        forall later, now ≤ later -> store'.visible later = store.visible later) := by
  rcases answer_of_available havailable op region now with
    ⟨answer, after, hanswer, hgiven, hleave, hreads⟩
  rw [perform_eq, hanswer] at h
  rcases Prod.mk.inj h with ⟨herror, rfl⟩
  exact ⟨hgiven e herror, hleave, hreads⟩

theorem perform_of_offline (h : store.available = false) (op : Operation α) (region : Region α)
    (now : Nat) :
    op.perform region store now = (.error (.unavailable region.name Store.offline), store) := by
  rw [perform_eq, Store.answer_of_offline h]
  cases op with
  | get key | put key record | remove key | list => rfl

theorem storing_put {key : String} {record : α}
    (h : decode (Storable.encode record) = .ok record) : (put key record).Storing := by
  rintro _ _ ⟨⟩
  exact h

theorem leave_ne {c : Contents} {bytes : Bytes} (hstoring : op.Storing) (hreplaces : op.Replaces)
    (hgiven : op.Given region c bytes)
    (hdecode : (decode bytes : Except RegistryError α) = .error e) : op.leave region c ≠ c := by
  intro heq
  cases op with
  | get key => exact hreplaces
  | put key record =>
      have hkey := congrFun (congrFun heq region.name) key
      change c.assign region.name key (some (Storable.encode record)) region.name key = _ at hkey
      rw [Contents.assign_self, show c region.name key = some bytes from hgiven] at hkey
      cases hkey
      exact nomatch (hstoring key record rfl).symm.trans hdecode
  | remove key =>
      have hkey := congrFun (congrFun heq region.name) key
      change c.assign region.name key none region.name key = _ at hkey
      rw [Contents.assign_self, show c region.name key = some bytes from hgiven] at hkey
      cases hkey
  | list => exact hreplaces

theorem exists_perform_of_undecodable (havailable : store.available = true) {key : String}
    {bytes : Bytes} (hbytes : store.visible now region.name key = some bytes)
    (hdecode : (decode bytes : Except RegistryError α) = .error e) (record : α) :
    exists store', (put key record).perform region store now = (.error e, store') ∧
      store'.visible now =
        (store.visible now).assign region.name key (some (Storable.encode record)) := by
  rcases store.answer_put havailable now region.name key (Storable.encode record) with
    ⟨store', hanswer, hkept, hshelf⟩
  refine ⟨store', ?_, Store.visible_of_update hkept hshelf⟩
  rw [perform_eq, show store.answer now ((put key record).call region) = _ from hanswer]
  change ((decodeOption (store.visible now region.name key) :
    Except RegistryError (Option α)), _) = _
  rw [hbytes]
  change ((decode bytes : Except RegistryError α).map some, _) = _
  rw [hdecode]
  rfl

/-- An operation fails when the store is switched off, and then has done nothing, or when it is
given bytes that hold no record, and then has done all that it does.  So nothing has changed, now or
later, unless a store that answers was to put or to remove something. -/
theorem failed_unchanged_iff (hstoring : op.Storing)
    (h : op.perform region store now = (.error e, store')) :
    (store.available = false ->
      e = .unavailable region.name Store.offline ∧ store' = store) ∧
    (store.available = true ->
      (exists bytes, op.Given region (store.visible now) bytes ∧
        (decode bytes : Except RegistryError α) = .error e) ∧
      store'.visible now = op.leave region (store.visible now)) ∧
    ((forall later, now ≤ later -> store'.visible later = store.visible later) ↔
      (store.available = true -> ¬ op.Replaces)) := by
  cases havailable : store.available with
  | false =>
      rw [perform_of_offline havailable] at h
      cases h
      exact ⟨fun _ => ⟨rfl, rfl⟩, nofun, fun _ => nofun, fun _ _ _ => rfl⟩
  | true =>
      rcases perform_of_available havailable h with ⟨⟨bytes, hgiven, hdecode⟩, hleave, hreads⟩
      refine ⟨nofun, fun _ => ⟨⟨bytes, hgiven, hdecode⟩, hleave⟩, ?_, fun hnot => hreads (hnot rfl)⟩
      intro hsame _ hreplaces
      exact leave_ne hstoring hreplaces hgiven hdecode
        (hleave.symm.trans (hsame now (Nat.le_refl now)))

theorem storing_garbled_put : (put "a" (⟨"a", 0, .epoch⟩ : Registration)).Storing :=
  storing_put (decode_of_reads (Registration.reads (Stored.fits_of_size (by decide))))

/-- A put over bytes that hold no record fails and has changed the contents. -/
theorem garbled_put_changes :
    let servers : Region Registration := ⟨"servers"⟩
    let op : Operation Registration := put "a" ⟨"a", 0, .epoch⟩
    exists store', op.perform servers Store.garbled 0 = (.error (.undecodable .cutOff), store') ∧
      op.Storing ∧ op.Replaces ∧
      ¬ forall later, 0 ≤ later -> store'.visible later = Store.garbled.visible later := by
  intro servers op
  have hgarbled : Store.garbled.visible 0 servers.name "a" = some [0] := Store.visible_garbled
  rcases exists_perform_of_undecodable Store.garbled_available hgarbled rfl ⟨"a", 0, .epoch⟩ with
    ⟨store', hperform, _⟩
  refine ⟨store', hperform, storing_garbled_put, trivial, fun hsame => ?_⟩
  exact (failed_unchanged_iff storing_garbled_put hperform).2.2.mp hsame Store.garbled_available
    trivial

/-- It is not so that an operation that fails has changed nothing. -/
theorem not_failed_unchanged :
    ¬ forall (op : Operation Registration) (region : Region Registration) (store store' : Store)
        (now : Nat) (e : RegistryError), op.perform region store now = (.error e, store') ->
      store'.visible now = store.visible now := by
  intro h
  let servers : Region Registration := ⟨"servers"⟩
  have hgarbled : Store.garbled.visible 0 servers.name "a" = some [0] := Store.visible_garbled
  rcases exists_perform_of_undecodable Store.garbled_available hgarbled rfl ⟨"a", 0, .epoch⟩ with
    ⟨store', hperform, hvisible⟩
  have hgiven : (put "a" (⟨"a", 0, .epoch⟩ : Registration)).Given servers
      (Store.garbled.visible 0) [0] := hgarbled
  exact leave_ne storing_garbled_put trivial hgiven rfl
    (hvisible.symm.trans (h _ servers _ store' 0 _ hperform))

end Operation
end Region
end Roster
