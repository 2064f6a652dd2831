import Roster.Proofs.Time.Millis
import Roster.Proofs.UniqueId.Order

/-!
# The layout of ids

A server number and a count are all that there is in an id: they are read back from it, and they make
it up.  The count comes first, so ids are ordered by it and then by the server.  The largest count is
reached long before the calendar ends, so every id has a time, and what an issuer takes from its clock
shows in that time, to the millisecond.

A count of milliseconds has no room for leap seconds.  An id that is issued in one is dated to the
second after it.
-/

namespace Roster
namespace UniqueId

/-!
# Parts
-/

theorem ofParts_mod (server : UInt16) (count : Nat) :
    ofParts server (count % elapsedRange) = ofParts server count := by
  unfold ofParts
  rw [Nat.mod_mod]

theorem toNat_server (id : UniqueId) : id.server.toNat = id.raw.toNat % serverRange :=
  UInt16.toNat_ofNat_of_lt' (Nat.mod_lt id.raw.toNat (by decide))

theorem elapsed_lt (id : UniqueId) : id.elapsed < elapsedRange := by
  have hraw := id.raw.toNat_lt
  unfold elapsed serverRange elapsedRange
  omega

theorem parts_ofParts (server : UInt16) (count : Nat) :
    (ofParts server count).server = server ∧
      (ofParts server count).elapsed = count % elapsedRange := by
  have hlt : count % elapsedRange < elapsedRange := Nat.mod_lt _ (by decide)
  rw [← ofParts_mod]
  exact ⟨server_ofParts server hlt, elapsed_ofParts server hlt⟩

theorem ofParts_parts (id : UniqueId) : ofParts id.server id.elapsed = id :=
  eq_of_parts (server_ofParts id.server id.elapsed_lt) (elapsed_ofParts id.server id.elapsed_lt)

theorem lt_iff (a b : UniqueId) :
    a < b ↔ a.elapsed < b.elapsed ∨ a.elapsed = b.elapsed ∧ a.server < b.server := by
  change a.raw < b.raw ↔ _
  rw [UInt64.lt_iff_toNat_lt, UInt16.lt_iff_toNat_lt, toNat_server, toNat_server]
  unfold elapsed serverRange
  omega

/-!
# Times
-/

theorem exists_issuedAt? (id : UniqueId) :
    exists t, id.issuedAt? = some t ∧ (stamp 0).addMillis? id.elapsed = some t ∧
      t.since (stamp 0) = id.elapsed * 1000000 := by
  have hlt := id.elapsed_lt
  unfold elapsedRange at hlt
  have hzero : (stamp 0).millis = epochMillis := rfl
  have hfirst : Calendar.firstDay * 86400000 ≤ epochMillis + id.elapsed := by
    unfold Calendar.firstDay epochMillis
    omega
  have hlast : epochMillis + id.elapsed < (Calendar.lastDay + 1) * 86400000 := by
    unfold Calendar.lastDay epochMillis
    omega
  rcases Instant.exists_ofMillis? hfirst hlast with ⟨t, ht⟩
  rcases Instant.ofMillis?_eq_some ht with ⟨hmillis, hleap, hwhole⟩
  refine ⟨t, ht, ?_, ?_⟩
  · rw [Instant.addMillis?_eq rfl rfl, hzero]
    exact ht
  · have hspan : epochMillis + (id.elapsed : Int) - epochMillis = id.elapsed := by omega
    rw [Instant.since_eq_millis hleap rfl hwhole rfl, hmillis, hzero, hspan]

theorem issuedAt?_ofParts (server : UInt16) {reading : Instant} (h : InRange reading.millis) :
    exists t, (ofParts server (elapsedAt reading.millis)).issuedAt? = some t ∧
      t.millis = reading.millis ∧ (reading.isLeapSecond = false -> t = reading.floorMillis) := by
  have helapsed := elapsed_ofParts server (elapsedAt_lt h)
  have hmillis : epochMillis + elapsedAt reading.millis = reading.millis := by
    unfold InRange at h
    unfold elapsedAt
    omega
  rcases exists_issuedAt? (ofParts server (elapsedAt reading.millis)) with ⟨t, ht, _⟩
  refine ⟨t, ht, ?_⟩
  unfold issuedAt? at ht
  rw [helapsed, hmillis] at ht
  refine ⟨(Instant.ofMillis?_eq_some ht).1, fun hleap => ?_⟩
  rw [Instant.ofMillis?_millis hleap] at ht
  exact (Option.some.inj ht).symm

/-!
# The layout
-/

/-- An id and its parts give each other back, up to the range of the counts, and compare alike.  Every
id has a time, and one whose count was taken from a reading of the clock has that of the reading, down
to the millisecond, unless the clock showed a leap second. -/
theorem layout_lossless :
    (forall (server : UInt16) (count : Nat), (ofParts server count).server = server ∧
      (ofParts server count).elapsed = count % 2 ^ 48) ∧
    (forall id : UniqueId, ofParts id.server id.elapsed = id) ∧
    (forall a b : UniqueId,
      a < b ↔ a.elapsed < b.elapsed ∨ a.elapsed = b.elapsed ∧ a.server < b.server) ∧
    (exists zero, Timestamp.read "2009-09-22T00:00:00Z".toList = .ok zero ∧
      forall id : UniqueId, exists t, id.issuedAt? = some t ∧
        zero.addMillis? id.elapsed = some t ∧ t.since zero = id.elapsed * 1000000) ∧
    forall (issuer : Issuer) (waiting : List Int) (reading : Instant) (rest : List Int),
      InRange reading.millis -> (forall r, r ∈ waiting -> elapsedAt r = issuer.previous) ->
      issuer.previous < elapsedAt reading.millis ->
      exists id t, issuer.next? (waiting ++ reading.millis :: rest) =
          some (id, { issuer with previous := elapsedAt reading.millis }, rest) ∧
        id.issuedAt? = some t ∧ t.millis = reading.millis ∧
        (reading.isLeapSecond = false -> t = reading.floorMillis) := by
  refine ⟨parts_ofParts, ofParts_parts, lt_iff, ⟨stamp 0, ?_, exists_issuedAt?⟩, ?_⟩
  · have hwrite : Timestamp.write (stamp 0) = "2009-09-22T00:00:00Z".toList := by decide
    rw [← hwrite]
    exact Timestamp.read_write (stamp 0)
  · intro issuer waiting reading rest hrange hwaiting hahead
    rcases issuedAt?_ofParts issuer.server hrange with ⟨t, ht⟩
    refine ⟨_, t, Issuer.next?_eq_some.mpr ⟨waiting, reading.millis, rfl, hwaiting, ?_, ?_⟩, ht⟩
    · exact (Nat.ne_of_lt hahead).symm
    · exact Issuer.issue_of_lt hahead

/-- An instant of the last second before 2017, or of the leap second after it. -/
def endOf2016 (nano : Nat) : Instant :=
  (Instant.ofParts? 17166 86399 nano).getD default

/-- The second id of an issuer, while the clock still shows the first one at first. -/
theorem second_id_dated :
    let first := endOf2016 7999999
    let second := endOf2016 8123456
    let issuer : Issuer := ⟨42, elapsedAt first.millis⟩
    InRange second.millis ∧ issuer.previous < elapsedAt second.millis ∧
      exists id issuer', issuer.next? [first.millis, second.millis] = some (id, issuer', []) ∧
        id.issuedAt? = some (endOf2016 8000000) := by
  intro first second issuer
  have hrange : InRange second.millis := ⟨by decide, by decide⟩
  have hahead : issuer.previous < elapsedAt second.millis := by decide
  rcases layout_lossless.2.2.2.2 issuer [first.millis] second [] hrange
    (fun r hr => by rw [List.mem_singleton.mp hr]) hahead with ⟨id, t, hnext, ht, _, hfloor⟩
  refine ⟨hrange, hahead, id, _, hnext, ?_⟩
  rw [ht, hfloor rfl]
  decide

/-- The clock shows a leap second, and the time of the id does not. -/
theorem leap_second_not_dated :
    let reading := endOf2016 1500000000
    reading.isLeapSecond = true ∧ InRange reading.millis ∧ 0 < elapsedAt reading.millis ∧
      exists id, (⟨0, 0⟩ : Issuer).next? [reading.millis] =
          some (id, ⟨0, elapsedAt reading.millis⟩, []) ∧
        id.raw = 15050421075968000 ∧ id.issuedAt? ≠ some reading.floorMillis := by
  intro reading
  refine ⟨by decide, ⟨by decide, by decide⟩, by decide, ofParts 0 (elapsedAt reading.millis),
    by decide, by decide, fun h => ?_⟩
  have hleap := (Instant.ofMillis?_eq_some h).2.1
  exact absurd hleap (by decide)

end UniqueId
end Roster
