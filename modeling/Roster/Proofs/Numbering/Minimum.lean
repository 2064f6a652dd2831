import Mathlib.Algebra.Order.Ring.Nat
import Mathlib.Order.Bounds.Basic
import Roster.Proofs.Numbering

/-!
# The number search finds the minimum

The search gives the least number that no other server holds.  There is one among the first numbers,
as many as there are entries of others and one more, so the search stays below the highest number
there is.  It knows of a listing only which numbers others hold.
-/

namespace Roster
namespace Numbering

def HeldByOther (own : String) (entries : List Registration) (n : Nat) : Prop :=
  exists e, e ∈ entries ∧ e.serverId ≠ own ∧ e.number.toNat = n

theorem mem_heldByOthers_iff {own : String} {entries : List Registration} {n : Nat} :
    n ∈ heldByOthers own entries ↔ HeldByOther own entries n := by
  constructor
  · intro hn
    unfold heldByOthers at hn
    rcases List.mem_map.mp hn with ⟨e, he, hnumber⟩
    rcases List.mem_filter.mp he with ⟨hmem, hother⟩
    exact ⟨e, hmem, by simpa using hother, hnumber⟩
  · rintro ⟨e, hmem, hother, rfl⟩
    exact mem_heldByOthers hmem hother

theorem isLeast_firstGap (own : String) (entries : List Registration) :
    IsLeast {n | ¬ HeldByOther own entries n}
      (firstGap 0 ((heldByOthers own entries).mergeSort (· ≤ ·))) := by
  have hsorted := (heldByOthers own entries).pairwise_mergeSort' (· ≤ ·)
  have hmem (n : Nat) : n ∈ (heldByOthers own entries).mergeSort (· ≤ ·) ↔
      HeldByOther own entries n := by
    rw [List.mem_mergeSort, mem_heldByOthers_iff]
  constructor
  · exact fun hheld => firstGap_not_mem hsorted 0 ((hmem _).mpr hheld)
  · intro n hn
    refine Nat.le_of_not_lt fun hlt => hn ?_
    exact (hmem n).mp (mem_of_lt_firstGap (Nat.zero_le n) hlt)

theorem lowestFree_congr {own own' : String} {entries entries' : List Registration}
    (h : forall n, HeldByOther own entries n ↔ HeldByOther own' entries' n) :
    lowestFree own entries = lowestFree own' entries' := by
  have hleast := isLeast_firstGap own entries
  simp only [h] at hleast
  unfold lowestFree
  rw [hleast.unique (isLeast_firstGap own' entries')]

/-- The number found is held by no other server, and every smaller one is.  It is at most that of
the entries of others; the order of the entries, repetitions and entries of the server itself do not
matter. -/
theorem lowestFree_minimal {own : String} {entries : List Registration}
    (hlength : entries.length < 2 ^ 32 - 1) :
    (forall e, e ∈ entries -> e.serverId ≠ own -> e.number ≠ lowestFree own entries) ∧
      (forall n, n < (lowestFree own entries).toNat -> exists e, e ∈ entries ∧ e.serverId ≠ own ∧
        e.number.toNat = n) ∧
      (lowestFree own entries).toNat ≤ (entries.filter (·.serverId ≠ own)).length ∧
      forall entries', (forall e, e.serverId ≠ own -> (e ∈ entries' ↔ e ∈ entries)) ->
        lowestFree own entries' = lowestFree own entries := by
  have hhighest : (lowestFree own entries).toNat < highest :=
    Nat.lt_of_le_of_lt (lowestFree_le_length own entries) hlength
  refine ⟨fun e => number_ne_lowestFree hhighest, fun n => exists_of_lt_lowestFree, ?_, ?_⟩
  · have hle := lowestFree_le own entries
    unfold heldByOthers at hle
    rwa [List.length_map] at hle
  · intro entries' hsame
    refine lowestFree_congr fun n => exists_congr fun e => ?_
    constructor
    · rintro ⟨he, hother, hnumber⟩
      exact ⟨(hsame e hother).mp he, hother, hnumber⟩
    · rintro ⟨he, hother, hnumber⟩
      exact ⟨(hsame e hother).mpr he, hother, hnumber⟩

/-- The gap between the numbers of two other servers, whatever the server itself holds, and with an
entry that is listed twice. -/
theorem lowestFree_gap :
    let own : Registration := ⟨"a", 0, .epoch⟩
    let low : Registration := ⟨"b", 0, .epoch⟩
    let high : Registration := ⟨"c", 2, .epoch⟩
    [own, high, low].length < 2 ^ 32 - 1 ∧ lowestFree "a" [own, high, low] = 1 ∧
      lowestFree "a" [low, high, low] = 1 := by
  intro own low high
  have hlength : [own, high, low].length < 2 ^ 32 - 1 := by decide
  rcases @lowestFree_minimal "a" _ hlength with ⟨hfree, _, hle, hsame⟩
  have hfound : lowestFree "a" [own, high, low] = 1 := by
    have hlow := hfree low (by simp) (by decide)
    have hhigh := hfree high (by simp) (by decide)
    rw [← UInt32.toNat_inj.ne] at hlow hhigh
    rw [← UInt32.toNat_inj]
    change _ ≤ 2 at hle
    change 0 ≠ _ at hlow
    change 2 ≠ _ at hhigh
    change _ = 1
    omega
  refine ⟨hlength, hfound, ?_⟩
  rw [hsame [low, high, low] ?_, hfound]
  intro e hother
  have hown : e ≠ own := fun h => hother (congrArg Registration.serverId h)
  simp only [List.mem_cons, List.not_mem_nil, or_false, hown, false_or]
  tauto

end Numbering
end Roster
