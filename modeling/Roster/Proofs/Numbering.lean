import Mathlib.Data.List.Sort
import Roster.Numbering
import Roster.Proofs.Record.Stored

/-!
# What a number search and a verdict say

The number found by the search is held by no other server, short of the highest number there is.
A claim is not lost exactly when it outranks the claims of all others to its number, and of two
claims at most one outranks the other.
-/

namespace Roster
namespace Numbering

/-!
# The first gap
-/

theorem le_firstGap (n : Nat) (ks : List Nat) : n ≤ firstGap n ks := by
  induction ks generalizing n with
  | nil => exact Nat.le_refl n
  | cons k ks ih =>
      unfold firstGap
      split
      · exact ih n
      · split
        · have h := ih (n + 1)
          omega
        · exact Nat.le_refl n

theorem firstGap_not_mem {ks : List Nat} (hsorted : ks.Pairwise (· ≤ ·)) (n : Nat) :
    firstGap n ks ∉ ks := by
  induction ks generalizing n with
  | nil => exact List.not_mem_nil
  | cons k ks ih =>
      rw [List.pairwise_cons] at hsorted
      rcases hsorted with ⟨hk, hks⟩
      have hle : n ≤ firstGap n (k :: ks) := le_firstGap n (k :: ks)
      unfold firstGap at hle ⊢
      rw [List.mem_cons, not_or]
      split
      · have hgap := le_firstGap n ks
        exact ⟨by omega, ih hks n⟩
      · split
        · have hgap := le_firstGap (n + 1) ks
          exact ⟨by omega, ih hks (n + 1)⟩
        · refine ⟨by omega, ?_⟩
          intro hmem
          have hle := hk n hmem
          omega

theorem mem_of_lt_firstGap {ks : List Nat} {n k : Nat} (hle : n ≤ k) (hlt : k < firstGap n ks) :
    k ∈ ks := by
  induction ks generalizing n with
  | nil =>
      unfold firstGap at hlt
      omega
  | cons c ks ih =>
      unfold firstGap at hlt
      split at hlt
      · exact List.mem_cons_of_mem c (ih hle hlt)
      · split at hlt
        · by_cases hk : k = n
          · rw [hk]
            exact List.mem_cons.mpr (Or.inl (by omega))
          · exact List.mem_cons_of_mem c (ih (by omega) hlt)
        · omega

theorem firstGap_le (n : Nat) (ks : List Nat) : firstGap n ks ≤ n + ks.length := by
  induction ks generalizing n with
  | nil => exact Nat.le_refl n
  | cons k ks ih =>
      unfold firstGap
      rw [List.length_cons]
      split
      · have h := ih n
        omega
      · split
        · have h := ih (n + 1)
          omega
        · omega

theorem mem_heldByOthers {own : String} {entries : List Registration} {e : Registration}
    (he : e ∈ entries) (hother : e.serverId ≠ own) :
    e.number.toNat ∈ heldByOthers own entries := by
  unfold heldByOthers
  refine List.mem_map.mpr ⟨e, List.mem_filter.mpr ⟨he, ?_⟩, rfl⟩
  simpa using hother

theorem lowestFree_eq {own : String} {entries : List Registration}
    (hsorted : (heldByOthers own entries).Pairwise (· ≤ ·)) :
    lowestFree own entries =
      UInt32.ofNat (min (firstGap 0 (heldByOthers own entries)) highest) := by
  unfold lowestFree
  rw [List.mergeSort_of_pairwise (by simpa using hsorted)]

theorem lowestFree_le (own : String) (entries : List Registration) :
    (lowestFree own entries).toNat ≤ (heldByOthers own entries).length := by
  have hgap := firstGap_le 0 ((heldByOthers own entries).mergeSort (· ≤ ·))
  rw [List.length_mergeSort] at hgap
  unfold lowestFree highest
  have hmin :
      min (firstGap 0 ((heldByOthers own entries).mergeSort (· ≤ ·))) 4294967295 < 2 ^ 32 := by
    omega
  rw [UInt32.toNat_ofNat_of_lt' hmin]
  omega

theorem lowestFree_le_length (own : String) (entries : List Registration) :
    (lowestFree own entries).toNat ≤ entries.length := by
  refine Nat.le_trans (lowestFree_le own entries) ?_
  unfold heldByOthers
  rw [List.length_map]
  exact List.length_filter_le _ _

theorem lowestFree_lt_length {own : String} {entries : List Registration} {e : Registration}
    (he : e ∈ entries) (hown : e.serverId = own) :
    (lowestFree own entries).toNat < entries.length := by
  refine Nat.lt_of_le_of_lt (lowestFree_le own entries) ?_
  unfold heldByOthers
  rw [List.length_map]
  exact List.length_filter_lt_length_iff_exists.mpr ⟨e, he, by simpa using hown⟩

theorem number_ne_lowestFree {own : String} {entries : List Registration}
    (h : (lowestFree own entries).toNat < highest) {e : Registration} (he : e ∈ entries)
    (hother : e.serverId ≠ own) : e.number ≠ lowestFree own entries := by
  intro heq
  have hsorted := (heldByOthers own entries).pairwise_mergeSort' (· ≤ ·)
  have hgap := firstGap_not_mem hsorted 0
  have hmem := mem_heldByOthers he hother
  rw [List.mem_mergeSort] at hgap
  rw [heq] at hmem
  unfold lowestFree at h hmem
  unfold highest at h hmem
  have hmin :
      min (firstGap 0 ((heldByOthers own entries).mergeSort (· ≤ ·))) 4294967295 < 2 ^ 32 := by
    omega
  rw [UInt32.toNat_ofNat_of_lt' hmin] at h hmem
  rw [Nat.min_eq_left (by omega)] at hmem
  exact hgap hmem

theorem exists_of_lt_lowestFree {own : String} {entries : List Registration} {n : Nat}
    (h : n < (lowestFree own entries).toNat) :
    exists e, e ∈ entries ∧ e.serverId ≠ own ∧ e.number.toNat = n := by
  unfold lowestFree at h
  rw [UInt32.toNat_ofNat_of_lt' (Nat.lt_of_le_of_lt (Nat.min_le_right _ _) (by decide))] at h
  have hmem := mem_of_lt_firstGap (Nat.zero_le n) (Nat.lt_of_lt_of_le h (Nat.min_le_left _ _))
  rw [List.mem_mergeSort] at hmem
  unfold heldByOthers at hmem
  rcases List.mem_map.mp hmem with ⟨e, he, hnumber⟩
  rcases List.mem_filter.mp he with ⟨hentry, hother⟩
  exact ⟨e, hentry, by simpa using hother, hnumber⟩

/-!
# Rank
-/

theorem compare_swap_instant (s t : Instant) : compare t s = (compare s t).swap := by
  change Ordering.then _ _ = Ordering.swap (Ordering.then _ _)
  rw [Ordering.swap_then, Ordering.swap_then, Std.OrientedOrd.eq_swap (a := t.day),
    Std.OrientedOrd.eq_swap (a := t.second), Std.OrientedOrd.eq_swap (a := t.nano)]

theorem compareRank_swap (a b : Registration) : b.compareRank a = (a.compareRank b).swap := by
  unfold Registration.compareRank
  rw [Ordering.swap_then, compare_swap_instant, Std.OrientedOrd.eq_swap (a := b.serverId)]

theorem outranks_asymm {a b : Registration} (h : a.outranks b = true) : b.outranks a = false := by
  unfold Registration.outranks at h ⊢
  rw [beq_iff_eq] at h
  rw [compareRank_swap, h]
  rfl

/-- Two claims, each of which comes before the other one as that is read back. -/
structure Crossed (a b : Registration) : Prop where
  left : a.outranks b.written = true
  right : b.outranks a.written = true

theorem Crossed.not_hasText {a b : Registration} (h : Crossed a b) :
    ¬ (a.claimedAt.HasText ∧ b.claimedAt.HasText) := by
  rintro ⟨ha, hb⟩
  have hleft := h.left
  have hright := h.right
  rw [Registration.written_eq_self.mpr hb] at hleft
  rw [Registration.written_eq_self.mpr ha] at hright
  cases hright.symm.trans (outranks_asymm hleft)

/-!
# Verdicts
-/

theorem mem_rivals {claim e : Registration} {entries : List Registration} :
    e ∈ rivals claim entries ↔
      e ∈ entries ∧ e.number = claim.number ∧ e.serverId ≠ claim.serverId := by
  unfold rivals
  rw [List.mem_filter, decide_eq_true_iff]

theorem verdict_ne_lost_iff {claim : Registration} {entries : List Registration} :
    verdict claim entries ≠ .lost ↔
      forall e, e ∈ entries -> e.number = claim.number -> e.serverId ≠ claim.serverId ->
        claim.outranks e = true := by
  have hall : verdict claim entries ≠ .lost ↔
      (rivals claim entries).all claim.outranks = true := by
    unfold verdict
    cases rivals claim entries with
    | nil => simp
    | cons e es =>
        cases hes : (e :: es).all claim.outranks with
        | true => simp [hes]
        | false => simp [hes]
  rw [hall, List.all_eq_true]
  constructor
  · intro h e he hnumber hserver
    exact h e (mem_rivals.mpr ⟨he, hnumber, hserver⟩)
  · intro h e he
    rcases mem_rivals.mp he with ⟨hmem, hnumber, hserver⟩
    exact h e hmem hnumber hserver

end Numbering
end Roster
