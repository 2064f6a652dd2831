import Mathlib.Data.List.FinRange
import Roster.Proofs.VirtualTime.Stretches

/-!
# Dense numbers

Members that claim one after the other, each the lowest free number, have their places in this order
for numbers.  Sorted by number, their entries stand in the same order.
-/

namespace Roster

open Interleaving

variable {n k : Nat} {F : Fleet (Fin n)} {es : Entries (Fin n)}

/-- The members before a place have their places for numbers, and the others have no entries. -/
structure Entries.Dense (F : Fleet (Fin n)) (k : Nat) (es : Entries (Fin n)) : Prop where
  taken : forall i : Fin n, i.val < k ->
    exists claimedAt t, es i = some (⟨(F.member i).id.text, UInt32.ofNat i.val, claimedAt⟩, t)
  free : forall i : Fin n, k ≤ i.val -> es i = none

theorem toNat_place (hk : k < UniqueId.serverRange) : (UInt32.ofNat k).toNat = k :=
  UInt32.toNat_ofNat_of_lt' (Nat.lt_trans hk (by decide))

/-- Sorting by number finds the one order in which the numbers ascend. -/
theorem mergeSort_by_number {live entries : List Registration} (hperm : live.Perm entries)
    (hentries : entries.Pairwise fun a b => a.number < b.number) :
    live.mergeSort (·.number ≤ ·.number) = entries := by
  have hsorted := (List.mergeSort_perm live (·.number ≤ ·.number)).trans hperm
  refine @List.Perm.eq_of_pairwise _ (fun a b => a.number ≤ b.number) _ _ ?_ ?_
    (hentries.imp fun hlt => UInt32.le_of_lt hlt) hsorted
  · intro a b ha hb hab hba
    have hnumbers : (entries.map (·.number)).Nodup :=
      List.pairwise_map.mpr (hentries.imp fun hlt => UInt32.ne_of_lt hlt)
    exact List.inj_on_of_nodup_map hnumbers (hsorted.subset ha) hb (UInt32.le_antisymm hab hba)
  · refine (List.pairwise_mergeSort ?_ ?_ live).imp fun hle => of_decide_eq_true hle
    · intro a b c hab hbc
      exact decide_eq_true (UInt32.le_trans (of_decide_eq_true hab) (of_decide_eq_true hbc))
    · intro a b
      rw [Bool.or_eq_true, decide_eq_true_eq, decide_eq_true_eq]
      exact UInt32.le_total _ _

namespace Entries.Dense

theorem start : Dense F 0 fun _ => none where
  taken := fun _ hi => absurd hi (Nat.not_lt_zero _)
  free := fun _ _ => rfl

theorem entry (h : Dense F k es) {i : Fin n} {r : Registration} {t : Nat}
    (he : es i = some (r, t)) :
    i.val < k ∧ r.serverId = (F.member i).id.text ∧ r.number = UInt32.ofNat i.val := by
  have hi : i.val < k := by
    refine Nat.lt_of_not_le fun hle => ?_
    rw [h.free i hle] at he
    cases he
  rcases h.taken i hi with ⟨claimedAt, t', htaken⟩
  rw [he] at htaken
  cases htaken
  exact ⟨hi, rfl, rfl⟩

theorem apart (h : Dense F k es) (hn : n ≤ UniqueId.serverRange) : es.Apart := by
  intro i r t he j r' t' hj he' hnumber
  rw [(h.entry he).2.2, (h.entry he').2.2] at hnumber
  refine hj (Fin.ext ?_)
  rw [← toNat_place (Nat.lt_of_lt_of_le i.isLt hn), ← toNat_place (Nat.lt_of_lt_of_le j.isLt hn),
    hnumber]

theorem number_eq (h : Dense F k es) (hk : k < n) (hn : n ≤ UniqueId.serverRange) {number : UInt32}
    (hlowest : es.LowestFree number) : number = UInt32.ofNat k := by
  have hplace : forall {m : Nat}, m ≤ k -> (UInt32.ofNat m).toNat = m :=
    fun hm => toNat_place (Nat.lt_of_lt_of_le (Nat.lt_of_le_of_lt hm hk) hn)
  rw [← UInt32.toNat_inj, hplace (Nat.le_refl k)]
  refine Nat.le_antisymm (Nat.le_of_not_lt fun hlt => ?_) (Nat.le_of_not_lt fun hlt => ?_)
  · -- Below the number stands an entry for every place, also for the next one.
    rcases hlowest.below k hlt with ⟨i, r, t, he, hnumber⟩
    rcases h.entry he with ⟨hi, -, hr⟩
    rw [hr, hplace (Nat.le_of_lt hi)] at hnumber
    omega
  · -- A number below the next place is that of its member.
    have hhighest : number.toNat < Numbering.highest :=
      Nat.lt_trans (Nat.lt_trans hlt hk) (Nat.lt_of_le_of_lt hn (by decide))
    rcases h.taken ⟨number.toNat, Nat.lt_trans hlt hk⟩ hlt with ⟨claimedAt, t, he⟩
    exact hlowest.free hhighest _ _ _ he UInt32.ofNat_toNat

theorem claim (h : Dense F k es) (hk : k < n) (claimedAt : Instant) (t : Nat) :
    Dense F (k + 1) (Function.update es ⟨k, hk⟩
      (some (⟨(F.member ⟨k, hk⟩).id.text, UInt32.ofNat k, claimedAt⟩, t))) where
  taken := by
    intro i hi
    by_cases hik : i = ⟨k, hk⟩
    · rw [hik, Function.update_self]
      exact ⟨claimedAt, t, rfl⟩
    · rw [Function.update_of_ne hik]
      exact h.taken i (Nat.lt_of_le_of_ne (Nat.le_of_lt_succ hi) fun hval => hik (Fin.ext hval))
  free := by
    intro i hi
    rw [Function.update_of_ne fun hik => absurd hi (by rw [hik]; exact Nat.not_succ_le_self k)]
    exact h.free i (Nat.le_of_succ_le hi)

theorem sorted (h : Dense F n es) (hn : n ≤ UniqueId.serverRange) {live : List Registration}
    (hnodup : (live.map (·.serverId)).Nodup)
    (hlive : forall r, r ∈ live ↔ exists j e, es j = some e ∧ r = e.1.written) :
    exists times : Fin n → Instant,
      live.mergeSort (·.number ≤ ·.number) =
        (List.finRange n).map fun i => ⟨(F.member i).id.text, UInt32.ofNat i.val, times i⟩ := by
  choose claimedAt t hentry using fun i => h.taken i i.isLt
  let entry : Fin n → Registration :=
    fun i => ⟨(F.member i).id.text, UInt32.ofNat i.val, (claimedAt i).written⟩
  have hperm : live.Perm ((List.finRange n).map entry) := by
    have hinjective : Function.Injective entry :=
      fun i j hij => F.id_injective i j (congrArg Registration.serverId hij)
    rw [List.perm_ext_iff_of_nodup (List.Nodup.of_map _ hnodup)
      ((List.nodup_finRange n).map hinjective)]
    intro r
    rw [hlive r, List.mem_map]
    refine exists_congr fun i => ?_
    rw [hentry i]
    constructor
    · rintro ⟨_, heq, rfl⟩
      cases heq
      exact ⟨List.mem_finRange i, rfl⟩
    · rintro ⟨-, rfl⟩
      exact ⟨_, rfl, rfl⟩
  have hascending : ((List.finRange n).map entry).Pairwise fun a b => a.number < b.number := by
    refine List.pairwise_map.mpr ((List.pairwise_lt_finRange n).imp fun {i j} hij => ?_)
    rw [UInt32.lt_iff_toNat_lt, toNat_place (Nat.lt_of_lt_of_le i.isLt hn),
      toNat_place (Nat.lt_of_lt_of_le j.isLt hn)]
    exact hij
  exact ⟨fun i => (claimedAt i).written, mergeSort_by_number hperm hascending⟩

end Entries.Dense
end Roster
