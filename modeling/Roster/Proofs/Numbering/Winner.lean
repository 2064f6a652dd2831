import Mathlib.Data.List.Nodup
import Mathlib.Data.List.Perm.Basic
import Mathlib.Logic.ExistsUnique
import Roster.Proofs.Numbering

/-!
# The winner of a contested number

Each server judges its claim by itself, from a listing of its own.  The ranking puts all claims
of different servers in one order, so the judgements fit together: of the holders of a number
the first one stays, and every other one finds a claim before its own.

A verdict reads nothing of a listing but the claims of others to the number.  The order of the
listing, the entries with other numbers and the entry of the server itself do not matter.
-/

namespace Roster

/-!
# The order of claims
-/

instance : Std.TransOrd Instant :=
  inferInstanceAs (Std.TransCmp (compareLex (compareOn Instant.day)
    (compareLex (compareOn Instant.second) (compareOn Instant.nano))))

instance : Std.LawfulEqOrd Instant where
  eq_of_compare := by
    intro s t h
    change Ordering.then _ (Ordering.then _ _) = _ at h
    rw [Ordering.then_eq_eq, Ordering.then_eq_eq] at h
    rcases h with ⟨hday, hsecond, hnano⟩
    have hday := Std.LawfulEqOrd.eq_of_compare hday
    have hsecond := Std.LawfulEqOrd.eq_of_compare hsecond
    have hnano := Std.LawfulEqOrd.eq_of_compare hnano
    cases s
    cases t
    simp_all

namespace Registration

instance : Std.TransCmp compareRank :=
  inferInstanceAs (Std.TransCmp (compareLex (compareOn claimedAt) (compareOn serverId)))

theorem outranks_iff {a b : Registration} :
    a.outranks b = true ↔
      a.claimedAt < b.claimedAt ∨ a.claimedAt = b.claimedAt ∧ a.serverId < b.serverId := by
  unfold outranks compareRank
  rw [beq_iff_eq, Ordering.then_eq_lt, Std.LawfulEqOrd.compare_eq_iff_eq]
  have hid : compare a.serverId b.serverId = .lt ↔ a.serverId < b.serverId :=
    compareOfLessAndEq_eq_lt
  rw [hid]
  rfl

theorem outranks_trans {a b c : Registration} (hab : a.outranks b = true)
    (hbc : b.outranks c = true) : a.outranks c = true := by
  unfold outranks at hab hbc ⊢
  rw [beq_iff_eq] at hab hbc ⊢
  exact Std.TransCmp.lt_trans hab hbc

theorem outranks_or {a b : Registration} (h : a.serverId ≠ b.serverId) :
    a.outranks b = true ∨ b.outranks a = true := by
  unfold outranks
  rw [beq_iff_eq, beq_iff_eq, Numbering.compareRank_swap a b]
  cases hrank : a.compareRank b with
  | lt => exact Or.inl rfl
  | gt => exact Or.inr rfl
  | eq =>
      unfold compareRank at hrank
      rw [Ordering.then_eq_eq] at hrank
      exact absurd (Std.LawfulEqOrd.eq_of_compare hrank.2) h

end Registration

namespace Numbering

/-!
# What a verdict depends on
-/

theorem verdict_congr {claim : Registration} {entries entries' : List Registration}
    (h : forall e, e.number = claim.number -> e.serverId ≠ claim.serverId ->
      (e ∈ entries ↔ e ∈ entries')) :
    verdict claim entries = verdict claim entries' := by
  have hrivals : forall e, e ∈ rivals claim entries ↔ e ∈ rivals claim entries' := by
    intro e
    rw [mem_rivals, mem_rivals]
    constructor
    · intro ⟨he, hnumber, hserver⟩
      exact ⟨(h e hnumber hserver).mp he, hnumber, hserver⟩
    · intro ⟨he, hnumber, hserver⟩
      exact ⟨(h e hnumber hserver).mpr he, hnumber, hserver⟩
  have hall : (rivals claim entries).all claim.outranks =
      (rivals claim entries').all claim.outranks := by
    rw [Bool.eq_iff_iff, List.all_eq_true, List.all_eq_true]
    simp only [hrivals]
  have hnil : rivals claim entries = [] ↔ rivals claim entries' = [] := by
    rw [List.eq_nil_iff_forall_not_mem, List.eq_nil_iff_forall_not_mem]
    simp only [hrivals]
  unfold verdict
  cases hes : rivals claim entries with
  | nil => rw [hnil.mp hes]
  | cons e es =>
      cases hes' : rivals claim entries' with
      | nil =>
          rw [hnil.mpr hes'] at hes
          cases hes
      | cons e' es' =>
          rw [hes, hes'] at hall
          simp only [hall]

def holders (number : UInt32) (entries : List Registration) : List Registration :=
  entries.filter fun e => e.number = number

theorem mem_holders {number : UInt32} {entries : List Registration} {e : Registration} :
    e ∈ holders number entries ↔ e ∈ entries ∧ e.number = number := by
  unfold holders
  rw [List.mem_filter, decide_eq_true_iff]

theorem verdict_of_holders {claim : Registration} {entries entries' : List Registration}
    (h : holders claim.number entries = holders claim.number entries') :
    verdict claim entries = verdict claim entries' := by
  apply verdict_congr
  intro e hnumber _
  have hmem : e ∈ holders claim.number entries ↔ e ∈ holders claim.number entries' := by
    rw [h]
  rw [mem_holders, mem_holders] at hmem
  constructor
  · intro he
    exact (hmem.mp ⟨he, hnumber⟩).1
  · intro he
    exact (hmem.mpr ⟨he, hnumber⟩).1

theorem verdict_of_others (claim : Registration) (entries : List Registration) :
    verdict claim (entries.filter fun e => e.serverId ≠ claim.serverId) =
      verdict claim entries := by
  apply verdict_congr
  intro e _ hserver
  rw [List.mem_filter]
  constructor
  · intro he
    exact he.1
  · intro he
    exact ⟨he, by simpa using hserver⟩

/-!
# The first of the holders
-/

theorem exists_first {claims : List Registration} (hids : (claims.map (·.serverId)).Nodup)
    (hne : claims ≠ []) :
    exists first, first ∈ claims ∧
      forall e, e ∈ claims -> e ≠ first -> first.outranks e = true := by
  induction claims with
  | nil => exact absurd rfl hne
  | cons c rest ih =>
      rw [List.map_cons, List.nodup_cons] at hids
      rcases hids with ⟨hc, hrest⟩
      by_cases hnil : rest = []
      · refine ⟨c, List.mem_cons_self, ?_⟩
        intro e he hother
        rw [hnil, List.mem_singleton] at he
        exact absurd he hother
      · rcases ih hrest hnil with ⟨first, hfirst, hbefore⟩
        have hserver : c.serverId ≠ first.serverId := by
          intro heq
          exact hc (List.mem_map.mpr ⟨first, hfirst, heq.symm⟩)
        rcases Registration.outranks_or hserver with hahead | hbehind
        · -- The new claim is before the first one, hence before all that come after that.
          refine ⟨c, List.mem_cons_self, ?_⟩
          intro e he hother
          rcases List.mem_cons.mp he with heq | he
          · exact absurd heq hother
          · by_cases heq : e = first
            · rw [heq]
              exact hahead
            · exact Registration.outranks_trans hahead (hbefore e he heq)
        · refine ⟨first, List.mem_cons_of_mem c hfirst, ?_⟩
          intro e he hother
          rcases List.mem_cons.mp he with heq | he
          · rw [heq]
            exact hbehind
          · exact hbefore e he hother

/-- What a server sees that holds a number: the claims of the other holders, whatever else. -/
def Sees (entries : List Registration) (claim : Registration) (view : List Registration) : Prop :=
  forall e, e.number = claim.number -> e.serverId ≠ claim.serverId -> (e ∈ view ↔ e ∈ entries)

theorem verdict_of_sees {entries view : List Registration} {claim : Registration}
    (h : Sees entries claim view) : verdict claim view = verdict claim entries :=
  verdict_congr h

section Contest

variable {entries : List Registration} (hids : (entries.map (·.serverId)).Nodup)
include hids

theorem serverId_ne_of_ne {a b : Registration} (ha : a ∈ entries) (hb : b ∈ entries)
    (h : a ≠ b) : a.serverId ≠ b.serverId := by
  intro heq
  exact h (List.inj_on_of_nodup_map hids ha hb heq)

/-- A holder does not lose exactly when it is before all others. -/
theorem holder_wins_iff {number : UInt32} {claim : Registration}
    (hclaim : claim ∈ holders number entries) :
    verdict claim entries ≠ .lost ↔
      forall e, e ∈ holders number entries -> e ≠ claim -> claim.outranks e = true := by
  rcases mem_holders.mp hclaim with ⟨hmem, rfl⟩
  rw [verdict_ne_lost_iff]
  constructor
  · intro h e he hother
    rcases mem_holders.mp he with ⟨hentry, hnumber⟩
    exact h e hentry hnumber (serverId_ne_of_ne hids hentry hmem hother)
  · intro h e he hnumber hserver
    apply h e (mem_holders.mpr ⟨he, hnumber⟩)
    intro heq
    exact hserver (by rw [heq])

theorem holder_wins_unique {number : UInt32} {a b : Registration}
    (ha : a ∈ holders number entries) (hb : b ∈ holders number entries)
    (hwa : verdict a entries ≠ .lost) (hwb : verdict b entries ≠ .lost) : a = b := by
  by_contra hne
  have hab := (holder_wins_iff hids ha).mp hwa b hb (Ne.symm hne)
  have hba := (holder_wins_iff hids hb).mp hwb a ha hne
  rw [outranks_asymm hab] at hba
  cases hba

theorem verdict_of_wins {number : UInt32} {claim : Registration}
    (hclaim : claim ∈ holders number entries) (hwins : verdict claim entries ≠ .lost) :
    verdict claim entries =
      if holders number entries = [claim] then .unique else .wonTieBreak := by
  rcases mem_holders.mp hclaim with ⟨hmem, rfl⟩
  have hnodup : (holders claim.number entries).Nodup :=
    (List.Nodup.of_map _ hids).filter _
  have hsole : holders claim.number entries = [claim] ↔ rivals claim entries = [] := by
    constructor
    · intro h
      rw [List.eq_nil_iff_forall_not_mem]
      intro e he
      rcases mem_rivals.mp he with ⟨hentry, hnumber, hserver⟩
      have hin := mem_holders.mpr ⟨hentry, hnumber⟩
      rw [h, List.mem_singleton] at hin
      exact hserver (by rw [hin])
    · intro h
      rw [← List.perm_singleton, List.perm_ext_iff_of_nodup hnodup (List.nodup_singleton claim)]
      intro e
      rw [List.mem_singleton]
      constructor
      · intro he
        by_contra hother
        rcases mem_holders.mp he with ⟨hentry, hnumber⟩
        have hrival := mem_rivals.mpr
          ⟨hentry, hnumber, serverId_ne_of_ne hids hentry hmem hother⟩
        rw [h] at hrival
        cases hrival
      · intro heq
        rw [heq]
        exact hclaim
  unfold verdict at hwins ⊢
  cases hes : rivals claim entries with
  | nil =>
      rw [if_pos (hsole.mpr hes)]
  | cons e es =>
      rw [hes] at hwins hsole
      rw [if_neg (fun h => by cases hsole.mp h)]
      cases hall : (e :: es).all claim.outranks with
      | true => simp [hall]
      | false => simp [hall] at hwins

end Contest

/-- Every number that is held has one winner, and servers that see each other's claims agree who
it is. -/
theorem one_winner {entries : List Registration} (hids : (entries.map (·.serverId)).Nodup) :
    (forall number, holders number entries ≠ [] ->
      (∃! winner, winner ∈ holders number entries ∧ verdict winner entries ≠ .lost) ∧
      forall winner, winner ∈ holders number entries -> verdict winner entries ≠ .lost ->
        (forall e, e ∈ holders number entries -> e ≠ winner ->
          winner.claimedAt < e.claimedAt ∨
            winner.claimedAt = e.claimedAt ∧ winner.serverId < e.serverId) ∧
        verdict winner entries =
          (if holders number entries = [winner] then .unique else .wonTieBreak) ∧
        forall e view, e ∈ holders number entries -> Sees entries e view ->
          (verdict e view ≠ .lost ↔ e = winner)) ∧
    (forall claim entries', entries.Perm entries' ->
      verdict claim entries' = verdict claim entries) ∧
    (forall claim entries', holders claim.number entries' = holders claim.number entries ->
      verdict claim entries' = verdict claim entries) ∧
    forall claim, verdict claim (entries.filter fun e => e.serverId ≠ claim.serverId) =
      verdict claim entries := by
  refine ⟨?_, ?_, ?_, ?_⟩
  · intro number hheld
    have hholders : ((holders number entries).map (·.serverId)).Nodup :=
      hids.sublist (List.filter_sublist.map _)
    constructor
    · rcases exists_first hholders hheld with ⟨first, hfirst, hbefore⟩
      have hwins := (holder_wins_iff hids hfirst).mpr hbefore
      refine ⟨first, ⟨hfirst, hwins⟩, ?_⟩
      intro e ⟨he, hwe⟩
      exact holder_wins_unique hids he hfirst hwe hwins
    · intro winner hwinner hwins
      refine ⟨?_, verdict_of_wins hids hwinner hwins, ?_⟩
      · intro e he hother
        exact Registration.outranks_iff.mp ((holder_wins_iff hids hwinner).mp hwins e he hother)
      · intro e view he hview
        rw [verdict_of_sees hview]
        constructor
        · intro h
          exact holder_wins_unique hids he hwinner h hwins
        · intro h
          rw [h]
          exact hwins
  · intro claim entries' hperm
    apply verdict_congr
    intro e _ _
    exact hperm.mem_iff.symm
  · intro claim entries' h
    exact verdict_of_holders h
  · intro claim
    exact verdict_of_others claim entries

def simultaneous : List Registration :=
  [⟨"m", 4, Instant.epoch⟩, ⟨"z", 4, Instant.epoch⟩, ⟨"b", 1, Instant.epoch⟩]

theorem one_winner_of_simultaneous :
    (simultaneous.map (·.serverId)).Nodup ∧ holders 4 simultaneous ≠ [] ∧
    ∃! winner, winner ∈ holders 4 simultaneous ∧ verdict winner simultaneous ≠ .lost := by
  have hids : (simultaneous.map (·.serverId)).Nodup := by decide
  have hheld : holders 4 simultaneous ≠ [] := by decide
  exact ⟨hids, hheld, ((one_winner hids).1 4 hheld).1⟩

end Numbering
end Roster
