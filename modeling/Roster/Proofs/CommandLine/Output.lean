import Mathlib.Data.List.Basic
import Roster.CommandLine.Execute
import Roster.Proofs.Time.Timestamp

/-!
# Printed listings

A text in which nothing needs an escape is printed between quotes as it is.  The texts of instants
are such texts, so that an entry of a server with a plain id takes five lines that can be told in
advance.
-/

namespace Roster

/-!
# Plain characters
-/

namespace Timestamp
open Text

def IsMark (c : Char) : Prop :=
  isDigit c = true ∨ c ∈ "+-:.TZ".toList

theorem marks_of_allDigits {cs : List Char} (h : AllDigits cs) : forall c, c ∈ cs -> IsMark c :=
  fun c hc => Or.inl (h c hc)

theorem marks_fractionText (nano : Nat) : forall c, c ∈ fractionText nano -> IsMark c := by
  have hpoint : IsMark '.' := Or.inr (by decide)
  have hdigits (w n : Nat) := marks_of_allDigits (allDigits_lowDigits w n)
  unfold fractionText
  split
  · exact fun c hc => absurd hc List.not_mem_nil
  · split
    · exact List.forall_mem_cons.mpr ⟨hpoint, hdigits _ _⟩
    · split
      · exact List.forall_mem_cons.mpr ⟨hpoint, hdigits _ _⟩
      · exact List.forall_mem_cons.mpr ⟨hpoint, hdigits _ _⟩

theorem marks_dateText (day : Int) : forall c, c ∈ dateText day -> IsMark c := by
  have hdash : IsMark '-' := Or.inr (by decide)
  have hdigits (w n : Nat) := marks_of_allDigits (allDigits_padded w n)
  have hyear (year : Int) : forall c, c ∈ yearText year -> IsMark c := by
    unfold yearText
    split
    · exact hdigits _ _
    · refine List.forall_mem_cons.mpr ⟨?_, hdigits _ _⟩
      split
      · exact hdash
      · exact Or.inr (by decide)
  exact List.forall_mem_append.mpr ⟨hyear _, List.forall_mem_cons.mpr ⟨hdash,
    List.forall_mem_append.mpr ⟨hdigits _ _, List.forall_mem_cons.mpr ⟨hdash, hdigits _ _⟩⟩⟩⟩

theorem marks_write (t : Instant) : forall c, c ∈ write t -> IsMark c := by
  have hcolon : IsMark ':' := Or.inr (by decide)
  have hdigits (w n : Nat) := marks_of_allDigits (allDigits_padded w n)
  have htime : forall c, c ∈ timeText t.second t.nano -> IsMark c :=
    List.forall_mem_append.mpr ⟨hdigits _ _, List.forall_mem_cons.mpr ⟨hcolon,
      List.forall_mem_append.mpr ⟨hdigits _ _, List.forall_mem_cons.mpr ⟨hcolon,
        List.forall_mem_append.mpr ⟨hdigits _ _, marks_fractionText _⟩⟩⟩⟩⟩
  have hbody : forall c, c ∈ body t -> IsMark c :=
    List.forall_mem_append.mpr ⟨marks_dateText _,
      List.forall_mem_cons.mpr ⟨Or.inr (by decide), htime⟩⟩
  exact List.forall_mem_append.mpr ⟨hbody,
    List.forall_mem_cons.mpr ⟨Or.inr (by decide), fun c hc => absurd hc List.not_mem_nil⟩⟩

end Timestamp

namespace CommandLine
namespace Output

def Plain (cs : List Char) : Prop :=
  forall c, c ∈ cs -> jsonChar c = [c]

theorem Plain.append {cs cs' : List Char} (h : Plain cs) (h' : Plain cs') : Plain (cs ++ cs') :=
  List.forall_mem_append.mpr ⟨h, h'⟩

theorem plain_of_all {cs : List Char} (h : cs.all (fun c => jsonChar c == [c]) = true) : Plain cs :=
  fun c hc => beq_iff_eq.mp (List.all_eq_true.mp h c hc)

theorem jsonChar_of_isDigit {c : Char} (h : Text.isDigit c = true) : jsonChar c = [c] := by
  have hne (d : Char) (hd : Text.isDigit d = false) : c ≠ d := by
    rintro rfl
    rw [hd] at h
    cases h
  have hlarge : ¬ c.toNat < 0x20 := by
    have hle : '0' ≤ c := of_decide_eq_true (Bool.and_eq_true_iff.mp h).1
    exact Nat.not_lt_of_le (Nat.le_trans (by decide) (Char.le_def.mp hle))
  unfold jsonChar
  rw [if_neg (hne _ rfl), if_neg (hne _ rfl), if_neg (hne _ rfl), if_neg (hne _ rfl),
    if_neg (hne _ rfl), if_neg (hne _ rfl), if_neg (hne _ rfl), if_neg hlarge]

theorem plain_write (t : Instant) : Plain (Timestamp.write t) := by
  intro c hc
  rcases Timestamp.marks_write t c hc with hdigit | hmark
  · exact jsonChar_of_isDigit hdigit
  · have hmarks : Plain "+-:.TZ".toList := plain_of_all rfl
    exact hmarks c hmark

theorem jsonText_of_plain {s : String} (h : Plain s.toList) : jsonText s = "\"" ++ s ++ "\"" := by
  have hkept : s.toList.flatMap jsonChar = s.toList := by
    rw [List.flatMap_congr h, List.flatMap_singleton']
  unfold jsonText
  rw [hkept, ← String.toList_inj]
  simp only [String.toList_ofList, String.toList_append]
  rfl

/-!
# Entries
-/

/-- Only the last entry of a listing has no comma after it. -/
theorem entriesLines_places (time : Instant → String) (entry : Nat → Registration) (m k : Nat) :
    entriesLines time ((List.range' k m).map entry) =
      (List.range' k m).flatMap fun i => entryLines time (entry i) (i + 1 < k + m) := by
  induction m generalizing k with
  | zero => rfl
  | succ m ih =>
      rw [List.range'_succ, List.map_cons, List.flatMap_cons]
      cases m with
      | zero =>
          rw [decide_eq_false (Nat.lt_irrefl _)]
          rfl
      | succ m =>
          have hrest := ih (k + 1)
          rw [Nat.add_right_comm, Nat.add_assoc k] at hrest
          rw [← hrest, decide_eq_true (by omega), List.range'_succ, List.map_cons]
          rfl

theorem listingLines_of_ne_nil (time : Instant → String) {entries : List Registration}
    (h : entries ≠ []) : listingLines time entries = "[" :: (entriesLines time entries ++ ["]"]) := by
  cases entries with
  | nil => exact absurd rfl h
  | cons entry rest => rfl

end Output
end CommandLine
end Roster
