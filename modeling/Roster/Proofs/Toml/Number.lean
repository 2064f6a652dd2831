import Mathlib.Data.List.Basic
import Roster.Proofs.Text.Digits
import Roster.Toml.Number

/-!
# Numbers read back

The decimal digits of a number at the end of a line are no time and no float, and as an integer they
are the number.
-/

namespace Roster
namespace Toml

open Text

variable {ds rest : List Char}

theorem not_isDigit_feed : ¬isDigit '\n' = true := by
  decide

theorem line_ne (h : AllDigits ds) {c : Char} (hdigit : isDigit c = false) (hfeed : c ≠ '\n')
    (cs : List Char) : ds ++ '\n' :: rest ≠ c :: cs := by
  intro heq
  cases ds with
  | nil => exact hfeed (List.cons.inj heq).1.symm
  | cons d ds =>
      have hd := h d List.mem_cons_self
      rw [(List.cons.inj heq).1, hdigit] at hd
      cases hd

/-!
# Times
-/

theorem fixedDigits_line (h : AllDigits ds) {n lo hi v : Nat} {cs : List Char}
    (hread : fixedDigits n lo hi (ds ++ '\n' :: rest) = some (v, cs)) :
    exists left, AllDigits left ∧ cs = left ++ '\n' :: rest := by
  unfold fixedDigits at hread
  dsimp only at hread
  split_ifs at hread with hdigits hrange
  · cases hread
    rcases hdigits with ⟨hlength, hall⟩
    have hle : n ≤ ds.length := by
      by_contra hlt
      have hmem : '\n' ∈ (ds ++ '\n' :: rest).take n := by
        rw [List.take_append, List.mem_append, List.take_of_length_le (by omega : ds.length ≤ n)]
        apply Or.inr
        rcases hk : n - ds.length with _ | k
        · omega
        · exact List.mem_cons_self
      exact not_isDigit_feed (List.all_eq_true.mp hall _ hmem)
    refine ⟨ds.drop n, fun c hc => h c (List.mem_of_mem_drop hc), ?_⟩
    rw [List.drop_append_of_le_length hle]

theorem mark?_line (h : AllDigits ds) {c : Char} (hdigit : isDigit c = false) (hfeed : c ≠ '\n') :
    mark? c (ds ++ '\n' :: rest) = none := by
  unfold mark?
  split
  · rename_i d cs heq
    apply if_neg
    rintro rfl
    exact line_ne h hdigit hfeed cs heq
  · rfl

theorem date?_line (h : AllDigits ds) : date? (ds ++ '\n' :: rest) = none := by
  unfold date?
  cases hread : fixedDigits 4 0 9999 (ds ++ '\n' :: rest) with
  | none => rfl
  | some read =>
      rcases read with ⟨year, cs⟩
      rcases fixedDigits_line h hread with ⟨left, hleft, rfl⟩
      simp [mark?_line hleft (c := '-') rfl (by decide)]

theorem time?_line (h : AllDigits ds) : time? (ds ++ '\n' :: rest) = none := by
  unfold time?
  cases hread : fixedDigits 2 0 23 (ds ++ '\n' :: rest) with
  | none => rfl
  | some read =>
      rcases read with ⟨hour, cs⟩
      rcases fixedDigits_line h hread with ⟨left, hleft, rfl⟩
      simp [mark?_line hleft (c := ':') rfl (by decide)]

theorem moment?_line (h : AllDigits ds) : moment? (ds ++ '\n' :: rest) = none := by
  unfold moment?
  rw [date?_line h]
  exact time?_line h

/-!
# Digits of a number
-/

theorem sign_line (h : AllDigits ds) : sign (ds ++ '\n' :: rest) = (false, ds ++ '\n' :: rest) := by
  unfold sign
  split
  · exact absurd ‹_› (line_ne h rfl (by decide) _)
  · exact absurd ‹_› (line_ne h rfl (by decide) _)
  · rfl

theorem moreDigits_line (h : AllDigits ds) :
    moreDigits isDigit (ds ++ '\n' :: rest) = (ds, '\n' :: rest) := by
  induction ds with
  | nil =>
      rw [List.nil_append, moreDigits.eq_def]
      rfl
  | cons c ds ih =>
      rcases List.forall_mem_cons.mp h with ⟨hc, hds⟩
      have hne : c ≠ '_' := by
        rintro rfl
        exact absurd hc (by decide)
      rw [List.cons_append, moreDigits.eq_def]
      simp [hne, hc, ih hds]

theorem decimalRun_decimal (n : Nat) :
    decimalRun (decimal n ++ '\n' :: rest) = some (decimal n, '\n' :: rest) := by
  have hdigits := allDigits_decimal n
  cases hn : decimal n with
  | nil => exact absurd hn (decimal_ne_nil n)
  | cons c ds =>
      rw [hn] at hdigits
      rcases List.forall_mem_cons.mp hdigits with ⟨hc, hds⟩
      rw [List.cons_append, decimalRun]
      by_cases hzero : c = '0'
      · rw [hzero] at hn
        rw [if_pos hzero, decimal_zero hn]
        rfl
      · rw [if_neg hzero, digitRun, if_pos hc, moreDigits_line hds]

/-!
# Floats
-/

theorem decimalFloat?_line (n : Nat) : decimalFloat? (decimal n ++ '\n' :: rest) = none := by
  unfold decimalFloat?
  rw [sign_line (allDigits_decimal n)]
  simp [decimalRun_decimal, fractionPart, exponentPart]

theorem specialFloat?_line (h : AllDigits ds) : specialFloat? (ds ++ '\n' :: rest) = none := by
  unfold specialFloat?
  rw [sign_line h]
  split
  · exact absurd ‹_› (line_ne h rfl (by decide) _)
  · exact absurd ‹_› (line_ne h rfl (by decide) _)
  · rfl

theorem float?_line (n : Nat) : float? (decimal n ++ '\n' :: rest) = none := by
  unfold float?
  rw [decimalFloat?_line, specialFloat?_line (allDigits_decimal n)]
  rfl

/-!
# Integers
-/

theorem hexValue?_of_isDigit {c : Char} (h : isDigit c = true) :
    Bytes.hexValue? c = some (digitValue c) := by
  unfold isDigit at h
  rw [Bool.and_eq_true, decide_eq_true_iff, decide_eq_true_iff] at h
  exact if_pos h

theorem ofDigits_eq_value (h : AllDigits ds) : ofDigits 10 ds = value ds := by
  unfold ofDigits value
  apply List.foldl_ext
  intro n c hc
  rw [hexValue?_of_isDigit (h c hc)]
  rfl

theorem integer_line {n : Nat} (h : (n : Int) ≤ maxInteger) :
    integer (decimal n ++ '\n' :: rest) = some ((n : Int), '\n' :: rest) := by
  -- After a leading zero the line ends, so no letter follows that marks another base.
  have hmark (c : Char) (hc : c ≠ '\n') (cs : List Char) :
      decimal n ++ '\n' :: rest ≠ '0' :: c :: cs := by
    intro heq
    cases hn : decimal n with
    | nil => exact decimal_ne_nil n hn
    | cons d ds =>
        rw [hn] at heq
        rcases List.cons.inj heq with ⟨rfl, htail⟩
        rw [decimal_zero hn] at htail
        exact hc (List.cons.inj htail).1.symm
  have hvalue : (ofDigits 10 (decimal n) : Int) = n := by
    rw [ofDigits_eq_value (allDigits_decimal n), value_decimal]
  have hmin : minInteger ≤ (n : Int) := by
    unfold minInteger
    omega
  unfold integer
  split
  · exact absurd ‹_› (hmark _ (by decide) _)
  · exact absurd ‹_› (hmark _ (by decide) _)
  · exact absurd ‹_› (hmark _ (by decide) _)
  · rw [sign_line (allDigits_decimal n)]
    simp [decimalRun_decimal, hvalue, bounded, h, hmin]

end Toml
end Roster
