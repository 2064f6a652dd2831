import Mathlib.Algebra.Group.Nat.Defs
import Mathlib.Data.Nat.Basic
import Roster.Text.Blank
import Roster.Text.Digits

/-!
# Reading digits back

Padded and plain decimal digits stand for the number they were written for, and a reader that
splits off leading digits finds where they end.
-/

namespace Roster
namespace Text

/-!
# Lists of digits
-/

def AllDigits (cs : List Char) : Prop :=
  forall c, c ∈ cs -> isDigit c = true

theorem isDigit_eq (c : Char) : isDigit c = c.isDigit := by
  unfold isDigit Char.isDigit
  rfl

theorem isDigit_digit (n : Nat) : isDigit (digit n) = true := by
  have hlt : n % 10 < 10 := Nat.mod_lt _ (by decide)
  unfold digit
  generalize n % 10 = k at hlt
  revert k
  decide

theorem digitValue_digit (n : Nat) : digitValue (digit n) = n % 10 := by
  have hlt : n % 10 < 10 := Nat.mod_lt _ (by decide)
  unfold digit
  generalize n % 10 = k at hlt
  revert k
  decide

theorem allDigits_lowDigits (w n : Nat) : AllDigits (lowDigits w n) := by
  induction w generalizing n with
  | zero =>
      intro c hc
      cases hc
  | succ w ih =>
      intro c hc
      rcases List.mem_append.mp hc with hlow | hlast
      · exact ih _ c hlow
      · rw [List.mem_singleton.mp hlast]
        exact isDigit_digit n

theorem decimal_eq (n : Nat) : decimal n = Nat.toDigits 10 n := by
  rw [decimal, Nat.toString_eq_repr, Nat.toList_repr]

theorem allDigits_decimal (n : Nat) : AllDigits (decimal n) := by
  intro c hc
  rw [isDigit_eq]
  refine Nat.isDigit_of_mem_toDigits (b := 10) (n := n) (by decide) (by decide) ?_
  rwa [decimal_eq] at hc

theorem allDigits_padded (w n : Nat) : AllDigits (padded w n) := by
  unfold padded
  split
  · exact allDigits_lowDigits w n
  · exact allDigits_decimal n

/-!
# Values

Both ways of writing a number are read back by its value.
-/

theorem value_append_singleton (ds : List Char) (c : Char) :
    value (ds ++ [c]) = 10 * value ds + digitValue c := by
  simp [value]

theorem value_lowDigits (w n : Nat) : value (lowDigits w n) = n % 10 ^ w := by
  induction w generalizing n with
  | zero => simp [lowDigits, value, Nat.mod_one]
  | succ w ih =>
      rw [lowDigits, value_append_singleton, ih, digitValue_digit, Nat.pow_succ,
        Nat.mul_comm (10 ^ w) 10, Nat.mod_mul]
      omega

theorem value_decimal (n : Nat) : value (decimal n) = n := by
  have h := Nat.ofDigitChars_ten_toDigits (n := n)
  rw [Nat.ofDigitChars_eq_foldl] at h
  rw [decimal_eq]
  exact h

theorem decimal_injective {m n : Nat} (h : decimal m = decimal n) : m = n := by
  rw [← value_decimal m, ← value_decimal n, h]

theorem decimal_ne_nil (n : Nat) : decimal n ≠ [] := by
  rw [decimal_eq]
  exact Nat.toDigits_ne_nil

theorem decimal_zero {n : Nat} {ds : List Char} (h : decimal n = '0' :: ds) : ds = [] := by
  induction n using Nat.strongRecOn generalizing ds with
  | ind n ih =>
      rw [decimal_eq] at h
      by_cases hn : n < 10
      · rw [Nat.toDigits_of_lt_base hn] at h
        exact (List.cons.inj h).2.symm
      · rw [Nat.toDigits_of_base_le (by decide) (by omega), ← decimal_eq] at h
        cases hfront : decimal (n / 10) with
        | nil => exact absurd hfront (decimal_ne_nil _)
        | cons c front =>
            -- The digits before the last would write zero, but they write n / 10.
            rw [hfront, List.cons_append] at h
            rw [(List.cons.inj h).1] at hfront
            rw [ih (n / 10) (by omega) hfront] at hfront
            have hvalue := value_decimal (n / 10)
            rw [hfront] at hvalue
            have hzero : value ['0'] = 0 := rfl
            omega

theorem value_padded (w n : Nat) : value (padded w n) = n := by
  unfold padded
  split
  · rename_i hlt
    exact (value_lowDigits w n).trans (Nat.mod_eq_of_lt hlt)
  · exact value_decimal n

theorem length_padded_of_lt {w n : Nat} (h : n < 10 ^ w) : (padded w n).length = w := by
  have hpadded : padded w n = lowDigits w n := if_pos h
  rw [hpadded, length_lowDigits]

theorem length_padded_le {w k n : Nat} (hk : 0 < k) (hw : w ≤ k) (hn : n < 10 ^ k) :
    (padded w n).length ≤ k := by
  unfold padded
  split
  · rw [length_lowDigits]
    exact hw
  · rw [decimal_eq]
    exact (Nat.length_toDigits_le_iff (by decide) hk).mpr hn

theorem padded_ne_nil {w : Nat} (hw : 0 < w) (n : Nat) : padded w n ≠ [] := by
  unfold padded
  split
  · intro h
    have hlen := length_lowDigits w n
    rw [h] at hlen
    simp at hlen
    omega
  · exact decimal_ne_nil n

/-!
# Leading digits

Digits at the front are split off whole where the limit is their number, and where the limit is
not below it and something else follows them.
-/

theorem leadingDigits_append (limit : Option Nat) {ds rest : List Char} (h : AllDigits ds)
    (hlen : forall k, limit = some k -> ds.length ≤ k)
    (hend : limit = some ds.length ∨ forall c, rest.head? = some c -> isDigit c = false) :
    leadingDigits limit (ds ++ rest) = (ds, rest) := by
  induction ds generalizing limit with
  | nil =>
      rcases hend with hlimit | hrest
      · rw [hlimit]
        simp [leadingDigits]
      · cases rest with
        | nil =>
            rcases limit with _ | _ | k <;> simp [leadingDigits]
        | cons c rest =>
            rcases limit with _ | _ | k <;> simp [leadingDigits, hrest c rfl]
  | cons c ds ih =>
      have hc : isDigit c = true := h c List.mem_cons_self
      have hds : AllDigits ds := fun d hd => h d (List.mem_cons_of_mem c hd)
      cases limit with
      | none =>
          have hrest := ih none hds (fun k hk => by cases hk) (by simpa using hend)
          simp [leadingDigits, hc, hrest]
      | some k =>
          cases k with
          | zero =>
              have hzero := hlen 0 rfl
              simp at hzero
          | succ k =>
              have hlen' : ds.length ≤ k := by simpa using hlen (k + 1) rfl
              have hrest := ih (some k) hds (fun n hn => by cases hn; exact hlen')
                (by simpa using hend)
              simp [leadingDigits, hc, hrest]

theorem leadingDigits_reverse {c : Char} (hc : isDigit c = false) (front : List Char) (n : Nat) :
    leadingDigits none (front ++ c :: decimal n).reverse =
      ((decimal n).reverse, c :: front.reverse) := by
  have hdigits : AllDigits (decimal n).reverse :=
    fun d hd => allDigits_decimal n d (List.mem_reverse.mp hd)
  rw [List.reverse_append, List.reverse_cons, List.append_assoc, List.singleton_append]
  refine leadingDigits_append none hdigits (fun k hk => nomatch hk) (Or.inr fun d hd => ?_)
  cases hd
  exact hc

/-- Texts that end in different numbers are different, whatever stands before the numbers. -/
theorem eq_of_append_decimal {c : Char} (hc : isDigit c = false) {front front' : List Char}
    {m n : Nat} (h : front ++ c :: decimal m = front' ++ c :: decimal n) : m = n := by
  have hread := leadingDigits_reverse hc front m
  rw [h, leadingDigits_reverse hc front' n] at hread
  exact (decimal_injective (List.reverse_inj.mp (Prod.mk.inj hread).1)).symm

/-!
# Digits and blanks
-/

theorem isBlank_of_isDigit {c : Char} (h : isDigit c = true) : isBlank c = false := by
  have hrange : 48 ≤ c.toNat ∧ c.toNat ≤ 57 := by
    simp only [isDigit, Bool.and_eq_true, decide_eq_true_eq] at h
    exact h
  unfold isBlank
  simp
  omega

theorem trimStart_append_of_allDigits {ds : List Char} (h : AllDigits ds) (hne : ds ≠ [])
    (rest : List Char) : trimStart (ds ++ rest) = ds ++ rest := by
  cases ds with
  | nil => exact absurd rfl hne
  | cons c ds =>
      have hc := isBlank_of_isDigit (h c List.mem_cons_self)
      simp [trimStart, hc]

end Text
end Roster
