import Mathlib.Tactic.Common
import Roster.Toml.Quoted

/-!
# Quoted texts read back

Whatever form a text is written in, a reader takes it back and stops behind its closing quotes, as
long as no further quote follows.
-/

namespace Roster
namespace Toml
namespace Quoted

/-!
# Characters
-/

theorem isPlain_of_not_needsEscape {c : Char} (h : needsEscape c = false) (hfeed : c ≠ '\n') :
    isPlain c = true := by
  unfold needsEscape at h
  unfold isPlain
  rcases Bool.or_eq_false_iff.mp h with ⟨hcontrol, hdelete⟩
  by_cases htab : c = '\t'
  · simp [htab]
  · have hrange : ¬c.toNat < 0x20 := by
      intro hlt
      simp [hlt, htab, hfeed] at hcontrol
    have hplain : 0x20 ≤ c.toNat := by omega
    simp only [beq_eq_false_iff_ne] at hdelete
    simp [hplain, hdelete]

theorem lt_of_needsEscape {c : Char} (h : needsEscape c = true) : c.toNat < 128 := by
  unfold needsEscape at h
  simp only [Bool.or_eq_true, Bool.and_eq_true, decide_eq_true_iff, beq_iff_eq] at h
  omega

inductive Spelled (c : Char) : List Char → Prop where
  | itself (hquote : c ≠ '"') (hbackslash : c ≠ '\\') (hplain : isPlain c = true) : Spelled c [c]
  | short {e : Char} (h : escape? e = some c) : Spelled c ['\\', e]
  | hex {h1 h2 h3 h4 : Char} {n : Nat} (hn : hexNumber? [h1, h2, h3, h4] = some n)
      (hc : scalar? n = some c) : Spelled c ['\\', 'u', h1, h2, h3, h4]

theorem scalar?_toNat (c : Char) : scalar? c.toNat = some c := by
  have hvalid : c.toNat.isValidChar := c.valid
  unfold scalar?
  rw [dif_pos hvalid]
  rfl

theorem hexNumber?_hexUpper {n : Nat} (h : n < 128) :
    hexNumber? ['0', '0', hexUpper (n / 16), hexUpper (n % 16)] = some n := by
  revert n
  decide

theorem spelled_escaped {c : Char} (hquote : c ≠ '"') (hfeed : c ≠ '\n') : Spelled c (escaped c) := by
  unfold escaped
  split_ifs with hb ht hf hr hbackslash hcontrol
  · rw [hb]
    exact .short rfl
  · rw [ht]
    exact .short rfl
  · rw [hf]
    exact .short rfl
  · rw [hr]
    exact .short rfl
  · rw [hbackslash]
    exact .short rfl
  · exact .hex (hexNumber?_hexUpper (lt_of_needsEscape hcontrol)) (scalar?_toNat c)
  · rw [Bool.not_eq_true] at hcontrol
    exact .itself hquote hbackslash (isPlain_of_not_needsEscape hcontrol hfeed)

theorem spelled_basicChar (c : Char) : Spelled c (basicChar c) := by
  unfold basicChar
  split_ifs with hfeed hquote
  · rw [hfeed]
    exact .short rfl
  · rw [hquote]
    exact .short rfl
  · exact spelled_escaped hquote hfeed

theorem escape?_ne {e c : Char} (h : escape? e = some c) : e ≠ 'u' ∧ e ≠ 'U' := by
  constructor
  · rintro rfl
    cases h
  · rintro rfl
    cases h

theorem swallow?_of_escape? {e c : Char} (h : escape? e = some c) :
    Joint.before.swallow? e = none := by
  have hfeed : e ≠ '\n' := by
    rintro rfl
    cases h
  have hspace : ¬isSpace e = true := by
    unfold isSpace
    rw [Bool.or_eq_true, beq_iff_eq, beq_iff_eq]
    rintro (rfl | rfl)
    · cases h
    · cases h
  unfold Joint.swallow?
  rw [if_neg hfeed, if_neg hspace]

/-!
# Between single marks
-/

theorem basicBody_spelled {c : Char} {cs : List Char} (h : Spelled c cs) (rest : List Char) :
    basicBody (cs ++ rest) = (basicBody rest).map fun (text, r) => (c :: text, r) := by
  cases h with
  | itself hquote hbackslash hplain =>
      rw [List.singleton_append, basicBody.eq_def]
      simp only [if_neg hquote, if_neg hbackslash, if_pos hplain]
  | @short e he =>
      rcases escape?_ne he with ⟨hu, hU⟩
      change basicBody ('\\' :: e :: rest) = _
      rw [basicBody.eq_def]
      simp [hu, hU, he]
  | hex hn hc =>
      change basicBody ('\\' :: 'u' :: _ :: _ :: _ :: _ :: rest) = _
      rw [basicBody.eq_def]
      simp [hn, hc]

theorem basicBody_flatMap (text tail : List Char) :
    basicBody (text.flatMap basicChar ++ '"' :: tail) = some (text, tail) := by
  induction text with
  | nil =>
      rw [List.flatMap_nil, List.nil_append, basicBody.eq_def]
      exact if_pos rfl
  | cons c text ih =>
      rw [List.flatMap_cons, List.append_assoc, basicBody_spelled (spelled_basicChar c), ih]
      rfl

theorem literalBody_append {text : List Char} (hplain : forall c, c ∈ text -> isPlain c = true)
    (hquote : '\'' ∉ text) (tail : List Char) :
    literalBody (text ++ '\'' :: tail) = some (text, tail) := by
  induction text with
  | nil => rfl
  | cons c text ih =>
      rw [List.mem_cons, not_or] at hquote
      rcases List.forall_mem_cons.mp hplain with ⟨hc, htext⟩
      rw [List.cons_append, literalBody, if_pos hc, ih htext hquote.2]
      · rfl
      · exact fun heq => hquote.1 heq.symm

/-!
# Between triple marks
-/

@[simp] theorem swallow?_outside (c : Char) : Joint.outside.swallow? c = none := rfl

theorem multilineBasicBody_spelled {c : Char} {cs : List Char} (h : Spelled c cs)
    (rest : List Char) :
    multilineBasicBody .outside (cs ++ rest) =
      (multilineBasicBody .outside rest).map fun (text, r) => (c :: text, r) := by
  cases h with
  | itself hquote hbackslash hplain =>
      rw [List.singleton_append, multilineBasicBody.eq_def]
      simp [hquote, hbackslash, hplain]
  | @short e he =>
      rcases escape?_ne he with ⟨hu, hU⟩
      change multilineBasicBody .outside ('\\' :: e :: rest) = _
      rw [multilineBasicBody.eq_def]
      simp [hu, hU, he, swallow?_of_escape? he]
  | hex hn hc =>
      change multilineBasicBody .outside ('\\' :: 'u' :: _ :: _ :: _ :: _ :: rest) = _
      rw [multilineBasicBody.eq_def]
      simp [hn, hc]

theorem multilineBasicBody_feed (rest : List Char) :
    multilineBasicBody .outside ('\n' :: rest) =
      (multilineBasicBody .outside rest).map fun (text, r) => ('\n' :: text, r) := by
  rw [multilineBasicBody.eq_def]
  simp

/-- A mark that no two others follow belongs to the text. -/
theorem multilineBasicBody_mark {rest : List Char} (h : forall r, rest ≠ '"' :: '"' :: r) :
    multilineBasicBody .outside ('"' :: rest) =
      (multilineBasicBody .outside rest).map fun (text, r) => ('"' :: text, r) := by
  rw [multilineBasicBody.eq_def]
  simp only [swallow?_outside, reduceCtorEq, if_false, if_true]
  split
  · exact absurd rfl (h _)
  · exact absurd rfl (h _)
  · exact absurd rfl (h _)
  · rfl

variable {tail : List Char}

theorem multilineBasicBody_close {k : Nat} (hk : k ≤ 2) (htail : tail.head? ≠ some '"') :
    multilineBasicBody .outside (List.replicate (k + 3) '"' ++ tail) =
      some (List.replicate k '"', tail) := by
  have hnext (r : List Char) : tail ≠ '"' :: r := by
    rintro rfl
    exact htail rfl
  rw [multilineBasicBody.eq_def]
  rcases k with _ | _ | _ | k
  · simp [List.replicate, hnext]
  · simp [List.replicate]
  · simp [List.replicate]
  · omega

theorem Spelled.head {c : Char} {cs : List Char} (h : Spelled c cs) :
    exists x more, cs = x :: more ∧ (x = '\\' ∨ x = c ∧ c ≠ '"') := by
  cases h with
  | itself hquote _ _ => exact ⟨c, [], rfl, Or.inr ⟨rfl, hquote⟩⟩
  | short _ => exact ⟨'\\', _, rfl, Or.inl rfl⟩
  | hex _ _ => exact ⟨'\\', _, rfl, Or.inl rfl⟩

/-- What is written for a character does not begin with a mark, unless it is one and two marks have
not been written yet. -/
theorem head_multilineBasicText {c : Char} {run : Nat} (h : c ≠ '"' ∨ run = 2) (text : List Char) :
    exists x more, multilineBasicText run (c :: text) = x :: more ∧ x ≠ '"' := by
  rw [multilineBasicText]
  by_cases hmark : c = '"'
  · rcases h with hne | hrun
    · exact absurd hmark hne
    · rw [if_pos hmark, if_pos hrun]
      exact ⟨_, _, rfl, by decide⟩
  · rw [if_neg hmark]
    by_cases hfeed : c = '\n'
    · rw [if_pos hfeed]
      exact ⟨_, _, rfl, by decide⟩
    · rw [if_neg hfeed]
      rcases (spelled_escaped hmark hfeed).head with ⟨x, more, hx, hne⟩
      rw [hx]
      refine ⟨x, _, rfl, ?_⟩
      rcases hne with rfl | ⟨rfl, hne⟩
      · decide
      · exact hne

theorem multilineBasicText_ne {run : Nat} (hpos : 0 < run) (hrun : run ≤ 2) {text : List Char}
    (hnil : text ≠ []) (hlast : ¬(run = 1 ∧ text = ['"'])) (more r : List Char) :
    multilineBasicText run text ++ more ≠ '"' :: '"' :: r := by
  cases text with
  | nil => exact absurd rfl hnil
  | cons c text =>
      by_cases hfirst : c ≠ '"' ∨ run = 2
      · rcases head_multilineBasicText hfirst text with ⟨x, _, hx, hne⟩
        rw [hx]
        exact fun heq => hne (List.cons.inj heq).1
      · rw [not_or, not_not] at hfirst
        rcases hfirst with ⟨rfl, htwo⟩
        have hone : run = 1 := by omega
        cases text with
        | nil => exact absurd ⟨hone, rfl⟩ hlast
        | cons d text =>
            have htwo : d ≠ '"' ∨ run + 1 = 2 := Or.inr (by omega)
            rcases head_multilineBasicText htwo text with ⟨x, _, hx, hne⟩
            rw [multilineBasicText, if_pos rfl, if_neg (by omega), hx]
            exact fun heq => hne (List.cons.inj (List.cons.inj heq).2).1

theorem multilineBasicText_ne_feed {text : List Char} (h : '\n' ∉ text) {more : List Char}
    (hmore : more.head? ≠ some '\n') : (multilineBasicText 0 text ++ more).head? ≠ some '\n' := by
  cases text with
  | nil => exact hmore
  | cons c text =>
      rw [List.mem_cons, not_or] at h
      rw [multilineBasicText]
      by_cases hmark : c = '"'
      · rw [if_pos hmark, if_neg (by decide)]
        exact fun heq => nomatch heq
      · have hfeed : c ≠ '\n' := Ne.symm h.1
        rcases (spelled_escaped hmark hfeed).head with ⟨x, _, hx, hne⟩
        rw [if_neg hmark, if_neg hfeed, hx]
        intro heq
        cases heq
        rcases hne with hbackslash | ⟨heq, _⟩
        · exact absurd hbackslash (by decide)
        · exact hfeed heq.symm

theorem multilineBasicBody_text (htail : tail.head? ≠ some '"') {run : Nat} (hrun : run ≤ 2)
    (text : List Char) :
    multilineBasicBody .outside (multilineBasicText run text ++ '"' :: '"' :: '"' :: tail) =
      some (text, tail) := by
  -- By induction on the text, with the marks right before it counted: the reader looks ahead for two
  -- more marks, and the writer never lets them follow inside the text.
  induction text generalizing run with
  | nil => exact multilineBasicBody_close (Nat.zero_le 2) htail
  | cons c text ih =>
      rw [multilineBasicText]
      by_cases hmark : c = '"'
      · subst hmark
        rw [if_pos rfl]
        by_cases htwo : run = 2
        · rw [if_pos htwo]
          change multilineBasicBody .outside (['\\', '"'] ++ (multilineBasicText 0 text ++ _)) = _
          rw [multilineBasicBody_spelled (.short rfl), ih (Nat.zero_le 2)]
          rfl
        · rw [if_neg htwo]
          by_cases hnil : text = []
          · rw [hnil]
            exact multilineBasicBody_close (by decide : 1 ≤ 2) htail
          · by_cases hlast : run + 1 = 1 ∧ text = ['"']
            · rw [hlast.1, hlast.2]
              exact multilineBasicBody_close (Nat.le_refl 2) htail
            · rw [List.cons_append, multilineBasicBody_mark, ih (by omega)]
              · rfl
              · exact multilineBasicText_ne (Nat.succ_pos run) (by omega) hnil hlast _
      · rw [if_neg hmark]
        by_cases hfeed : c = '\n'
        · rw [if_pos hfeed, List.cons_append, multilineBasicBody_feed, ih (Nat.zero_le 2), hfeed]
          rfl
        · rw [if_neg hfeed, List.append_assoc,
            multilineBasicBody_spelled (spelled_escaped hmark hfeed), ih (Nat.zero_le 2)]
          rfl

/-!
# Runs of a character
-/

theorem le_longestRun (x : Char) (run : Nat) (text : List Char) : run ≤ longestRun x run text := by
  induction text generalizing run with
  | nil => exact Nat.le_refl run
  | cons c text ih =>
      rw [longestRun]
      split
      · exact Nat.le_trans (Nat.le_succ run) (ih (run + 1))
      · exact Nat.le_max_left _ _

theorem not_mem_of_longestRun {x : Char} {text : List Char} (h : longestRun x 0 text = 0) :
    x ∉ text := by
  induction text with
  | nil => exact List.not_mem_nil
  | cons c text ih =>
      rw [longestRun] at h
      split at h
      · have hle := le_longestRun x (0 + 1) text
        omega
      · rename_i hne
        rw [Nat.zero_max] at h
        rw [List.mem_cons, not_or]
        exact ⟨Ne.symm hne, ih h⟩

/-- After one of a kind there are two others only at the end of a text without longer runs. -/
theorem append_ne_of_longestRun {x : Char} {run : Nat} (hpos : 0 < run) {text : List Char}
    (hrun : longestRun x run text ≤ 2) (hnil : text ≠ []) (hlast : text ≠ [x])
    (more r : List Char) : text ++ more ≠ x :: x :: r := by
  intro heq
  rcases text with _ | ⟨d, _ | ⟨e, text⟩⟩
  · exact hnil rfl
  · exact hlast (congrArg (fun c => [c]) (List.cons.inj heq).1)
  · rcases List.cons.inj heq with ⟨rfl, hrest⟩
    rcases List.cons.inj hrest with ⟨rfl, _⟩
    have hle := le_longestRun e (run + 1 + 1) text
    rw [longestRun, if_pos rfl, longestRun, if_pos rfl] at hrun
    omega

/-!
# Between triple apostrophes
-/

theorem multilineLiteralBody_close {k : Nat} (hk : k ≤ 2) (htail : tail.head? ≠ some '\'') :
    multilineLiteralBody (List.replicate (k + 3) '\'' ++ tail) =
      some (List.replicate k '\'', tail) := by
  have hnext (r : List Char) : tail ≠ '\'' :: r := by
    rintro rfl
    exact htail rfl
  rw [multilineLiteralBody.eq_def]
  rcases k with _ | _ | _ | k
  · simp [List.replicate, hnext]
  · simp [List.replicate]
  · simp [List.replicate]
  · omega

theorem multilineLiteralBody_cons {c : Char} (hc : (isPlain c || c == '\n') = true)
    {rest : List Char} (h : forall r, c = '\'' -> rest ≠ '\'' :: '\'' :: r) :
    multilineLiteralBody (c :: rest) =
      (multilineLiteralBody rest).map fun (text, r) => (c :: text, r) := by
  rw [multilineLiteralBody.eq_def]
  split
  · rename_i heq
    cases heq
  · rename_i heq
    cases heq
    exact absurd rfl (h _ rfl)
  · rename_i heq
    cases heq
    exact absurd rfl (h _ rfl)
  · rename_i heq
    cases heq
    exact absurd rfl (h _ rfl)
  · rename_i heq
    cases heq
    exact if_pos hc

theorem multilineLiteralBody_append (htail : tail.head? ≠ some '\'') {text : List Char} {run : Nat}
    (hplain : forall c, c ∈ text -> (isPlain c || c == '\n') = true)
    (hrun : longestRun '\'' run text ≤ 2) :
    multilineLiteralBody (text ++ '\'' :: '\'' :: '\'' :: tail) = some (text, tail) := by
  induction text generalizing run with
  | nil => exact multilineLiteralBody_close (Nat.zero_le 2) htail
  | cons c text ih =>
      rcases List.forall_mem_cons.mp hplain with ⟨hc, htext⟩
      rw [longestRun] at hrun
      by_cases hmark : c = '\''
      · subst hmark
        rw [if_pos rfl] at hrun
        by_cases hnil : text = []
        · rw [hnil]
          exact multilineLiteralBody_close (by decide : 1 ≤ 2) htail
        · by_cases hlast : text = ['\'']
          · rw [hlast]
            exact multilineLiteralBody_close (Nat.le_refl 2) htail
          · have hahead := append_ne_of_longestRun (Nat.succ_pos run) hrun hnil hlast
            rw [List.cons_append, multilineLiteralBody_cons hc fun r _ => hahead _ r,
              ih htext hrun]
            rfl
      · rw [if_neg hmark] at hrun
        rw [List.cons_append, multilineLiteralBody_cons hc fun _ heq => absurd heq hmark,
          ih htext (Nat.le_trans (Nat.le_max_right _ _) hrun)]
        rfl

/-!
# All forms
-/

def Holds (form : Form) (text : List Char) : Prop :=
  match form with
  | .basic | .multilineBasic => True
  | .literal => (forall c, c ∈ text -> isPlain c = true) ∧ '\'' ∉ text
  | .multilineLiteral =>
      (forall c, c ∈ text -> (isPlain c || c == '\n') = true) ∧ longestRun '\'' 0 text ≤ 2

theorem holds_chooseForm (text : List Char) : Holds (chooseForm text) text := by
  have hplain (h : (!text.any needsEscape) = true) :
      forall c, c ∈ text -> (isPlain c || c == '\n') = true := by
    intro c hc
    rw [Bool.not_eq_true', List.any_eq_false] at h
    have hcontrol := Bool.eq_false_iff.mpr (h c hc)
    by_cases hfeed : c = '\n'
    · simp [hfeed]
    · simp [isPlain_of_not_needsEscape hcontrol hfeed]
  unfold chooseForm
  dsimp only
  split_ifs with hbasic hliteral hmultiline hmultilineLiteral hfeed
  · exact trivial
  · simp only [Bool.and_eq_true, beq_iff_eq] at hliteral
    rcases hliteral with ⟨⟨hcontrol, hapostrophes⟩, hfeed⟩
    refine ⟨fun c hc => ?_, not_mem_of_longestRun hapostrophes⟩
    have hne : c ≠ '\n' := by
      rintro rfl
      simp [hc] at hfeed
    simpa [hne] using hplain hcontrol c hc
  · exact trivial
  · simp only [Bool.and_eq_true, decide_eq_true_iff] at hmultilineLiteral
    exact ⟨hplain hmultilineLiteral.1, hmultilineLiteral.2⟩
  · exact trivial
  · exact trivial

theorem read_mark {rest : List Char} (h : forall r, rest ≠ '"' :: '"' :: r) :
    read ('"' :: rest) = basicBody rest := by
  unfold read
  split
  · rename_i heq
    cases heq
    exact absurd rfl (h _)
  · rename_i heq
    cases heq
  · rename_i heq
    cases heq
    rfl
  · rename_i heq
    cases heq
  · rename_i hother _
    exact absurd rfl (hother rest)

theorem read_apostrophe {rest : List Char} (h : forall r, rest ≠ '\'' :: '\'' :: r) :
    read ('\'' :: rest) = literalBody rest := by
  unfold read
  split
  · rename_i heq
    cases heq
  · rename_i heq
    cases heq
    exact absurd rfl (h _)
  · rename_i heq
    cases heq
  · rename_i heq
    cases heq
    rfl
  · rename_i hother
    exact absurd rfl (hother rest)

theorem dropLineFeed_opening {text cs : List Char} (h : '\n' ∉ text -> cs.head? ≠ some '\n') :
    dropLineFeed (opening text ++ cs) = cs := by
  unfold opening
  by_cases hfeed : '\n' ∈ text
  · rw [if_pos (List.contains_iff_mem.mpr hfeed)]
    rfl
  · rw [if_neg fun hcontains => hfeed (List.contains_iff_mem.mp hcontains), List.nil_append]
    unfold dropLineFeed
    split
    · exact absurd rfl (h hfeed)
    · rfl

theorem read_writeForm {form : Form} {text : List Char} (h : Holds form text)
    (hmark : tail.head? ≠ some '"') (hapostrophe : tail.head? ≠ some '\'') :
    read (writeForm form text ++ tail) = some (text, tail) := by
  cases form with
  | basic =>
      have hwrite : writeForm .basic text ++ tail =
          '"' :: (text.flatMap basicChar ++ '"' :: tail) := by
        simp [writeForm]
      rw [hwrite, read_mark, basicBody_flatMap]
      intro r heq
      cases text with
      | nil =>
          cases heq
          exact hmark rfl
      | cons c text =>
          rcases (spelled_basicChar c).head with ⟨x, more, hx, hne⟩
          rw [List.flatMap_cons, hx] at heq
          have hfirst := (List.cons.inj heq).1
          rw [hfirst] at hne
          rcases hne with hbackslash | ⟨rfl, hquote⟩
          · exact absurd hbackslash (by decide)
          · exact hquote rfl
  | literal =>
      have hwrite : writeForm .literal text ++ tail = '\'' :: (text ++ '\'' :: tail) := by
        simp [writeForm]
      rw [hwrite, read_apostrophe, literalBody_append h.1 h.2]
      intro r heq
      cases text with
      | nil =>
          cases heq
          exact hapostrophe rfl
      | cons c text =>
          have hfirst := (List.cons.inj heq).1
          exact h.2 (hfirst ▸ List.mem_cons_self)
  | multilineBasic =>
      have hwrite : writeForm .multilineBasic text ++ tail = '"' :: '"' :: '"' ::
          (opening text ++ (multilineBasicText 0 text ++ '"' :: '"' :: '"' :: tail)) := by
        simp [writeForm]
      rw [hwrite, read, dropLineFeed_opening, multilineBasicBody_text hmark (Nat.zero_le 2)]
      exact fun hfeed => multilineBasicText_ne_feed hfeed (fun heq => nomatch heq)
  | multilineLiteral =>
      have hwrite : writeForm .multilineLiteral text ++ tail = '\'' :: '\'' :: '\'' ::
          (opening text ++ (text ++ '\'' :: '\'' :: '\'' :: tail)) := by
        simp [writeForm]
      rw [hwrite, read, dropLineFeed_opening, multilineLiteralBody_append hapostrophe h.1 h.2]
      intro hfeed
      cases text with
      | nil => exact fun heq => nomatch heq
      | cons c text =>
          intro heq
          cases heq
          exact hfeed List.mem_cons_self

theorem read_write (text : List Char) (hmark : tail.head? ≠ some '"')
    (hapostrophe : tail.head? ≠ some '\'') : read (write text ++ tail) = some (text, tail) :=
  read_writeForm (holds_chooseForm text) hmark hapostrophe

/-!
# What is written
-/

theorem write_head (text : List Char) :
    exists c more, write text = c :: more ∧ (c = '"' ∨ c = '\'') := by
  unfold write writeForm
  cases chooseForm text with
  | basic | multilineBasic => exact ⟨_, _, rfl, Or.inl rfl⟩
  | literal | multilineLiteral => exact ⟨_, _, rfl, Or.inr rfl⟩

theorem return_not_mem_escaped (c : Char) : '\r' ∉ escaped c := by
  have hhex : forall n, n < 128 -> '\r' ∉ [hexUpper (n / 16), hexUpper (n % 16)] := by
    decide
  unfold escaped
  split_ifs with hb ht hf hr hbackslash hcontrol
  · decide
  · decide
  · decide
  · decide
  · decide
  · have hdigits := hhex c.toNat (lt_of_needsEscape hcontrol)
    rw [List.mem_cons, List.mem_cons, List.mem_cons, List.mem_cons]
    rintro (h | h | h | h | h)
    · exact absurd h (by decide)
    · exact absurd h (by decide)
    · exact absurd h (by decide)
    · exact absurd h (by decide)
    · exact hdigits h
  · rw [List.mem_singleton]
    exact Ne.symm hr

theorem return_not_mem_basicChar (c : Char) : '\r' ∉ basicChar c := by
  unfold basicChar
  split_ifs
  · decide
  · decide
  · exact return_not_mem_escaped c

theorem return_not_mem_multilineBasicText (run : Nat) (text : List Char) :
    '\r' ∉ multilineBasicText run text := by
  induction text generalizing run with
  | nil => exact List.not_mem_nil
  | cons c text ih =>
      rw [multilineBasicText]
      split_ifs
      · simp [ih]
      · simp [ih]
      · simp [ih]
      · rw [List.mem_append, not_or]
        exact ⟨return_not_mem_escaped c, ih 0⟩

theorem return_not_mem_writeForm {form : Form} {text : List Char} (h : Holds form text) :
    '\r' ∉ writeForm form text := by
  have hopening : '\r' ∉ opening text := by
    unfold opening
    split_ifs
    · decide
    · exact List.not_mem_nil
  cases form with
  | basic =>
      simp [writeForm, return_not_mem_basicChar]
  | literal =>
      have htext : '\r' ∉ text := fun hr => absurd (h.1 '\r' hr) (by decide)
      simp [writeForm, htext]
  | multilineBasic =>
      simp [writeForm, hopening, return_not_mem_multilineBasicText]
  | multilineLiteral =>
      have htext : '\r' ∉ text := fun hr => absurd (h.1 '\r' hr) (by decide)
      simp [writeForm, hopening, htext]

theorem return_not_mem_write (text : List Char) : '\r' ∉ write text :=
  return_not_mem_writeForm (holds_chooseForm text)

end Quoted
end Toml
end Roster
