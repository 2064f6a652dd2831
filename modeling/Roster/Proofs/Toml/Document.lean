import Roster.Proofs.Toml.Number
import Roster.Proofs.Toml.Quoted
import Roster.Toml.Document

/-!
# Documents of plain entries

A document may have a line for each of its entries: a bare key, and a text or a number that is
written out.  Such a document is read as just these entries, in their order.
-/

namespace Roster
namespace Toml

/-!
# Values
-/

/-- At the end of a line the text is read as the item. -/
structure Reads (text : List Char) (item : Item) : Prop where
  value : forall depth rest, value depth (text ++ '\n' :: rest) = some (item, '\n' :: rest)
  noSpace : forall rest, skipSpaces (text ++ '\n' :: rest) = text ++ '\n' :: rest
  noReturn : '\r' ∉ text

theorem value_eq_scalar {cs : List Char} (harray : forall rest, cs ≠ '[' :: rest)
    (hinline : forall rest, cs ≠ '\x7b' :: rest) (depth : Nat) : value depth cs = scalar cs := by
  rw [value]
  · exact harray
  · exact hinline

theorem skipSpaces_eq {cs : List Char} (hspace : forall rest, cs ≠ ' ' :: rest)
    (htab : forall rest, cs ≠ '\t' :: rest) : skipSpaces cs = cs := by
  cases cs with
  | nil => rfl
  | cons c cs =>
      apply List.dropWhile_cons_of_neg
      unfold isSpace
      rw [Bool.or_eq_true, beq_iff_eq, beq_iff_eq]
      rintro (rfl | rfl)
      · exact hspace cs rfl
      · exact htab cs rfl

theorem reads_text (text : List Char) : Reads (Quoted.write text) (.text (String.ofList text)) := by
  rcases Quoted.write_head text with ⟨c, more, hwrite, hc⟩
  have hne {d : Char} (hd : d ≠ '"' ∧ d ≠ '\'') (cs rest : List Char) :
      Quoted.write text ++ cs ≠ d :: rest := by
    rw [hwrite]
    intro heq
    rw [(List.cons.inj heq).1] at hc
    exact hc.elim hd.1 hd.2
  constructor
  · intro depth rest
    rw [value_eq_scalar (hne (by decide) _) (hne (by decide) _), scalar, Quoted.read_write]
    · rfl
    · exact fun h => nomatch h
    · exact fun h => nomatch h
  · exact fun rest => skipSpaces_eq (hne (by decide) _) (hne (by decide) _)
  · exact Quoted.return_not_mem_write text

section

variable {ds rest : List Char}

theorem quoted_line (h : Text.AllDigits ds) : Quoted.read (ds ++ '\n' :: rest) = none := by
  unfold Quoted.read
  split
  · exact absurd ‹_› (line_ne h rfl (by decide) _)
  · exact absurd ‹_› (line_ne h rfl (by decide) _)
  · exact absurd ‹_› (line_ne h rfl (by decide) _)
  · exact absurd ‹_› (line_ne h rfl (by decide) _)
  · rfl

theorem boolean_line (h : Text.AllDigits ds) : boolean (ds ++ '\n' :: rest) = none := by
  unfold boolean
  split
  · exact absurd ‹_› (line_ne h rfl (by decide) _)
  · exact absurd ‹_› (line_ne h rfl (by decide) _)
  · rfl

end

theorem reads_number {n : Nat} (h : (n : Int) ≤ maxInteger) :
    Reads (Text.decimal n) (.integer n) := by
  have hdigits := Text.allDigits_decimal n
  constructor
  · intro depth rest
    rw [value_eq_scalar (line_ne hdigits rfl (by decide)) (line_ne hdigits rfl (by decide)), scalar,
      quoted_line hdigits, boolean_line hdigits, moment?_line hdigits, float?_line, integer_line h]
    rfl
  · exact fun rest =>
      skipSpaces_eq (line_ne hdigits rfl (by decide)) (line_ne hdigits rfl (by decide))
  · exact fun hreturn => absurd (hdigits _ hreturn) (by decide)

/-!
# Keys
-/

structure Bare (key : String) : Prop where
  ne_nil : key.toList ≠ []
  bare : forall c, c ∈ key.toList -> isBare c = true

theorem Bare.line_ne {k : String} (h : Bare k) {d : Char} (hd : isBare d = false)
    (cs rest : List Char) : k.toList ++ cs ≠ d :: rest := by
  intro heq
  cases hk : k.toList with
  | nil => exact h.ne_nil hk
  | cons c front =>
      have hc := h.bare c (hk ▸ List.mem_cons_self)
      rw [hk] at heq
      rw [(List.cons.inj heq).1, hd] at hc
      cases hc

theorem bareName_append {k : String} (h : Bare k) {d : Char} (hd : isBare d = false)
    (cs : List Char) : bareName (k.toList ++ d :: cs) = some (k.toList, d :: cs) := by
  have hstop : ¬isBare d = true := by
    rw [hd]
    exact Bool.false_ne_true
  have htake : (k.toList ++ d :: cs).takeWhile isBare = k.toList := by
    rw [List.takeWhile_append_of_pos h.bare, List.takeWhile_cons_of_neg hstop, List.append_nil]
  have hdrop : (k.toList ++ d :: cs).dropWhile isBare = d :: cs := by
    rw [List.dropWhile_append_of_pos h.bare, List.dropWhile_cons_of_neg hstop]
  unfold bareName
  rw [htake, hdrop]
  cases hk : k.toList with
  | nil => exact absurd hk h.ne_nil
  | cons c front => rfl

theorem name_append {k : String} (h : Bare k) (cs : List Char) :
    name (k.toList ++ ' ' :: '=' :: cs) = some (k, '=' :: cs) := by
  have hquoted : Quoted.readKey (k.toList ++ ' ' :: '=' :: cs) = none := by
    unfold Quoted.readKey
    split
    · exact absurd ‹_› (h.line_ne rfl _ _)
    · exact absurd ‹_› (h.line_ne rfl _ _)
    · rfl
  have hafter : skipSpaces (' ' :: '=' :: cs) = '=' :: cs := rfl
  unfold name
  rw [skipSpaces_eq (h.line_ne rfl _) (h.line_ne rfl _)]
  simp [hquoted, bareName_append h (rfl : isBare ' ' = false), hafter]

theorem key_append {k : String} (h : Bare k) (cs : List Char) :
    key (k.toList ++ ' ' :: '=' :: cs) = some (([], k), '=' :: cs) := by
  have hnames : names (depthLimit - 1) (k.toList ++ ' ' :: '=' :: cs) = some ([k], '=' :: cs) := by
    rw [show depthLimit - 1 = 78 + 1 from rfl, names]
    simp [name_append h]
  unfold key
  simp [hnames]

/-!
# Entries
-/

structure PlainEntry where
  key : String
  text : List Char
  item : Item
  bare : Bare key
  reads : Reads text item

namespace PlainEntry

def line (e : PlainEntry) : List Char :=
  e.key.toList ++ " = ".toList ++ e.text ++ ['\n']

def pair (e : PlainEntry) : String × Item :=
  (e.key, e.item)

theorem line_append (e : PlainEntry) (rest : List Char) :
    e.line ++ rest = e.key.toList ++ ' ' :: '=' :: ' ' :: (e.text ++ '\n' :: rest) := by
  simp [line]

theorem return_not_mem (e : PlainEntry) : '\r' ∉ e.line := by
  have hkey : '\r' ∉ e.key.toList := fun hr => absurd (e.bare.bare '\r' hr) (by decide)
  have htext := e.reads.noReturn
  simp [line, hkey, htext]

end PlainEntry

namespace Entries

theorem lookup?_eq_none {entries : Entries} {key : String} :
    entries.lookup? key = none ↔ key ∉ entries.map Prod.fst := by
  unfold lookup?
  rw [Option.map_eq_none_iff, List.find?_eq_none, List.mem_map]
  constructor
  · rintro h ⟨entry, hentry, rfl⟩
    exact h entry hentry (beq_self_eq_true _)
  · intro h entry hentry heq
    exact h ⟨entry, hentry, beq_iff_eq.mp heq⟩

theorem set_of_new {entries : Entries} {key : String} (h : key ∉ entries.map Prod.fst)
    (item : Item) : set key item entries = entries ++ [(key, item)] := by
  induction entries with
  | nil => rfl
  | cons entry entries ih =>
      rw [List.map_cons, List.mem_cons, not_or] at h
      rw [set, if_neg (Ne.symm h.1), ih h.2]
      rfl

end Entries

namespace Document

theorem addValue?_of_new {entries : Entries} {key : String} (h : key ∉ entries.map Prod.fst)
    (item : Item) :
    addValue? ⟨entries, []⟩ [] key item = some ⟨entries ++ [(key, item)], []⟩ := by
  have hinsert : entries.insertNew? key item = some (entries ++ [(key, item)]) := by
    unfold Entries.insertNew?
    rw [Entries.lookup?_eq_none.mpr h, Entries.set_of_new h]
  simp [addValue?, Entries.within?, Entries.addValue?, Entries.alter?, hinsert]

theorem line?_append (e : PlainEntry) {entries : Entries} (h : e.key ∉ entries.map Prod.fst)
    (rest : List Char) :
    line? ⟨entries, []⟩ (e.line ++ rest) = some (⟨entries ++ [e.pair], []⟩, rest) := by
  have hspace : skipSpaces (' ' :: (e.text ++ '\n' :: rest)) = e.text ++ '\n' :: rest :=
    e.reads.noSpace rest
  have hrest : lineRest? ('\n' :: rest) = some rest := rfl
  rw [e.line_append]
  unfold line?
  split
  · exact absurd ‹_› (e.bare.line_ne rfl _ _)
  · exact absurd ‹_› (e.bare.line_ne rfl _ _)
  · exact absurd ‹_› (e.bare.line_ne rfl _ _)
  · simp [key_append e.bare, close?, hspace, e.reads.value, hrest, addValue?_of_new h,
      PlainEntry.pair]

theorem lines?_line (e : PlainEntry) {entries : Entries} (h : e.key ∉ entries.map Prod.fst)
    (fuel : Nat) (rest : List Char) :
    lines? (fuel + 1) ⟨entries, []⟩ (e.line ++ rest) =
      lines? fuel ⟨entries ++ [e.pair], []⟩ rest := by
  have hne {d : Char} (hd : isBare d = false) (cs : List Char) : e.line ++ rest ≠ d :: cs := by
    rw [e.line_append]
    exact e.bare.line_ne hd _ cs
  have hline := line?_append e h rest
  cases hcs : e.line ++ rest with
  | nil =>
      rw [e.line_append] at hcs
      exact absurd (List.append_eq_nil_iff.mp hcs).2 (List.cons_ne_nil _ _)
  | cons c cs =>
      have hfeed : c ≠ '\n' := by
        rintro rfl
        exact hne rfl cs hcs
      rw [hcs] at hline
      have hskip := skipSpaces_eq (hne rfl) (hne rfl)
      rw [hcs] at hskip
      rw [lines?.eq_def]
      simp [hskip, hfeed, hline]

theorem lines?_flatMap (es : List PlainEntry) {entries : Entries}
    (hnodup : (entries.map Prod.fst ++ es.map PlainEntry.key).Nodup) {fuel : Nat}
    (hfuel : es.length ≤ fuel) :
    lines? fuel ⟨entries, []⟩ (es.flatMap PlainEntry.line) =
      some ⟨entries ++ es.map PlainEntry.pair, []⟩ := by
  induction es generalizing entries fuel with
  | nil =>
      rw [List.flatMap_nil, List.map_nil, List.append_nil, lines?.eq_def]
      rfl
  | cons e es ih =>
      cases fuel with
      | zero => exact absurd hfuel (by simp)
      | succ fuel =>
          have hkeys : (entries ++ [e.pair]).map Prod.fst ++ es.map PlainEntry.key =
              entries.map Prod.fst ++ (e :: es).map PlainEntry.key := by
            simp [PlainEntry.pair]
          have hnew : e.key ∉ entries.map Prod.fst := by
            intro hmem
            exact (List.nodup_append.mp hnodup).2.2 _ hmem _ List.mem_cons_self rfl
          rw [List.flatMap_cons, lines?_line e hnew,
            ih (by rw [hkeys]; exact hnodup) (Nat.le_of_succ_le_succ hfuel)]
          simp

theorem unifyLineEnds_eq {cs : List Char} (h : '\r' ∉ cs) : unifyLineEnds cs = cs := by
  induction cs with
  | nil => rfl
  | cons c cs ih =>
      rw [List.mem_cons, not_or] at h
      rw [unifyLineEnds, ih h.2]
      exact fun rest heq => absurd heq.symm h.1

theorem length_le_flatMap (es : List PlainEntry) :
    es.length ≤ (es.flatMap PlainEntry.line).length := by
  induction es with
  | nil => exact Nat.le_refl 0
  | cons e es ih =>
      have hline : 0 < e.line.length := by
        simp only [PlainEntry.line, List.length_append, List.length_singleton]
        omega
      rw [List.flatMap_cons, List.length_append, List.length_cons]
      omega

theorem dropByteOrderMark_flatMap (es : List PlainEntry) :
    dropByteOrderMark (es.flatMap PlainEntry.line) = es.flatMap PlainEntry.line := by
  unfold dropByteOrderMark
  split
  · rename_i rest heq
    cases es with
    | nil => cases heq
    | cons e es =>
        rw [List.flatMap_cons, e.line_append] at heq
        exact absurd heq (e.bare.line_ne rfl _ _)
  · rfl

theorem read?_flatMap (es : List PlainEntry) (hnodup : (es.map PlainEntry.key).Nodup) :
    read? (es.flatMap PlainEntry.line) = some (es.map PlainEntry.pair) := by
  have hreturn : '\r' ∉ es.flatMap PlainEntry.line := by
    rw [List.mem_flatMap]
    rintro ⟨e, _, hmem⟩
    exact e.return_not_mem hmem
  have hnone : (List.map Prod.fst ([] : Entries) ++ es.map PlainEntry.key).Nodup := hnodup
  unfold read?
  rw [dropByteOrderMark_flatMap, unifyLineEnds_eq hreturn]
  exact congrArg (Option.map Document.entries) (lines?_flatMap es hnone (length_le_flatMap es))

end Document

end Toml
end Roster
