import Mathlib.Data.Nat.Init
import Roster.Bytes.Base64Url
import Roster.Proofs.Bytes.Utf8

/-!
# Base64 read strictly

What is read is just what is written: no text other than its own is taken for a byte string.
-/

namespace Roster
namespace Base64Url

/-!
# Symbols
-/

def alphabet : List Char :=
  "ABCDEFGHIJKLMNOPQRSTUVWXYZabcdefghijklmnopqrstuvwxyz0123456789-_".toList

def symbolByte (v : Nat) : UInt8 :=
  (symbol v).toUInt8

theorem symbol_eq_alphabet : (List.range 64).map symbol = alphabet := by
  decide

theorem mem_alphabet {c : Char} : c ∈ alphabet ↔ exists v, v < 64 ∧ symbol v = c := by
  rw [← symbol_eq_alphabet, List.mem_map]
  constructor
  · rintro ⟨v, hv, rfl⟩
    exact ⟨v, List.mem_range.mp hv, rfl⟩
  · rintro ⟨v, hv, rfl⟩
    exact ⟨v, List.mem_range.mpr hv, rfl⟩

theorem symbol_ascii {v : Nat} (h : v < 64) : (symbol v).val ≤ 127 := by
  revert v
  decide

theorem value?_symbolByte {v : Nat} (h : v < 64) : value? (symbolByte v) = some v := by
  revert v
  decide

theorem of_value? {b : UInt8} {v : Nat} (h : value? b = some v) : v < 64 ∧ symbolByte v = b := by
  have hall : forall n, n < 256 ->
      (value? (UInt8.ofNat n)).all fun v => v < 64 && symbolByte v == UInt8.ofNat n := by
    decide +kernel
  have hb := hall b.toNat b.toNat_lt
  rw [UInt8.ofNat_toNat, h] at hb
  simpa using hb

/-!
# What a reader takes
-/

def Spells (bs : Bytes) (vs : List Nat) : Prop :=
  bs.map value? = vs.map some

theorem spells_nil {vs : List Nat} : Spells [] vs ↔ vs = [] := by
  unfold Spells
  cases vs with
  | nil => simp
  | cons v vs => simp

theorem not_spells_cons {b : UInt8} (h : value? b = none) (bs : Bytes) (vs : List Nat) :
    ¬Spells (b :: bs) vs := by
  unfold Spells
  rw [List.map_cons, h]
  cases vs with
  | nil => exact fun h => nomatch h
  | cons v vs => exact fun h => nomatch h

theorem spells_cons {b : UInt8} {v : Nat} (h : value? b = some v) {bs : Bytes} {vs : List Nat} :
    Spells (b :: bs) vs ↔ exists rest, Spells bs rest ∧ v :: rest = vs := by
  unfold Spells
  rw [List.map_cons, h]
  cases vs with
  | nil => simp
  | cons w vs =>
      rw [List.map_cons, List.cons.injEq, Option.some.injEq]
      constructor
      · rintro ⟨rfl, hbs⟩
        exact ⟨vs, hbs, rfl⟩
      · rintro ⟨rest, hbs, heq⟩
        cases heq
        exact ⟨rfl, hbs⟩

theorem spells_append {front back : Bytes} {vs : List Nat} :
    Spells (front ++ back) vs ↔
      exists ws us, vs = ws ++ us ∧ Spells front ws ∧ Spells back us := by
  unfold Spells
  rw [List.map_append, List.append_eq_map_iff]
  exact exists₂_congr fun ws us => and_congr_right' (and_congr eq_comm eq_comm)

theorem Spells.length_eq {bs : Bytes} {vs : List Nat} (h : Spells bs vs) :
    vs.length = bs.length := by
  have heq := congrArg List.length h
  rw [List.length_map, List.length_map] at heq
  exact heq.symm

theorem spells_iff {bs : Bytes} {vs : List Nat} :
    Spells bs vs ↔ (forall v, v ∈ vs -> v < 64) ∧ bs = vs.map symbolByte := by
  constructor
  · intro h
    induction bs generalizing vs with
    | nil =>
        rw [spells_nil.mp h]
        exact ⟨List.forall_mem_nil _, rfl⟩
    | cons b bs ih =>
        cases hb : value? b with
        | none => exact absurd h (not_spells_cons hb bs vs)
        | some v =>
            rcases (spells_cons hb).mp h with ⟨rest, hrest, rfl⟩
            rcases of_value? hb with ⟨hv, rfl⟩
            rcases ih hrest with ⟨hlt, rfl⟩
            exact ⟨List.forall_mem_cons.mpr ⟨hv, hlt⟩, rfl⟩
  · rintro ⟨hlt, rfl⟩
    unfold Spells
    rw [List.map_map]
    exact List.map_congr_left fun v hv => value?_symbolByte (hlt v hv)

theorem map_eq_ok {α β : Type} {x : Except Fault α} {f : α → β} {b : β} :
    x.map f = .ok b ↔ exists a, x = .ok a ∧ f a = b := by
  cases x with
  | error e => simp [Except.map]
  | ok a => simp [Except.map]

theorem bind_eq_ok {α β : Type} {x : Except Fault α} {f : α → Except Fault β} {b : β} :
    x >>= f = .ok b ↔ exists a, x = .ok a ∧ f a = .ok b := by
  cases x with
  | error e => simp [bind, Except.bind]
  | ok a => simp [bind, Except.bind]

theorem plainValues_eq_ok {offset : Nat} {bs : Bytes} {vs : List Nat} :
    plainValues offset bs = .ok vs ↔ Spells bs vs := by
  induction bs generalizing offset vs with
  | nil =>
      rw [spells_nil, plainValues, Except.ok.injEq]
      exact eq_comm
  | cons b bs ih =>
      rw [plainValues]
      cases hb : value? b with
      | none => exact iff_of_false (fun h => nomatch h) (not_spells_cons hb bs vs)
      | some v =>
          change (plainValues (offset + 1) bs).map (v :: ·) = .ok vs ↔ _
          rw [map_eq_ok, spells_cons hb]
          exact exists_congr fun rest => and_congr_left' ih

theorem lastValues_of_pad (start i n : Nat) (bs : Bytes) (vs : List Nat) :
    lastValues start i (some n) bs ≠ .ok vs := by
  induction bs generalizing i with
  | nil => exact fun h => nomatch h
  | cons b bs ih =>
      rw [lastValues]
      split
      · split
        · exact fun h => nomatch h
        · exact ih (i + 1)
      · exact fun h => nomatch h

theorem lastValues_eq_ok {start i : Nat} {bs : Bytes} {vs : List Nat} :
    lastValues start i none bs = .ok vs ↔ Spells bs vs := by
  induction bs generalizing i vs with
  | nil =>
      rw [spells_nil, lastValues, Option.isSome_none, if_neg Bool.false_ne_true, Except.ok.injEq]
      exact eq_comm
  | cons b bs ih =>
      rw [lastValues]
      by_cases hpad : b = pad
      · -- Padding has no value, and a reader that lets it pass takes nothing any more.
        have hvalue : value? b = none := by
          rw [hpad]
          rfl
        refine iff_of_false ?_ (not_spells_cons hvalue bs vs)
        rw [if_pos hpad]
        split
        · exact fun h => nomatch h
        · exact lastValues_of_pad _ _ _ _ _
      · rw [if_neg hpad]
        cases hb : value? b with
        | none => exact iff_of_false (fun h => nomatch h) (not_spells_cons hb bs vs)
        | some v =>
            change (lastValues start (i + 1) none bs).map (v :: ·) = .ok vs ↔ _
            rw [map_eq_ok, spells_cons hb]
            exact exists_congr fun rest => and_congr_left' ih

/-- Bytes can be made of these values without anything being left over. -/
structure Whole (vs : List Nat) : Prop where
  length : vs.length % 4 ≠ 1
  spare : spareBitsZero vs = true

theorem decode_eq_ok {text bs : Bytes} :
    decode text = .ok bs ↔ exists vs, Spells text vs ∧ Whole vs ∧ ofSextets vs = bs := by
  unfold decode
  by_cases hone : text.length % 4 = 1
  · simp only [if_pos hone]
    refine iff_of_false ?_ ?_
    · split
      · exact fun h => nomatch h
      · exact fun h => nomatch h
    · rintro ⟨vs, hspells, hwhole, _⟩
      exact hwhole.length (by rw [hspells.length_eq]; exact hone)
  · simp only [if_neg hone, bind_eq_ok, plainValues_eq_ok, lastValues_eq_ok]
    generalize hbody : (text.length - 1) / 8 * 8 = body
    have hsplit (vs : List Nat) : Spells text vs ↔ exists ws us,
        vs = ws ++ us ∧ Spells (text.take body) ws ∧ Spells (text.drop body) us := by
      rw [← spells_append, List.take_append_drop]
    constructor
    · rintro ⟨ws, hws, us, hus, h⟩
      have hspells : Spells text (ws ++ us) := (hsplit _).mpr ⟨ws, us, rfl, hws, hus⟩
      split at h
      · rename_i hspare
        cases h
        exact ⟨_, hspells, ⟨by rw [hspells.length_eq]; exact hone, hspare⟩, rfl⟩
      · cases h
    · rintro ⟨vs, hspells, hwhole, rfl⟩
      rcases (hsplit vs).mp hspells with ⟨ws, us, rfl, hws, hus⟩
      exact ⟨ws, hws, us, hus, if_pos hwhole.spare⟩

/-!
# Regrouping bits
-/

theorem byte_eq {n : Nat} {b : UInt8} (h : n = b.toNat) : UInt8.ofNat n = b := by
  rw [h, UInt8.ofNat_toNat]

theorem ofSextets_sextets (bs : Bytes) : ofSextets (sextets bs) = bs := by
  induction bs using sextets.induct with
  | case1 a b c rest ih =>
      have hb := b.toNat_lt
      have hc := c.toNat_lt
      rw [sextets, ofSextets, ih, byte_eq (b := a) (by omega), byte_eq (b := b) (by omega),
        byte_eq (b := c) (by omega)]
  | case2 a b =>
      have hb := b.toNat_lt
      rw [sextets, ofSextets, byte_eq (b := a) (by omega), byte_eq (b := b) (by omega)]
  | case3 a => rw [sextets, ofSextets, byte_eq (b := a) (by omega)]
  | case4 => rfl

theorem sextets_lt (bs : Bytes) : forall v, v ∈ sextets bs -> v < 64 := by
  induction bs using sextets.induct with
  | case1 a b c rest ih =>
      have ha := a.toNat_lt
      have hb := b.toNat_lt
      have hc := c.toNat_lt
      rw [sextets]
      simp only [List.forall_mem_cons]
      exact ⟨by omega, by omega, by omega, by omega, ih⟩
  | case2 a b =>
      have ha := a.toNat_lt
      have hb := b.toNat_lt
      rw [sextets]
      simp only [List.forall_mem_cons]
      exact ⟨by omega, by omega, by omega, List.forall_mem_nil _⟩
  | case3 a =>
      have ha := a.toNat_lt
      rw [sextets]
      simp only [List.forall_mem_cons]
      exact ⟨by omega, by omega, List.forall_mem_nil _⟩
  | case4 => exact List.forall_mem_nil _

theorem length_sextets (bs : Bytes) : (sextets bs).length = (4 * bs.length + 2) / 3 := by
  induction bs using sextets.induct with
  | case1 a b c rest ih =>
      rw [sextets]
      simp only [List.length_cons, ih]
      omega
  | case2 a b | case3 a | case4 => simp [sextets]

theorem eq_nil_or_single {vs : List Nat}
    (h4 : forall a b c d rest, vs = a :: b :: c :: d :: rest -> False)
    (h3 : forall a b c, vs = [a, b, c] -> False) (h2 : forall a b, vs = [a, b] -> False) :
    vs = [] ∨ exists a, vs = [a] := by
  rcases vs with _ | ⟨a, _ | ⟨b, _ | ⟨c, _ | ⟨d, rest⟩⟩⟩⟩
  · exact Or.inl rfl
  · exact Or.inr ⟨a, rfl⟩
  · exact absurd rfl (h2 a b)
  · exact absurd rfl (h3 a b c)
  · exact absurd rfl (h4 a b c d rest)

theorem length_ofSextets (vs : List Nat) : (ofSextets vs).length = vs.length * 3 / 4 := by
  induction vs using ofSextets.induct with
  | case1 a b c d rest ih =>
      rw [ofSextets]
      simp only [List.length_cons, ih]
      omega
  | case2 a b c | case3 a b => simp [ofSextets]
  | case4 vs h4 h3 h2 =>
      rcases eq_nil_or_single h4 h3 h2 with rfl | ⟨a, rfl⟩
      · rfl
      · simp [ofSextets]

theorem whole_cons (a b c d : Nat) (rest : List Nat) :
    Whole (a :: b :: c :: d :: rest) ↔ Whole rest := by
  have hlength : (a :: b :: c :: d :: rest).length % 4 = rest.length % 4 := by
    simp only [List.length_cons]
    omega
  have hspare : spareBitsZero (a :: b :: c :: d :: rest) = spareBitsZero rest := by
    unfold spareBitsZero
    rw [hlength]
    cases rest with
    | nil => rfl
    | cons e rest => simp only [List.getLast?_cons_cons]
  constructor
  · rintro ⟨hlen, hzero⟩
    exact ⟨by rwa [hlength] at hlen, by rwa [hspare] at hzero⟩
  · rintro ⟨hlen, hzero⟩
    exact ⟨by rwa [hlength], by rwa [hspare]⟩

theorem whole_sextets (bs : Bytes) : Whole (sextets bs) := by
  induction bs using sextets.induct with
  | case1 a b c rest ih =>
      rw [sextets]
      exact (whole_cons _ _ _ _ _).mpr ih
  | case2 a b =>
      refine ⟨by simp [sextets], ?_⟩
      change (b.toNat % 16 * 4 % 4 == 0) = true
      rw [beq_iff_eq]
      omega
  | case3 a =>
      refine ⟨by simp [sextets], ?_⟩
      change (a.toNat % 4 * 16 % 16 == 0) = true
      rw [beq_iff_eq]
      omega
  | case4 => exact ⟨by decide, rfl⟩

theorem sextets_ofSextets {vs : List Nat} (hlt : forall v, v ∈ vs -> v < 64) (h : Whole vs) :
    sextets (ofSextets vs) = vs := by
  induction vs using ofSextets.induct with
  | case1 a b c d rest ih =>
      simp only [List.forall_mem_cons] at hlt
      rcases hlt with ⟨ha, hb, hc, hd, hrest⟩
      rw [ofSextets, sextets, ih hrest ((whole_cons a b c d rest).mp h)]
      simp only [UInt8.toNat_ofNat', List.cons.injEq, and_true]
      omega
  | case2 a b c =>
      simp only [List.forall_mem_cons] at hlt
      have hspare : (c % 4 == 0) = true := h.spare
      rw [beq_iff_eq] at hspare
      rw [ofSextets, sextets]
      simp only [UInt8.toNat_ofNat', List.cons.injEq, and_true]
      omega
  | case3 a b =>
      simp only [List.forall_mem_cons] at hlt
      have hspare : (b % 16 == 0) = true := h.spare
      rw [beq_iff_eq] at hspare
      rw [ofSextets, sextets]
      simp only [UInt8.toNat_ofNat', List.cons.injEq, and_true]
      omega
  | case4 vs h4 h3 h2 =>
      rcases eq_nil_or_single h4 h3 h2 with rfl | ⟨a, rfl⟩
      · rfl
      · exact absurd rfl h.length

/-!
# What is read is what is written
-/

theorem encode_ascii (bs : Bytes) : forall c, c ∈ encode bs -> c.val ≤ 127 := by
  intro c hc
  rcases List.mem_map.mp hc with ⟨v, hv, rfl⟩
  exact symbol_ascii (sextets_lt bs v hv)

theorem mem_alphabet_of_encode {bs : Bytes} {c : Char} (h : c ∈ encode bs) : c ∈ alphabet := by
  rcases List.mem_map.mp h with ⟨v, hv, rfl⟩
  exact mem_alphabet.mpr ⟨v, sextets_lt bs v hv, rfl⟩

theorem length_encode (bs : Bytes) : (encode bs).length = (4 * bs.length + 2) / 3 := by
  rw [encode, List.length_map, length_sextets]

theorem decode_bytes {text bs : Bytes} :
    decode text = .ok bs ↔ text = (encode bs).map Char.toUInt8 := by
  rw [decode_eq_ok, encode, List.map_map]
  constructor
  · rintro ⟨vs, hspells, hwhole, rfl⟩
    rcases spells_iff.mp hspells with ⟨hlt, rfl⟩
    rw [sextets_ofSextets hlt hwhole]
    rfl
  · rintro rfl
    exact ⟨sextets bs, spells_iff.mpr ⟨sextets_lt bs, rfl⟩, whole_sextets bs, ofSextets_sextets bs⟩

/-- A text is read as a byte string exactly when it is what would be written for it. -/
theorem decode_encode_iff {cs : List Char} {bs : Bytes} :
    decode (Utf8.encode (String.ofList cs)) = .ok bs ↔ cs = encode bs := by
  rw [decode_bytes, ← Utf8.encode_of_ascii (encode_ascii bs)]
  constructor
  · intro h
    exact String.ofList_injective (Utf8.encode_inj h)
  · rintro rfl
    rfl

end Base64Url
end Roster
