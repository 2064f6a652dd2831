import Roster.Proofs.Bytes.Base64Url
import Roster.Proofs.Bytes.Endian
import Roster.UniqueId

/-!
# The text of an id

Every id has one text, and around it may be blanks; no other text is taken for an id.
-/

namespace Roster
namespace Text

theorem trimStart_of_noBlank {cs : List Char} (h : forall c, c ∈ cs -> isBlank c = false) :
    trimStart cs = cs := by
  cases cs with
  | nil => rfl
  | cons c cs =>
      rw [trimStart, List.dropWhile_cons_of_neg]
      rw [h c List.mem_cons_self]
      exact Bool.false_ne_true

theorem trim_of_noBlank {cs : List Char} (h : forall c, c ∈ cs -> isBlank c = false) :
    trim cs = cs := by
  have hreverse : forall c, c ∈ cs.reverse -> isBlank c = false :=
    fun c hc => h c (List.mem_reverse.mp hc)
  rw [trim, trimStart_of_noBlank h, trimStart_of_noBlank hreverse, List.reverse_reverse]

end Text

namespace UniqueId

open Base64Url

/-!
# Eight bytes
-/

def ofBytes (bs : Bytes) : UniqueId :=
  ⟨UInt64.ofNat (Bytes.ofBigEndian bs)⟩

def bytes (id : UniqueId) : Bytes :=
  Bytes.bigEndian 8 id.raw.toNat

theorem ofBytes_bytes (id : UniqueId) : ofBytes id.bytes = id := by
  have hlt : id.raw.toNat < 256 ^ 8 := id.raw.toNat_lt
  unfold ofBytes bytes
  rw [Bytes.ofBigEndian_bigEndian, Nat.mod_eq_of_lt hlt, UInt64.ofNat_toNat]

theorem bytes_ofBytes {bs : Bytes} (h : bs.length = 8) : (ofBytes bs).bytes = bs := by
  have hlt := Bytes.ofBigEndian_lt bs
  rw [h] at hlt
  have hround := Bytes.bigEndian_ofBigEndian bs
  rw [h] at hround
  unfold ofBytes bytes
  rw [UInt64.toNat_ofNat_of_lt' hlt]
  exact hround

theorem length_bytes (id : UniqueId) : id.bytes.length = 8 :=
  Bytes.length_bigEndian 8 _

/-!
# Reading
-/

theorem parse_eq_ok {s : String} {id : UniqueId} :
    parse s = .ok id ↔ Text.trim s.toList = id.encode := by
  have hencode : id.encode = Base64Url.encode id.bytes := rfl
  rw [hencode, ← decode_encode_iff]
  unfold parse
  cases hdecode : decode (Utf8.encode (String.ofList (Text.trim s.toList))) with
  | error fault => exact iff_of_false (fun h => nomatch h) (fun h => nomatch h)
  | ok bs =>
      change (if bs.length = 8 then .ok (ofBytes bs) else .error _) = Except.ok id ↔ _
      rw [Except.ok.injEq]
      constructor
      · intro h
        split at h
        · rename_i hlength
          cases h
          exact (bytes_ofBytes hlength).symm
        · cases h
      · rintro rfl
        rw [if_pos id.length_bytes, ofBytes_bytes]

/-!
# Which texts are read
-/

def lastSymbols : List Char :=
  "AEIMQUYcgkosw048".toList

/-- Eleven symbols, the last of which has two low bits to spare. -/
structure Canonical (cs : List Char) : Prop where
  length : cs.length = 11
  symbols : forall c, c ∈ cs -> c ∈ alphabet
  last : forall c, cs.getLast? = some c -> c ∈ lastSymbols

theorem symbol_mem_lastSymbols {v : Nat} (h : v < 64) : symbol v ∈ lastSymbols ↔ v % 4 = 0 := by
  revert v
  decide

theorem length_encode_eq (id : UniqueId) : id.encode.length = 11 := by
  change (Base64Url.encode id.bytes).length = 11
  rw [Base64Url.length_encode, length_bytes]

theorem whole_of_eleven {vs : List Nat} (h : vs.length = 11) :
    Whole vs ↔ forall v, vs.getLast? = some v -> v % 4 = 0 := by
  have hspare : spareBitsZero vs = true ↔ forall v, vs.getLast? = some v -> v % 4 = 0 := by
    unfold spareBitsZero
    rw [h]
    cases vs.getLast? with
    | none => simp
    | some v => simp
  rw [← hspare]
  exact ⟨fun hwhole => hwhole.spare, fun hzero => ⟨by rw [h]; decide, hzero⟩⟩

theorem canonical_encode (id : UniqueId) : Canonical id.encode where
  length := id.length_encode_eq
  symbols := fun _ hc => mem_alphabet_of_encode hc
  last := by
    intro c hc
    change ((sextets id.bytes).map symbol).getLast? = some c at hc
    rw [List.getLast?_map] at hc
    rcases Option.map_eq_some_iff.mp hc with ⟨v, hv, rfl⟩
    have hlength : (sextets id.bytes).length = 11 := by
      rw [length_sextets, length_bytes]
    apply (symbol_mem_lastSymbols (sextets_lt _ v (List.mem_of_getLast? hv))).mpr
    exact (whole_of_eleven hlength).mp (whole_sextets _) v hv

theorem exists_values {cs : List Char} (h : forall c, c ∈ cs -> c ∈ alphabet) :
    exists vs : List Nat, (forall v, v ∈ vs -> v < 64) ∧ cs = vs.map symbol := by
  induction cs with
  | nil => exact ⟨[], List.forall_mem_nil _, rfl⟩
  | cons c cs ih =>
      rcases List.forall_mem_cons.mp h with ⟨hc, hcs⟩
      rcases mem_alphabet.mp hc with ⟨v, hv, rfl⟩
      rcases ih hcs with ⟨vs, hvs, rfl⟩
      exact ⟨v :: vs, List.forall_mem_cons.mpr ⟨hv, hvs⟩, rfl⟩

theorem Canonical.exists_encode {cs : List Char} (h : Canonical cs) :
    exists id : UniqueId, cs = id.encode := by
  rcases exists_values h.symbols with ⟨vs, hlt, rfl⟩
  have hlength : vs.length = 11 := by
    have heq := h.length
    rwa [List.length_map] at heq
  have hwhole : Whole vs := by
    apply (whole_of_eleven hlength).mpr
    intro v hv
    apply (symbol_mem_lastSymbols (hlt v (List.mem_of_getLast? hv))).mp
    apply h.last
    rw [List.getLast?_map, hv]
    rfl
  have hbytes : (ofSextets vs).length = 8 := by
    rw [length_ofSextets, hlength]
  refine ⟨ofBytes (ofSextets vs), ?_⟩
  change _ = (sextets (ofBytes (ofSextets vs)).bytes).map symbol
  rw [bytes_ofBytes hbytes, sextets_ofSextets hlt hwhole]

theorem isBlank_of_alphabet {c : Char} (h : c ∈ alphabet) : Text.isBlank c = false := by
  have hsymbol : forall v, v < 64 -> Text.isBlank (symbol v) = false := by
    decide
  rcases mem_alphabet.mp h with ⟨v, hv, rfl⟩
  exact hsymbol v hv

end UniqueId
end Roster
