import Mathlib.Data.List.Nodup
import Mathlib.Data.List.Perm.Subperm
import Roster.Config.File
import Roster.Proofs.Bytes.Utf8
import Roster.Proofs.Config
import Roster.Proofs.Toml.Document

/-!
# Configuration files load back

A file of some of the lines that are written for a configuration, in any order, is read as the
configuration that keeps their settings and has the defaults elsewhere.
-/

namespace Roster

/-!
# Entries by their keys
-/

namespace Toml.Entries

theorem lookup?_of_mem {entries : Entries} (hnodup : (entries.map Prod.fst).Nodup) {key : String}
    {item : Item} (h : (key, item) ∈ entries) : entries.lookup? key = some item := by
  induction entries with
  | nil => cases h
  | cons entry entries ih =>
      rw [List.map_cons, List.nodup_cons] at hnodup
      unfold lookup?
      rcases List.mem_cons.mp h with rfl | hmem
      · rw [List.find?_cons_of_pos]
        · rfl
        · exact beq_self_eq_true key
      · have hne : ¬(entry.1 == key) = true := by
          intro heq
          rw [beq_iff_eq.mp heq] at hnodup
          exact hnodup.1 (List.mem_map.mpr ⟨_, hmem, rfl⟩)
        rw [List.find?_cons_of_neg]
        · exact ih hnodup.2 hmem
        · exact hne

end Toml.Entries

namespace Config

open Toml

namespace Setting

def key : Setting → String
  | number key _ | text key _ => key

def item : Setting → Item
  | number _ value => .integer value
  | text _ value => .text value

def pair (s : Setting) : String × Item :=
  (s.key, s.item)

theorem exists_entry {s : Setting} (hbare : Bare s.key) (hfits : s.fits = true) :
    exists e : PlainEntry, e.line = s.line ∧ e.pair = s.pair := by
  cases s with
  | number key value =>
      have hreads := reads_number (n := value) (of_decide_eq_true hfits)
      exact ⟨⟨key, _, _, hbare, hreads⟩, rfl, rfl⟩
  | text key value =>
      have hreads := reads_text value.toList
      rw [String.ofList_toList] at hreads
      exact ⟨⟨key, _, _, hbare, hreads⟩, rfl, rfl⟩

theorem exists_entries {kept : List Setting}
    (h : forall s, s ∈ kept -> Bare s.key ∧ s.fits = true) :
    exists es : List PlainEntry,
      es.flatMap PlainEntry.line = kept.flatMap line ∧ es.map PlainEntry.pair = kept.map pair := by
  induction kept with
  | nil => exact ⟨[], rfl, rfl⟩
  | cons s kept ih =>
      rcases List.forall_mem_cons.mp h with ⟨⟨hbare, hfits⟩, hkept⟩
      rcases exists_entry hbare hfits with ⟨e, hline, hpair⟩
      rcases ih hkept with ⟨es, hlines, hpairs⟩
      refine ⟨e :: es, ?_, ?_⟩
      · rw [List.flatMap_cons, List.flatMap_cons, hline, hlines]
      · rw [List.map_cons, List.map_cons, hpair, hpairs]

theorem read?_lines {kept : List Setting} (h : forall s, s ∈ kept -> Bare s.key ∧ s.fits = true)
    (hnodup : (kept.map key).Nodup) :
    Document.read? (kept.flatMap line) = some (kept.map pair) := by
  rcases exists_entries h with ⟨es, hlines, hpairs⟩
  have hkeys : es.map PlainEntry.key = kept.map key := by
    have hfst := congrArg (List.map Prod.fst) hpairs
    rwa [List.map_map, List.map_map] at hfst
  rw [← hlines, ← hpairs, Document.read?_flatMap es]
  rw [hkeys]
  exact hnodup

end Setting

/-!
# Settings that are kept
-/

/-- The configuration with the settings that have these keys, and the defaults elsewhere. -/
def keeping (c : Config) (keys : List String) : Config :=
  let standard : Config := {}
  { heartbeatSecs :=
      if "heartbeat_interval_secs" ∈ keys then c.heartbeatSecs else standard.heartbeatSecs
    settleMillis := if "settle_delay_millis" ∈ keys then c.settleMillis else standard.settleMillis
    settleAttempts :=
      if "max_settle_attempts" ∈ keys then c.settleAttempts else standard.settleAttempts
    backoffBaseMillis :=
      if "backoff_base_millis" ∈ keys then c.backoffBaseMillis else standard.backoffBaseMillis
    backoffMaxMillis :=
      if "backoff_max_millis" ∈ keys then c.backoffMaxMillis else standard.backoffMaxMillis
    freshnessSecs :=
      if "freshness_window_secs" ∈ keys then c.freshnessSecs else standard.freshnessSecs
    cookieName := if "tracking_cookie_name" ∈ keys then c.cookieName else standard.cookieName
    serverRegion := if "server_region" ∈ keys then c.serverRegion else standard.serverRegion
    userRegion := if "tracking_region" ∈ keys then c.userRegion else standard.userRegion }

def keys : List String :=
  [ "heartbeat_interval_secs", "settle_delay_millis", "max_settle_attempts", "backoff_base_millis",
    "backoff_max_millis", "freshness_window_secs", "tracking_cookie_name", "server_region",
    "tracking_region" ]

theorem keys_eq (c : Config) : c.settings.map Setting.key = keys := rfl

theorem keeping_keys (c : Config) : c.keeping keys = c := rfl

theorem nodup_keys : keys.Nodup := by
  decide

theorem bare_keys {key : String} (h : key ∈ keys) : Bare key := by
  have hall : keys.all (fun key => !key.toList.isEmpty && key.toList.all isBare) = true := by
    decide
  have hkey := List.all_eq_true.mp hall key h
  rw [Bool.and_eq_true, List.all_eq_true] at hkey
  refine ⟨fun hnil => ?_, hkey.2⟩
  rw [hnil] at hkey
  exact Bool.false_ne_true hkey.1

section

variable {c : Config} {kept : List Setting}

theorem nodup_kept (hkept : kept.Subperm c.settings) : (kept.map Setting.key).Nodup := by
  rcases hkept with ⟨settings, hperm, hsub⟩
  have hnodup := nodup_keys.sublist (c.keys_eq ▸ hsub.map Setting.key)
  exact (hperm.map Setting.key).nodup_iff.mp hnodup

theorem lookup?_kept (hkept : kept.Subperm c.settings) {s : Setting} (hs : s ∈ c.settings) :
    Entries.lookup? (kept.map Setting.pair) s.key =
      if s.key ∈ kept.map Setting.key then some s.item else none := by
  have hfst : (kept.map Setting.pair).map Prod.fst = kept.map Setting.key := by
    rw [List.map_map]
    rfl
  by_cases hkey : s.key ∈ kept.map Setting.key
  · rw [if_pos hkey]
    rcases List.mem_map.mp hkey with ⟨s', hs', heq⟩
    have hnodup : (c.settings.map Setting.key).Nodup := nodup_keys
    have hsame : s' = s := List.inj_on_of_nodup_map hnodup (hkept.subset hs') hs heq
    apply Entries.lookup?_of_mem
    · rw [hfst]
      exact nodup_kept hkept
    · exact List.mem_map.mpr ⟨s, hsame ▸ hs', rfl⟩
  · rw [if_neg hkey]
    apply Entries.lookup?_eq_none.mpr
    rw [hfst]
    exact hkey

end

/-!
# Reading what was kept
-/

section

variable {entries : Entries} {key : String} {kept : Prop} [Decidable kept]

theorem readNat_kept {n range : Nat}
    (h : entries.lookup? key = if kept then some (.integer n) else none) (hrange : n < range)
    (standard : Nat) : readNat entries key range standard = .ok (if kept then n else standard) := by
  unfold readNat
  rw [h]
  by_cases hkept : kept
  · rw [if_pos hkept, if_pos hkept]
    exact if_pos ⟨Int.natCast_nonneg n, Int.ofNat_lt.mpr hrange⟩
  · rw [if_neg hkept, if_neg hkept]

theorem readUInt64_kept {n : UInt64}
    (h : entries.lookup? key = if kept then some (.integer n.toNat) else none)
    (standard : UInt64) : readUInt64 entries key standard = .ok (if kept then n else standard) := by
  unfold readUInt64
  rw [readNat_kept h n.toNat_lt]
  split
  · exact congrArg Except.ok UInt64.ofNat_toNat
  · exact congrArg Except.ok UInt64.ofNat_toNat

theorem readUInt32_kept {n : UInt32}
    (h : entries.lookup? key = if kept then some (.integer n.toNat) else none)
    (standard : UInt32) : readUInt32 entries key standard = .ok (if kept then n else standard) := by
  unfold readUInt32
  rw [readNat_kept h n.toNat_lt]
  split
  · exact congrArg Except.ok UInt32.ofNat_toNat
  · exact congrArg Except.ok UInt32.ofNat_toNat

theorem readText_kept {s : String}
    (h : entries.lookup? key = if kept then some (.text s) else none) (standard : String) :
    readText entries key standard = .ok (if kept then s else standard) := by
  unfold readText
  rw [h]
  by_cases hkept : kept
  · rw [if_pos hkept, if_pos hkept]
  · rw [if_neg hkept, if_neg hkept]

end

section

variable {c : Config} {kept : List Setting}

theorem ofEntries_kept (hkept : kept.Subperm c.settings) :
    ofEntries (kept.map Setting.pair) = .ok (c.keeping (kept.map Setting.key)) := by
  have hlookup (s : Setting) (hs : s ∈ c.settings) := lookup?_kept hkept hs
  simp only [settings, List.forall_mem_cons, Setting.key, Setting.item] at hlookup
  rcases hlookup with ⟨hheart, hsettle, hattempts, hbase, hmax, hfresh, hcookie, hserver, huser, _⟩
  unfold ofEntries
  dsimp only
  rw [readUInt64_kept hheart, readUInt64_kept hsettle, readUInt32_kept hattempts,
    readUInt64_kept hbase, readUInt64_kept hmax, readUInt64_kept hfresh, readText_kept hcookie,
    readText_kept hserver, readText_kept huser]
  rfl

theorem load_eq_parse (text : List Char) :
    load (.bytes (Utf8.encode (String.ofList text))) = parse text := by
  unfold load
  dsimp only
  rw [Utf8.decode_encode]
  exact congrArg parse (String.toList_ofList)

theorem parse_lines (hfits : c.settings.all Setting.fits = true)
    (hkept : kept.Subperm c.settings) :
    parse (kept.flatMap Setting.line) =
      (c.keeping (kept.map Setting.key)).validate.map fun _ => c.keeping (kept.map Setting.key) := by
  have hread : Document.read? (kept.flatMap Setting.line) = some (kept.map Setting.pair) := by
    apply Setting.read?_lines
    · intro s hs
      have hmem := hkept.subset hs
      exact ⟨bare_keys (c.keys_eq ▸ List.mem_map_of_mem hmem), List.all_eq_true.mp hfits s hmem⟩
    · exact nodup_kept hkept
  unfold parse
  rw [hread]
  dsimp only
  rw [ofEntries_kept hkept]
  change ((c.keeping (kept.map Setting.key)).validate.bind fun _ => _) = _
  cases (c.keeping (kept.map Setting.key)).validate with
  | error fault => rfl
  | ok valid => rfl

/-- A file of lines that are written for a configuration, some or all of them in any order, is loaded
as the configuration that has these settings and the defaults elsewhere, or fails as that
configuration fails to be valid.  So a valid configuration that is saved is loaded as it was. -/
theorem load_saved (hfits : c.settings.all Setting.fits = true) :
    (forall kept : List Setting, kept.Subperm c.settings ->
      load (.bytes (Utf8.encode (String.ofList (kept.flatMap Setting.line)))) =
        (c.keeping (kept.map Setting.key)).validate.map fun _ =>
          c.keeping (kept.map Setting.key)) ∧
    (c.validate = .ok () -> exists text, c.save true = .ok text ∧
      load (.bytes (Utf8.encode (String.ofList text))) = .ok c) := by
  constructor
  · intro kept hkept
    rw [load_eq_parse, parse_lines hfits hkept]
  · intro hvalid
    refine ⟨c.settings.flatMap Setting.line, ?_, ?_⟩
    · unfold save write
      rw [if_pos hfits]
      rfl
    · rw [load_eq_parse, parse_lines hfits (List.Subperm.refl _), keys_eq, keeping_keys, hvalid]
      rfl

end

/-- A valid configuration with texts of quotes in runs, line ends, controls and escapes. -/
def quoted : Config where
  settleMillis := 9223372036854775807
  backoffMaxMillis := 9223372036854775807
  cookieName := "\n\"\"\"\"'''\\"
  serverRegion := "'\"\"\n"
  userRegion := "\r\u0000\t\"'"

/-- It is loaded as it was saved, and two of its lines are loaded by themselves. -/
theorem quoted_loads :
    quoted.settings.all Setting.fits = true ∧ quoted.validate = .ok () ∧
      (exists text, quoted.save true = .ok text ∧
        load (.bytes (Utf8.encode (String.ofList text))) = .ok quoted) ∧
      (quoted.settings.reverse.take 2).Subperm quoted.settings ∧
      load (.bytes (Utf8.encode (String.ofList
        ((quoted.settings.reverse.take 2).flatMap Setting.line)))) =
          .ok { ({} : Config) with
            serverRegion := quoted.serverRegion, userRegion := quoted.userRegion } := by
  have hfits : quoted.settings.all Setting.fits = true := by decide
  have hvalid : quoted.validate = .ok () := by decide
  have hkept : (quoted.settings.reverse.take 2).Subperm quoted.settings :=
    (List.take_sublist 2 _).subperm.trans (List.reverse_perm _).subperm
  refine ⟨hfits, hvalid, (load_saved hfits).2 hvalid, hkept, ?_⟩
  rw [(load_saved hfits).1 _ hkept]
  rfl

end Config
end Roster
