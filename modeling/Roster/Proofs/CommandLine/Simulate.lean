import Roster.Proofs.CommandLine.Output
import Roster.Proofs.Config
import Roster.Proofs.Rehearsal.Race
import Roster.Proofs.Time.Millis
import Roster.Proofs.UniqueId.Text

/-!
# Simulated clusters

The servers of a simulation have ids that tell them apart.  They are made one after the other, race
for their numbers, and are numbered from zero in the order in which they were made, whatever the
clock of the system shows meanwhile.  This is what is printed, line by line.
-/

namespace Roster
namespace CommandLine

open Interleaving (Fleet)
open Rehearsal (Hosts Run Session Step World)

/-!
# Names
-/

def nodeId (index : Nat) : String :=
  s!"{1000 + index}-sim-node"

theorem toList_nodeId (index : Nat) :
    (nodeId index).toList = Text.decimal (1000 + index) ++ "-sim-node".toList :=
  String.toList_append

theorem nodeHandle_injective {i j : Nat} (h : nodeHandle i = nodeHandle j) : i = j :=
  Text.decimal_injective (congrArg String.toList h)

theorem nodeId_injective {i j : Nat} (h : nodeId i = nodeId j) : i = j := by
  have hlists := congrArg String.toList h
  rw [toList_nodeId, toList_nodeId] at hlists
  exact Nat.add_left_cancel (Text.decimal_injective (List.append_cancel_right hlists))

theorem isReserved_of_isDigit {c : Char} (h : Text.isDigit c = true) :
    ServerId.isReserved c = false := by
  have hne (d : Char) (hd : Text.isDigit d = false) : (c == d) = false := by
    refine beq_eq_false_iff_ne.mpr fun heq => ?_
    rw [heq, hd] at h
    cases h
  unfold ServerId.isReserved
  rw [hne '@' rfl, hne ':' rfl, hne '/' rfl, Text.isBlank_of_isDigit h]
  rfl

/-- The name of a simulated server has no blanks, and only one character that an id may not hold. -/
theorem normalize_nodeName (index : Nat) :
    ServerId.normalize (nodeName index).toList = (nodeId index).toList := by
  have hname : (nodeName index).toList = Text.decimal (1000 + index) ++ "@sim-node".toList :=
    String.toList_append
  have hdigits := Text.allDigits_decimal (1000 + index)
  have hhost : "@sim-node".toList.any Text.isBlank = false := by decide
  have hblank : forall c, c ∈ (nodeName index).toList -> Text.isBlank c = false := by
    intro c hc
    rw [hname] at hc
    rcases List.mem_append.mp hc with hc | hc
    · exact Text.isBlank_of_isDigit (hdigits c hc)
    · exact Bool.eq_false_of_not_eq_true (List.any_eq_false.mp hhost c hc)
  have hkept : ((Text.decimal (1000 + index)).map fun c => if ServerId.isReserved c then '-' else c) =
      Text.decimal (1000 + index) := by
    refine (List.map_congr_left fun c hc => ?_).trans (List.map_id _)
    rw [isReserved_of_isDigit (hdigits c hc)]
    rfl
  rw [ServerId.normalize, Text.trim_of_noBlank hblank, hname, List.map_append, hkept, toList_nodeId]
  rfl

theorem identify_nodeName (index : Nat) :
    ServerId.identify (.name (nodeName index)) = .ok ⟨nodeId index⟩ := by
  unfold ServerId.identify ServerId.ofName
  dsimp only
  rw [normalize_nodeName]
  cases hid : (nodeId index).toList with
  | nil =>
      rw [toList_nodeId, List.append_eq_nil_iff] at hid
      exact absurd hid.1 (Text.decimal_ne_nil _)
  | cons c cs =>
      dsimp only
      rw [← hid, String.ofList_toList]

theorem fits_nodeId {index : Nat} (h : index < UniqueId.serverRange) :
    Stored.Fits (nodeId index) := by
  have hdigits : (Text.decimal (1000 + index)).length ≤ 5 := by
    rw [Text.decimal_eq]
    refine (Nat.length_toDigits_le_iff (by decide) (by decide)).mpr ?_
    unfold UniqueId.serverRange at h
    omega
  have hbytes := Utf8.length_encode_ofList_le (nodeId index).toList
  rw [String.ofList_toList, toList_nodeId, List.length_append] at hbytes
  change _ ≤ 4 * (_ + 9) at hbytes
  unfold Stored.Fits
  omega

def servers (config : Config) (n : Nat) (hn : n ≤ UniqueId.serverRange) : Fleet (Fin n) where
  member := fun i => ⟨⟨nodeId i⟩, config⟩
  region := config.serverRegion
  region_eq := fun _ => rfl
  id_injective := fun _ _ h => Fin.ext (nodeId_injective h)
  fits := fun i => fits_nodeId (Nat.lt_of_lt_of_le i.isLt hn)

theorem create_server {config : Config} (hconfig : config.validate = .ok ()) (index : Nat) :
    Member.create (.name (nodeName index)) config = .ok ⟨⟨nodeId index⟩, config⟩ := by
  unfold Member.create
  rw [hconfig, identify_nodeName]

/-!
# Making the servers
-/

variable {config : Config} {shows : Nat → Instant} {k : Nat} {w : World}

/-- The first servers have been made, and none of them has begun to register. -/
structure Making (config : Config) (shows : Nat → Instant) (k : Nat) (w : World) : Prop where
  few : k ≤ UniqueId.serverRange
  hosted : exists v, Hosts (servers config k few) (fun i => nodeHandle i) shows w (fun _ => {}) v ∧
    v.store = {}
  length_nodes : w.nodes.length = k

theorem Making.forgotten (h : Making config shows k w) :
    Making config shows k { w with calls := [], events := [] } := by
  rcases h.hosted with ⟨v, hhosts, hstore⟩
  exact { h with hosted := ⟨v, hhosts.forgotten, hstore⟩ }

def maker (config : Config) (index : Nat) : Step :=
  .command (.makeMember (nodeHandle index) (.name (nodeName index)) 0 config)

theorem advance_makeMember {source : ServerId.Source} {m : Member} {t : Instant} {w' : World}
    (name : String) (hclock : w.readClock? = some (t, w'))
    (hcreate : Member.create source config = .ok m) (hconfig : config.Valid) :
    exists tracker, (Run.makeMember name source 0 config).advance w =
      ({ w' with
          nodes := w'.nodes ++ [{ registry := 0, member := some m, tracker }]
          members := World.assign name w'.nodes.length w'.members },
        .finished (.text m.id.text)) := by
  unfold Run.makeMember Run.newTracker
  rw [hcreate, hconfig.window?_eq]
  simp only [bind, Run.get, Run.bind, Run.advance, hclock, Run.demand, Run.set, Run.modify, pure]
  exact ⟨_, rfl⟩

theorem Making.make (hconfig : config.validate = .ok ()) (h : Making config shows k w)
    (hk : k < UniqueId.serverRange) :
    exists w', (Run.makeMember (nodeHandle k) (.name (nodeName k)) 0 config).advance w =
        (w', .finished (.text (nodeId k))) ∧
      Making config shows (k + 1) w' := by
  rcases h.hosted with ⟨v, hbefore, hstore⟩
  rcases hbefore.exists_reading with ⟨w₁, hread, hhosts, hnodes⟩
  rcases advance_makeMember (nodeHandle k) hread (create_server hconfig k)
    ((Config.validate_eq_ok config).mp hconfig) with ⟨tracker, hmake⟩
  have hlength : w₁.nodes.length = k := hnodes ▸ h.length_nodes
  rw [hlength] at hmake
  have hearlier (i : Fin (k + 1)) (hi : i.val ≠ k) : i.val < k :=
    Nat.lt_of_le_of_ne (Nat.le_of_lt_succ i.isLt) hi
  refine ⟨_, hmake, hk, ⟨_, { hhosts with named := fun i => ?_, node := fun i => ?_ }, hstore⟩, ?_⟩
  · dsimp only
    rw [World.lookup_assign]
    by_cases hi : i.val = k
    · rw [hi, if_pos rfl]
    · rw [if_neg fun hhandle => hi (nodeHandle_injective hhandle).symm]
      exact hhosts.named ⟨i.val, hearlier i hi⟩
  · dsimp only
    by_cases hi : i.val = k
    · have hlast : i.val = w₁.nodes.length := hi.trans hlength.symm
      rw [hlast, List.getElem?_concat_length]
      exact ⟨_, rfl, rfl,
        congrArg (fun index => some (⟨⟨nodeId index⟩, config⟩ : Member)) hi.symm, rfl⟩
    · rw [List.getElem?_append_left (hlength.symm ▸ hearlier i hi)]
      exact hhosts.node ⟨i.val, hearlier i hi⟩
  · dsimp only
    rw [List.length_append, hlength]
    rfl

theorem Making.replies (hconfig : config.validate = .ok ()) (m k : Nat)
    (hm : k + m ≤ UniqueId.serverRange) (w : World) (h : Making config shows k w) :
    exists w', Making config shows (k + m) w' ∧ forall rest,
      Session.replies { world := w } ((List.range' k m).map (maker config) ++ rest) =
        (List.range' k m).map (fun i => .text (nodeId i)) ++
          Session.replies { world := w' } rest := by
  induction m generalizing k w with
  | zero => exact ⟨w, h, fun _ => rfl⟩
  | succ m ih =>
      rcases h.make hconfig (by omega) with ⟨w₁, hmake, h₁⟩
      have hstep := Session.step_of_finished (s := { world := w }) (Session.start_command
        (c := .makeMember (nodeHandle k) (.name (nodeName k)) 0 config) hmake)
      rcases ih (k + 1) (by omega) _ h₁.forgotten with ⟨w', h', hreplies⟩
      rw [Nat.add_right_comm, Nat.add_assoc] at h'
      refine ⟨w', h', fun rest => ?_⟩
      rw [List.range'_succ, List.map_cons, List.map_cons, List.cons_append, List.cons_append, maker,
        Session.replies_cons hstep, hreplies rest]

/-!
# The race
-/

theorem making_start (env : Environment) (config : Config) :
    Making config env.clock 0 (session env).world where
  few := Nat.zero_le _
  hosted := by
    refine ⟨⟨0, {}, [], 0⟩, ?_, rfl⟩
    exact {
      now := rfl
      system := rfl
      readings := rfl
      stores := rfl
      hooks := rfl
      signals := rfl
      named := fun i => i.elim0
      node := fun i => i.elim0 }
  length_nodes := rfl

theorem Making.racing (h : Making config shows k w) :
    Rehearsal.Racing (servers config k h.few) (fun i => nodeHandle i) shows 0 w (fun _ => {})
      fun _ => none where
  hosted := by
    rcases h.hosted with ⟨v, hhosts, hstore⟩
    refine ⟨v, hhosts, by rw [hstore], ?_⟩
    rw [hstore]
    exact .empty rfl fun key => rfl
  dense := .start
  inactive := fun _ _ => rfl

theorem competes_servers (hconfig : config.Valid) (hk : k ≤ UniqueId.serverRange) :
    Rehearsal.Competes (servers config k hk) config.settleDelay.millis where
  few := hk
  attempts_ne := fun _ => hconfig.attempts_ne_zero
  delay_eq := fun _ => rfl

theorem map_range {α : Type} (n : Nat) (f : Nat → α) :
    (List.range n).map f = (List.finRange n).map fun i => f i.val := by
  rw [← List.map_coe_finRange_eq_range, List.map_map]
  rfl

def entryAt (times : Nat → Instant) (index : Nat) : Registration :=
  ⟨nodeId index, UInt32.ofNat index, times index⟩

theorem replies_simulation (env : Environment) (hconfig : config.validate = .ok ()) {nodes : Nat}
    (hpos : 0 < nodes) (hnodes : nodes ≤ UniqueId.serverRange) :
    exists time live times,
      (session env).replies ((List.range nodes).map (maker config) ++
          [.join ((List.range nodes).map fun i => (0, [.command (.activate (nodeHandle i))])),
            .command (.allServers (nodeHandle 0))]) =
        (List.range nodes).map (fun i => .text (nodeId i)) ++
          [.scripts ((List.range nodes).map fun i => [(.number (UInt32.ofNat i), time)]),
            .servers live] ∧
      live.mergeSort (·.number ≤ ·.number) = (List.range nodes).map (entryAt times) := by
  have hF := competes_servers ((Config.validate_eq_ok config).mp hconfig) hnodes
  rcases Making.replies hconfig nodes 0 (by rwa [Nat.zero_add]) _ (making_start env config) with
    ⟨w₁, h₁, hmakers⟩
  rw [← List.range_eq_range'] at hmakers
  rw [Nat.zero_add] at h₁
  rcases h₁.racing.step hF (Nat.ne_of_gt hpos) with ⟨w₂, standing, es, time, hrace, h₂⟩
  rcases h₂.forgotten.listing hF ⟨0, hpos⟩ with ⟨w₃, live, times, hlist, hsorted⟩
  refine ⟨time, live, fun i => if hi : i < nodes then times ⟨i, hi⟩ else .epoch, ?_, ?_⟩
  · refine (hmakers _).trans (congrArg _ ?_)
    rw [map_range, map_range]
    refine (Session.replies_cons hrace _).trans (congrArg _ ?_)
    exact Session.replies_cons (Session.step_of_finished (Session.start_command hlist)) []
  · rw [hsorted, map_range]
    refine List.map_congr_left fun i _ => ?_
    rw [entryAt, dif_pos i.isLt]
    rfl

theorem madeIds_texts {ι : Type} (id : ι → String) (is : List ι) :
    madeIds (is.map fun i => .text (id i)) = .ok (is.map id) := by
  induction is with
  | nil => rfl
  | cons i is ih =>
      rw [List.map_cons, madeIds, ih]
      rfl

theorem simulate_eq (env : Environment) {config : Config} (hconfig : config.validate = .ok ())
    {nodes : Nat} (hpos : 0 < nodes) (hnodes : nodes ≤ UniqueId.serverRange) :
    exists times,
      simulate env config nodes =
        ((List.range nodes).map (fun i => .settled (nodeId i) (UInt32.ofNat i)) ++
          [.listing ((List.range nodes).map (entryAt times))], none) := by
  rcases replies_simulation env hconfig hpos hnodes with ⟨time, live, times, hreplies, hsorted⟩
  have hlength : ((List.range nodes).map fun i => Rehearsal.Reply.text (nodeId i)).length = nodes := by
    rw [List.length_map, List.length_range]
  refine ⟨times, ?_⟩
  unfold maker at hreplies
  unfold simulate
  rw [if_neg (Nat.ne_of_gt hpos)]
  dsimp only
  rw [hreplies, List.take_left' hlength, List.drop_left' hlength, madeIds_texts]
  dsimp only
  rw [List.zip_map', List.map_map, hsorted]
  rfl

/-!
# What is printed
-/

def shown (index : Nat) : String :=
  String.ofList (List.replicate (20 - (nodeId index).length) ' ') ++ nodeId index ++ "  " ++
    toString index

def listed (nodes : Nat) (time : Instant) (index : Nat) : List String :=
  [ "  \x7b",
    "    \"server_id\": \"" ++ nodeId index ++ "\",",
    "    \"server_number\": " ++ toString index ++ ",",
    "    \"registered_at\": \"" ++ time.text ++ "\"",
    if index + 1 < nodes then "  \x7d," else "  \x7d" ]

theorem plain_nodeId (index : Nat) : Output.Plain (nodeId index).toList := by
  have hhost : Output.Plain "-sim-node".toList := Output.plain_of_all rfl
  rw [toList_nodeId]
  exact Output.Plain.append
    (fun c hc => Output.jsonChar_of_isDigit (Text.allDigits_decimal _ c hc)) hhost

theorem toString_place {index : Nat} (h : index < UniqueId.serverRange) :
    toString (UInt32.ofNat index) = toString index :=
  congrArg Nat.repr (toNat_place h)

theorem lines_settled {index : Nat} (h : index < UniqueId.serverRange) :
    Output.lines (.settled (nodeId index) (UInt32.ofNat index)) = [shown index] := by
  change [Output.alignRight 20 (nodeId index) ++ "  " ++ toString (UInt32.ofNat index)] = _
  rw [toString_place h]
  rfl

theorem entryLines_entryAt (times : Nat → Instant) {nodes index : Nat}
    (h : index < UniqueId.serverRange) :
    Output.entryLines (fun t => Output.jsonText t.text) (entryAt times index) (index + 1 < nodes) =
      listed nodes (times index) index := by
  have hid := Output.jsonText_of_plain (plain_nodeId index)
  have htime : Output.jsonText (times index).text = "\"" ++ (times index).text ++ "\"" := by
    refine Output.jsonText_of_plain ?_
    rw [Instant.text, String.toList_ofList]
    exact Output.plain_write _
  have hopen : "    \"server_id\": \"" = "    \"server_id\": " ++ "\"" := by decide
  have hopen' : "    \"registered_at\": \"" = "    \"registered_at\": " ++ "\"" := by decide
  have hclose : "\"," = "\"" ++ "," := by decide
  unfold Output.entryLines listed entryAt
  dsimp only
  rw [hid, htime, toString_place h, hopen, hopen', hclose]
  simp only [String.append_assoc, decide_eq_true_eq]

/-- A simulation shows each server with its place for a number, and then prints them all by number. -/
theorem simulate_dense (env : Environment) {config : Config} (hconfig : config.validate = .ok ())
    {nodes : Nat} (hpos : 0 < nodes) (hnodes : nodes ≤ 65536) :
    exists times,
      simulate env config nodes =
        ((List.range nodes).map (fun i => .settled (nodeId i) (UInt32.ofNat i)) ++
          [.listing ((List.range nodes).map (entryAt times))], none) ∧
      (simulate env config nodes).1.flatMap Output.lines =
        (List.range nodes).map shown ++
          "[" :: ((List.range nodes).flatMap (fun i => listed nodes (times i) i) ++ ["]"]) := by
  rcases simulate_eq env hconfig hpos hnodes with ⟨times, hsimulate⟩
  refine ⟨times, hsimulate, ?_⟩
  have hplace (i : Nat) (hi : i ∈ List.range nodes) : i < UniqueId.serverRange :=
    Nat.lt_of_lt_of_le (List.mem_range.mp hi) hnodes
  have hne : (List.range nodes).map (entryAt times) ≠ [] := by
    rw [Ne, List.map_eq_nil_iff, List.range_eq_nil]
    exact Nat.ne_of_gt hpos
  have hsettled : ((List.range nodes).map fun i =>
        (Output.settled (nodeId i) (UInt32.ofNat i))).flatMap Output.lines =
      (List.range nodes).map shown := by
    rw [List.flatMap_map, List.flatMap_congr fun i hi => lines_settled (hplace i hi)]
    exact List.map_eq_flatMap.symm
  have hlisted : Output.entriesLines (fun t => Output.jsonText t.text)
        ((List.range nodes).map (entryAt times)) =
      (List.range nodes).flatMap fun i => listed nodes (times i) i := by
    rw [List.range_eq_range', Output.entriesLines_places, ← List.range_eq_range', Nat.zero_add]
    exact List.flatMap_congr fun i hi => entryLines_entryAt times (hplace i hi)
  rw [hsimulate, List.flatMap_append, hsettled, List.flatMap_singleton, Output.lines,
    Output.listingLines_of_ne_nil _ hne, hlisted]

def reversed (n : Nat) : Instant :=
  (Instant.epoch.addMillis? (-(n : Int))).getD .epoch

theorem simulate_three :
    Config.validate {} = .ok () ∧ exists times : Nat → Instant,
      (simulate ⟨.name "cli@host", .epoch, reversed, fun _ => .missing⟩ {} 3).1.flatMap
          Output.lines =
        [ "       1000-sim-node  0",
          "       1001-sim-node  1",
          "       1002-sim-node  2",
          "[" ] ++ listed 3 (times 0) 0 ++ listed 3 (times 1) 1 ++ listed 3 (times 2) 2 ++ ["]"] := by
  have hconfig : Config.validate {} = .ok () := (Config.validate_eq_ok {}).mpr Config.valid_default
  rcases simulate_dense ⟨.name "cli@host", .epoch, reversed, fun _ => .missing⟩ hconfig
    (by decide : 0 < 3) (by decide) with ⟨times, -, hlines⟩
  refine ⟨hconfig, times, ?_⟩
  rw [hlines]
  rfl

end CommandLine
end Roster
