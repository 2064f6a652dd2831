import Roster.CommandLine.Args
import Roster.Config.File
import Roster.Rehearsal.Session

/-!
# Carrying out commands

`node` registers one server with a store in memory, issues ids and deregisters; `simulate` lets
several servers race for their numbers and lists what was registered; `decode` takes an id
apart.  The servers run in virtual time that begins at a given moment.
-/

namespace Roster
namespace CommandLine

open Rehearsal (Session Step Reply)

/-! # Output -/

inductive Output where
  | registered (id : String) (number : UInt32)
  | issued (id : UniqueId)
  | deregistered (id : String)
  | settled (id : String) (number : UInt32)
  | unsettled (id : String) (error : Error)
  | listing (entries : List Registration)
  | issuer (server : UInt16)
  | issuedAt (id : UniqueId) (time : Option Instant)

namespace Output

def alignRight (width : Nat) (s : String) : String :=
  String.ofList (List.replicate (width - s.length) ' ') ++ s

def alignLeft (width : Nat) (s : String) : String :=
  s ++ String.ofList (List.replicate (width - s.length) ' ')

def jsonChar (c : Char) : List Char :=
  if c = '"' then ['\\', '"']
  else if c = '\\' then ['\\', '\\']
  else if c = '\n' then ['\\', 'n']
  else if c = '\r' then ['\\', 'r']
  else if c = '\t' then ['\\', 't']
  else if c = '\x08' then ['\\', 'b']
  else if c = '\x0c' then ['\\', 'f']
  else if c.toNat < 0x20 then
    ['\\', 'u', '0', '0', Bytes.hexDigit (c.toNat / 16), Bytes.hexDigit (c.toNat % 16)]
  else [c]

def jsonText (s : String) : String :=
  String.ofList ('"' :: (s.toList.flatMap jsonChar ++ ['"']))

def entryLines (time : Instant → String) (entry : Registration) (comma : Bool) : List String :=
  [ "  \x7b",
    "    \"server_id\": " ++ jsonText entry.serverId ++ ",",
    "    \"server_number\": " ++ toString entry.number ++ ",",
    "    \"registered_at\": " ++ time entry.claimedAt,
    if comma then "  \x7d," else "  \x7d" ]

def entriesLines (time : Instant → String) : List Registration → List String
  | [] => []
  | [entry] => entryLines time entry false
  | entry :: rest => entryLines time entry true ++ entriesLines time rest

def listingLines (time : Instant → String) : List Registration → List String
  | [] => ["[]"]
  | entries => ["["] ++ entriesLines time entries ++ ["]"]

def lines : Output → List String
  | registered id number => [s!"Registered {id} as server {number}"]
  | issued id => [id.text]
  | deregistered id => [s!"Deregistered {id}"]
  | settled id number => [s!"{alignRight 20 id}  {number}"]
  | unsettled id error => [s!"{alignRight 20 id}  failed: {error.message}"]
  | listing entries => listingLines (fun t => jsonText t.text) entries
  | issuer server => [alignLeft 14 "server number:" ++ s!" {server}"]
  | issuedAt _ (some time) =>
      [alignLeft 14 "issued at:" ++ " " ++ String.ofList (Timestamp.writeWithOffset time)]
  | issuedAt id none => [alignLeft 14 "issued at:" ++ s!" {id.elapsed}ms after epoch"]

end Output

/-! # Failure -/

inductive Failure where
  | config (path : String) (fault : Config.Fault)
  | noNodes
  | operation (error : Error)

namespace Failure

def message : Failure → String
  | config path fault =>
      s!"loading configuration from {path}: {(Error.config fault).message}"
  | noNodes => "at least one node is required"
  | operation error => error.message

end Failure

abbrev Result := List Output × Option Failure

/-! # Commands -/

structure Environment where
  source : ServerId.Source
  start : Instant
  /-- What the clock of the system shows, from one reading to the next. -/
  clock : Nat → Instant := fun n => (start.addMillis? n).getD start
  file : String → Config.Contents

def loadConfig (env : Environment) : Option String → Except Failure Config
  | none => .ok {}
  | some path =>
      match Config.load (env.file path) with
      | .ok config => .ok config
      | .error fault => .error (.config path fault)

/-- A session over one store, in which every server reads the clock of the system. -/
def session (env : Environment) : Session where
  world := { clock := { time := env.start, system := some env.clock } }

/-- Issues the ids that were asked for, registers before and deregisters after. -/
def node (env : Environment) (config : Config) (ids : Nat) : Result :=
  let script : List Step :=
    [ .command (.makeMember "node" env.source 0 config),
      .command (.activate "node"),
      .command (.uniqueIds "node" ids),
      .command (.spawnHeartbeat "node" "heartbeat"),
      .command (.stopHeartbeat "heartbeat"),
      .command (.deactivate "node") ]
  match (session env).replies script with
  | [.text id, .number number, .ids results, _, _, last] =>
      let issued := results.filterMap fun
        | .ok id => some (.issued id)
        | .error _ => none
      match last with
      | .failed error => (.registered id number :: issued, some (.operation error))
      | _ => (.registered id number :: (issued ++ [.deregistered id]), none)
  | .failed error :: _ => ([], some (.operation error))
  | _ :: .failed error :: _ => ([], some (.operation error))
  | _ => ([], some (.operation .notReady))

def nodeName (index : Nat) : String :=
  s!"{1000 + index}@sim-node"

def nodeHandle (index : Nat) : String :=
  toString index

/-- The ids of servers that were made, or the first failure to make one. -/
def madeIds : List Reply → Except Error (List String)
  | [] => .ok []
  | .text id :: rest => (madeIds rest).map (id :: ·)
  | .failed error :: _ => .error error
  | _ :: _ => .error .notReady

def outcome (id : String) : Reply → Output
  | .number number => .settled id number
  | .failed error => .unsettled id error
  | _ => .unsettled id .notReady

/-- Lets servers race for their numbers, and lists the registrations by number. -/
def simulate (env : Environment) (config : Config) (nodes : Nat) : Result :=
  if nodes = 0 then ([], some .noNodes)
  else
    let indices := List.range nodes
    let makers := indices.map fun i =>
      Step.command (.makeMember (nodeHandle i) (.name (nodeName i)) 0 config)
    let race := Step.join (indices.map fun i => (0, [.command (.activate (nodeHandle i))]))
    let replies := (session env).replies
      (makers ++ [race, .command (.allServers (nodeHandle 0))])
    match madeIds (replies.take nodes), replies.drop nodes with
    | .error error, _ => ([], some (.operation error))
    | .ok ids, [.scripts race, last] =>
        let outcomes := (ids.zip race).map fun (id, replies) =>
          outcome id ((replies.head?.map (·.1)).getD .unit)
        match last with
        | .servers entries =>
            (outcomes ++ [.listing (entries.mergeSort (·.number ≤ ·.number))], none)
        | .failed error => (outcomes, some (.operation error))
        | _ => (outcomes, some (.operation .notReady))
    | _, _ => ([], some (.operation .notReady))

def decode (text : String) : Result :=
  match UniqueId.parse text with
  | .ok id => ([.issuer id.server, .issuedAt id id.issuedAt?], none)
  | .error fault => ([], some (.operation (.invalidId fault)))

/-- Carries out a command.  A node that is not told to end once it has issued its ids waits for an
interrupt first; this wait is left out, and what is printed before and after it is the same. -/
def execute (env : Environment) : Command → Result
  | .node path ids _ =>
      match loadConfig env path with
      | .ok config => node env config ids
      | .error failure => ([], some failure)
  | .simulate nodes path =>
      match loadConfig env path with
      | .ok config => simulate env config nodes
      | .error failure => ([], some failure)
  | .decode id => decode id

end CommandLine
end Roster
