import Roster.Rehearsal.Hooked

/-!
# Steps

A script is a list of steps.  Most steps ask a node or a store for one thing and reply with what
came of it; a step may also run several scripts at once, or one under a time limit.
-/

namespace Roster
namespace Rehearsal

inductive Command where
  | makeMember (name : String) (source : ServerId.Source) (registry : Nat) (config : Config)
  | makeTracker (name : String) (source : ServerId.Source) (registry : Nat) (region : String)
      (config : Config)
  | activate (node : String)
  | heartbeat (node : String)
  | deactivate (node : String)
  | allServers (node : String)
  | serverNumber (node : String)
  | isReady (node : String)
  | uniqueIds (node : String) (count : Nat)
  | spawnHeartbeat (node handle : String)
  | stopHeartbeat (handle : String)
  | dropHeartbeat (handle : String)
  | heartbeatFinished (handle : String)
  | track (node : String) (request : Web.Request) (response : Web.Response)
  | lookup (node token : String)
  | sleep (millis : Nat)
  | advanceClock (millis : Int)
  | setClock (time : Instant)
  | setAvailable (registry : Nat) (on : Bool)
  | count (registry : Nat) (region : String)
  | call (registry : Nat) (call : Call)
  | putServer (registry : Nat) (region key : String) (entry : Registration)
  | getServer (registry : Nat) (region key : String)
  | removeServer (registry : Nat) (region key : String)
  | listServers (registry : Nat) (region : String)
  | putUser (registry : Nat) (region key : String) (entry : Sighting)
  | getUser (registry : Nat) (region key : String)
  | removeUser (registry : Nat) (region key : String)
  | listUsers (registry : Nat) (region : String)
  | copy (source target : Nat) (region key : String)
  | fill (registry : Nat) (first count : Nat) (claimedAt : Instant)
  | addHook (hook : Hook)
  | clearHooks

inductive Step where
  | command (c : Command)
  | join (scripts : List (Nat × List Step))
  | timeout (millis : Nat) (script : List Step)

inductive Reply where
  | unit
  | failed (error : Error)
  | refused (error : RegistryError)
  | crashed
  | bool (value : Bool)
  | number (value : UInt32)
  | text (value : String)
  | time (value : Instant)
  | ids (results : List (Except Error UniqueId))
  | server (entry : Option Registration)
  | servers (entries : List Registration)
  | user (entry : Option Sighting)
  | users (entries : List Sighting)
  | tracked (outcome : Tracker.Outcome) (cookies : List Web.Cookie)
  | bytes (value : Option Bytes)
  | byteList (values : List Bytes)
  | size (count : Nat)
  | timedOut
  | script (replies : List (Reply × Nat))
  | scripts (replies : List (List (Reply × Nat)))

namespace Reply

def ofExcept {α : Type} (f : α → Reply) : Except Error α → Reply
  | .ok a => f a
  | .error e => failed e

def ofRegistry {α : Type} (f : α → Reply) : Except RegistryError α → Reply
  | .ok a => f a
  | .error e => refused e

end Reply

namespace Run

/-- The member with this name and its place; a script may not name one that was never made. -/
def member (name : String) : Run (Actor × Member) := do
  let w ← Run.get
  let index ← Run.demand (World.lookup name w.members)
  let node ← Run.demand (w.node? index)
  let member ← Run.demand node.member
  return ({ registry := node.registry, node := some index }, member)

/-- The tracker with this name, or that of the member with this name. -/
def tracker (name : String) : Run (Actor × Tracker) := do
  let w ← Run.get
  let index ← Run.demand (World.lookup name w.trackers <|> World.lookup name w.members)
  let node ← Run.demand (w.node? index)
  return ({ registry := node.registry, node := some index }, node.tracker)

/-! # Making nodes -/

/-- Makes a tracker: the clock is read before the freshness window is looked at. -/
def newTracker (id : ServerId) (region : String) (config : Config) : Run Tracker := do
  let w ← Run.get
  let (reading, w) ← Run.demand w.readClock?
  Run.set w
  let window ← Run.demand config.window?
  return { id, users := ⟨region⟩, cookieName := config.cookieName, window,
           startedAt := reading.millis }

def makeMember (name : String) (source : ServerId.Source) (registry : Nat) (config : Config) :
    Run Reply := do
  match Member.create source config with
  | .error e => return .failed e
  | .ok member => do
      let tracker ← newTracker member.id config.userRegion config
      Run.modify fun w =>
        { w with
          nodes := w.nodes ++ [{ registry, member := some member, tracker }]
          members := World.assign name w.nodes.length w.members }
      return .text member.id.text

def makeTracker (name : String) (source : ServerId.Source) (registry : Nat) (region : String)
    (config : Config) : Run Reply := do
  match ServerId.identify source with
  | .error fault => return .failed (.identity fault)
  | .ok id => do
      let tracker ← newTracker id region config
      Run.modify fun w =>
        { w with
          nodes := w.nodes ++ [{ registry, member := none, tracker }]
          trackers := World.assign name w.nodes.length w.trackers }
      return .text tracker.cookieName

/-! # Heartbeats -/

def release (handle : String) (w : World) : World :=
  match World.lookup handle w.handles with
  | none => w
  | some index =>
      let w := w.modifyBeat index fun beat => { beat with stopping := true }
      { w.signal (.stop index) with handles := World.unassign handle w.handles }

def spawnHeartbeat (node handle : String) : Run Reply := do
  let (actor, m) ← member node
  Run.modify fun w =>
    let w := (release handle w).signal (.start w.beats.length)
    { w with
      beats := w.beats ++ [{ node := actor.node.getD 0, member := m, startedAt := w.now }]
      handles := World.assign handle w.beats.length w.handles }
  return .unit

def stopHeartbeat (handle : String) : Run Reply := do
  let w ← Run.get
  let index ← Run.demand (World.lookup handle w.handles)
  Run.set (release handle w)
  Run.wait (.beat index) (.done ())
  let w ← Run.get
  if (w.beats[index]?.map (·.broken)).getD false then
    Run.modify (·.report .heartbeatBroken)
  return .unit

/-! # Stores -/

def access {α : Type} (registry : Nat) (p : Proc α) : Run α :=
  enact caller { registry } p

/-- Copies the value under a key from one store to another, or removes it there when the first
has none; tells whether the second had the key. -/
def copy (source target : Nat) (region key : String) (w : World) : Reply × World :=
  match w.answer source (.get region key) with
  | (.error e, w) => (.refused e, w)
  | (.ok value, w) =>
      let call : Call :=
        match value with
        | some bytes => .put region key bytes
        | none => .remove region key
      match call, w.answer target call with
      | _, (.error e, w) => (.refused e, w)
      | .put _ _ _, (.ok previous, w) => (.bool previous.isSome, w)
      | .remove _ _, (.ok previous, w) => (.bool previous.isSome, w)
      | .get _ _, (.ok previous, w) => (.bool previous.isSome, w)
      | .list _, (.ok _, w) => (.unit, w)

/-- Registers the servers `fill-N` with number `N`, for `count` numbers from `first` on. -/
def fill (registry : Nat) (claimedAt : Instant) : (first count : Nat) → World → World
  | _, 0, w => w
  | n, count + 1, w =>
      let entry : Registration :=
        { serverId := s!"fill-{n}", number := UInt32.ofNat n, claimedAt }
      fill registry claimedAt (n + 1) count
        (w.answer registry (.put hookRegion entry.serverId entry.encode)).2

def replyToCall (registry : Nat) : Call → Run Reply
  | .list region => do
      return .ofRegistry .byteList (← caller registry (.list region))
  | .get region key => do
      return .ofRegistry .bytes (← caller registry (.get region key))
  | .put region key value => do
      return .ofRegistry .bytes (← caller registry (.put region key value))
  | .remove region key => do
      return .ofRegistry .bytes (← caller registry (.remove region key))

/-- The ids that a member issues one after another; `issued` are those before, the last one
first. -/
def uniqueIds (actor : Actor) (issued : List (Except Error UniqueId)) :
    Nat → Run (List (Except Error UniqueId))
  | 0 => return issued.reverse
  | n + 1 => do
      let id ← enact caller actor Member.uniqueId
      uniqueIds actor (id :: issued) n

end Run

namespace Command

/-! # Carrying out a command -/

def run : Command → Run Reply
  | makeMember name source registry config => Run.makeMember name source registry config
  | makeTracker name source registry region config =>
      Run.makeTracker name source registry region config
  | activate node => do
      let (actor, m) ← Run.member node
      return .ofExcept .number (← enact caller actor m.activate)
  | heartbeat node => do
      let (actor, m) ← Run.member node
      enact caller actor m.heartbeat
      return .unit
  | deactivate node => do
      let (actor, m) ← Run.member node
      return .ofExcept (fun _ => .unit) (← enact caller actor m.deactivate)
  | allServers node => do
      let (actor, m) ← Run.member node
      return .ofExcept .servers (← enact caller actor m.allServers)
  | serverNumber node => do
      let (actor, _) ← Run.member node
      return .ofExcept .number (← enact caller actor Member.serverNumber)
  | isReady node => do
      let (actor, _) ← Run.member node
      let w ← Run.get
      return .bool (actor.standing w).status.isReady
  | uniqueIds node n => do
      let (actor, _) ← Run.member node
      return .ids (← Run.uniqueIds actor [] n)
  | spawnHeartbeat node handle => Run.spawnHeartbeat node handle
  | stopHeartbeat handle => Run.stopHeartbeat handle
  | dropHeartbeat handle => do
      let w ← Run.get
      Run.set (Run.release handle w)
      return .bool (World.lookup handle w.handles).isSome
  | heartbeatFinished handle => do
      let w ← Run.get
      let index ← Run.demand (World.lookup handle w.handles)
      return .bool (w.isFinished index)
  | track node request response => do
      let (actor, t) ← Run.tracker node
      let (outcome, response) ← enact caller actor (t.track request response)
      return .tracked outcome response.cookies
  | lookup node token => do
      let (actor, t) ← Run.tracker node
      return .user (← enact caller actor (t.lookup token))
  | sleep millis => do
      Run.sleep millis
      return .unit
  | advanceClock millis => do
      let w ← Run.get
      let w ← Run.demand (w.advanceClock? millis)
      Run.set w
      return .time w.clock.time
  | setClock time => do
      Run.modify fun w => { w with clock := { w.clock with time } }
      return .time time
  | setAvailable registry on => do
      Run.modify (·.modifyStore registry fun store => { store with available := on })
      return .unit
  | count registry region => do
      let w ← Run.get
      return .size ((w.store registry).count w.now region)
  | call registry c => Run.replyToCall registry c
  | putServer registry region key entry => do
      let region : Region Registration := ⟨region⟩
      return .ofRegistry .server (← Run.access registry (region.put key entry))
  | getServer registry region key => do
      let region : Region Registration := ⟨region⟩
      return .ofRegistry .server (← Run.access registry (region.get key))
  | removeServer registry region key => do
      let region : Region Registration := ⟨region⟩
      return .ofRegistry .server (← Run.access registry (region.remove key))
  | listServers registry region => do
      let region : Region Registration := ⟨region⟩
      return .ofRegistry .servers (← Run.access registry region.list)
  | putUser registry region key entry => do
      let region : Region Sighting := ⟨region⟩
      return .ofRegistry .user (← Run.access registry (region.put key entry))
  | getUser registry region key => do
      let region : Region Sighting := ⟨region⟩
      return .ofRegistry .user (← Run.access registry (region.get key))
  | removeUser registry region key => do
      let region : Region Sighting := ⟨region⟩
      return .ofRegistry .user (← Run.access registry (region.remove key))
  | listUsers registry region => do
      let region : Region Sighting := ⟨region⟩
      return .ofRegistry .users (← Run.access registry region.list)
  | copy source target region key => do
      let w ← Run.get
      let (reply, w) := Run.copy source target region key w
      Run.set w
      return reply
  | fill registry first n claimedAt => do
      Run.modify (Run.fill registry claimedAt first n)
      return .unit
  | addHook hook => do
      Run.modify fun w => { w with hooks := w.hooks ++ [hook] }
      return .unit
  | clearHooks => do
      Run.modify fun w => { w with hooks := [] }
      return .unit

end Command
end Rehearsal
end Roster
