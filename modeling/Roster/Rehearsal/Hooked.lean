import Roster.Rehearsal.Run

/-!
# Calls with hooks

A call to a store first counts the hooks on it.  Those that meet it act before or after it: they
can make it fail, slip in bytes, change the store, deactivate a member, move the clock, delay the
call, or break it down.  If one of them fails before the call, the others still act but the call
is not made; the last failure is the one that counts.
-/

namespace Roster
namespace Rehearsal

def hookRegion : String := "server-tracking-cache"

structure Meddling where
  failure : Option RegistryError := none
  injected : List Bytes := []

namespace Meddling

def fail (m : Meddling) (e : RegistryError) : Meddling := { m with failure := some e }

def noteResult {α : Type} (m : Meddling) : Except RegistryError α → Meddling
  | .ok _ => m
  | .error e => m.fail e

end Meddling

/-- Counts the hooks on a call and gives those that meet it. -/
def takeHooks (registry : Nat) (call : Call) : List Hook → List Hook × List Hook
  | [] => ([], [])
  | hook :: rest =>
      let (hook, met) := hook.count registry call
      let (all, fired) := takeHooks registry call rest
      (hook :: all, if met then hook :: fired else fired)

/-- Carries out the action of a hook; `deactivate` runs the deactivation of a named member. -/
def act (deactivate : String → Run Unit) (registry : Nat) (call : Call) (m : Meddling) :
    Action → Run Meddling
  | .fail reason => return m.fail (.unavailable call.region reason)
  | .inject bytes => return { m with injected := m.injected ++ [bytes] }
  | .putServer entry => do
      let w ← Run.get
      let (result, w) := w.answer registry (.put hookRegion entry.serverId entry.encode)
      Run.set w
      return m.noteResult result
  | .remove key => do
      let w ← Run.get
      let (result, w) := w.answer registry (.remove hookRegion key)
      Run.set w
      return m.noteResult result
  | .deactivate name => do
      deactivate name
      return m
  | .available on => do
      Run.modify (·.modifyStore registry fun store => { store with available := on })
      return m
  | .advanceClock millis => do
      let w ← Run.get
      let w ← Run.demand (w.advanceClock? millis)
      Run.set w
      return m
  | .sleep millis => do
      Run.sleep millis
      return m
  | .crash => .crashed

def actAll (deactivate : String → Run Unit) (registry : Nat) (call : Call) :
    Meddling → List Hook → Run Meddling
  | m, [] => return m
  | m, hook :: rest => do
      let m ← act deactivate registry call m hook.action
      actAll deactivate registry call m rest

/-- The values of a call with those slipped in: instead of a single value, after those of a
list. -/
def inject (injected : List Bytes) : (call : Call) → call.Answer → call.Answer
  | .get _ _, value | .put _ _ _, value | .remove _ _, value => injected.getLast? <|> value
  | .list _, values => values ++ injected

def valueCount : (call : Call) → call.Answer → Nat
  | .get _ _, value | .put _ _ _, value | .remove _ _, value => value.toList.length
  | .list _, values => values.length

def record (registry : Nat) (call : Call) (result : Except RegistryError call.Answer)
    (w : World) : World :=
  let outcome :=
    match result with
    | .ok values => some (valueCount call values)
    | .error _ => none
  { w with calls := { registry, call, outcome } :: w.calls }

def deactivation (caller : Caller) (name : String) : Run Unit := do
  let w ← Run.get
  match (World.lookup name w.members).bind fun index => (w.node? index).map ((index, ·)) with
  | some (index, node) =>
      match node.member with
      | some member =>
          let _ ← enact caller { registry := node.registry, node := some index } member.deactivate
          return ()
      | none => return ()
  | none => return ()

/-- A call with its hooks.  Deactivations inside hooks make calls of their own, nested at most
`depth` deep. -/
def hooked : Nat → Caller
  | 0, _, call => return .error (.unavailable call.region "nested too deeply")
  | depth + 1, registry, call => do
      let w ← Run.get
      let (hooks, fired) := takeHooks registry call w.hooks
      Run.set { w with hooks }
      let deactivate := deactivation (hooked depth)
      let m ← actAll deactivate registry call {} (fired.filter (·.moment = .before))
      let (m, values) ←
        match m.failure with
        | some e => pure (m, (.error e : Except RegistryError call.Answer))
        | none => do
            let w ← Run.get
            let (result, w) := w.answer registry call
            Run.set w
            pure (m.noteResult result, result)
      let m ← actAll deactivate registry call m (fired.filter (·.moment = .after))
      let result :=
        match m.failure, values with
        | some e, _ => .error e
        | none, .ok values => .ok (inject m.injected call values)
        | none, .error e => .error e
      Run.modify (record registry call result)
      return result

/-- Calls in a world.  Each nested deactivation concerns another member, so their number bounds
the depth. -/
def caller : Caller := fun registry call => do
  let w ← Run.get
  hooked (w.nodes.length + 2) registry call

end Rehearsal
end Roster
