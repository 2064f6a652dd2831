import Roster.Proofs.Ownership.Members
import Roster.Proofs.Registry.Contents
import Roster.Proofs.VirtualTime.World
import Roster.Rehearsal.Session

/-!
# Members in a world

In a world without hooks a member runs up to its next wait as its procedure does up to its next
sleep.  Nothing is asked of the world but that it has the clock of a system, whatever this shows, and
that the members are where their names say.
-/

namespace Roster
namespace Rehearsal

open Interleaving (Fleet)

/-!
# Runs up to a wait
-/

namespace Run

variable {α β : Type} {r r' : Run α} {w w' : World}

theorem advance_bind (r : Run α) (f : α → Run β) (w : World) :
    (r.bind f).advance w =
      match r.advance w with
      | (w', .finished a) => (f a).advance w'
      | (w', .crashed) => (w', .crashed)
      | (w', .blocked on rest) => (w', .blocked on (rest.bind f)) := by
  induction r generalizing w with
  | done a => rfl
  | crashed => rfl
  | read next ih => exact ih w w
  | write w' next ih => exact ih w'
  | wait reason next ih =>
      cases reason with
      | millis n =>
          simp only [Run.bind, advance]
          by_cases hn : n = 0
          · rw [if_pos hn, if_pos hn]
            exact ih w
          · rw [if_neg hn, if_neg hn]
      | beat index =>
          simp only [Run.bind, advance]
          by_cases hbeat : w.isFinished index
          · rw [if_pos hbeat, if_pos hbeat]
            exact ih w
          · rw [if_neg hbeat, if_neg hbeat]

theorem advance_bind_congr (h : r.advance w = r'.advance w') (f : α → Run β) :
    (r.bind f).advance w = (r'.bind f).advance w' := by
  rw [advance_bind, advance_bind, h]

end Run

/-!
# Names
-/

namespace World

theorem lookup_cons (name : String) (entry : String × Nat) (table : List (String × Nat)) :
    lookup name (entry :: table) = if entry.1 = name then some entry.2 else lookup name table := by
  unfold lookup
  rw [List.find?_cons]
  by_cases h : entry.1 = name
  · rw [if_pos h, beq_iff_eq.mpr h]
    rfl
  · rw [if_neg h, beq_eq_false_iff_ne.mpr h]

theorem lookup_assign (name name' : String) (index : Nat) (table : List (String × Nat)) :
    lookup name' (assign name index table) =
      if name = name' then some index else lookup name' table := by
  induction table with
  | nil => exact lookup_cons name' (name, index) []
  | cons entry rest ih =>
      unfold assign
      by_cases hentry : entry.1 = name
      · rw [if_pos hentry, lookup_cons, lookup_cons, hentry]
        by_cases h : name = name'
        · rw [if_pos h, if_pos h]
        · rw [if_neg h, if_neg h, if_neg h]
      · rw [if_neg hentry, lookup_cons, lookup_cons, ih]
        by_cases h : name = name'
        · rw [if_pos h, if_pos h, if_neg (h ▸ hentry)]
        · rw [if_neg h, if_neg h]

end World

/-!
# Calls without hooks
-/

theorem inject_nil (call : Call) (values : call.Answer) : inject [] call values = values := by
  cases call with
  | get region key | put region key value | remove region key => rfl
  | list region => exact List.append_nil values

theorem advance_caller {w : World} (h : w.hooks = []) (registry : Nat) (call : Call) :
    (caller registry call).advance w =
      (record registry call (w.answer registry call).1 (w.answer registry call).2,
        .finished (w.answer registry call).1) := by
  have hsame : { w with hooks := [] } = w := by rw [← h]
  change (hooked (w.nodes.length + 2) registry call).advance w = _
  simp only [hooked, bind, Run.get, Run.bind, Run.advance, h, takeHooks, Run.set, hsame, List.filter_nil,
    actAll, pure]
  rcases hanswer : w.answer registry call with ⟨result, w₁⟩
  cases result with
  | error e => rfl
  | ok values =>
      simp only [Meddling.noteResult, Run.bind, Run.advance, Run.modify, inject_nil]

/-!
# Readings of a system clock
-/

theorem Clock.read?_of_system {clock : Clock} {shows : Nat → Instant}
    (h : clock.system = some shows) (now : Nat) :
    clock.read? now =
      some (shows clock.readings, { clock with readings := clock.readings + 1 }) := by
  cases clock with
  | mk time linked step system readings =>
      cases h
      rfl

/-!
# Stretches as runs
-/

def Rehearsed (e : Effect) : Prop :=
  e.isRoutine = true ∨ exists c, e = .call c

theorem allowed_rehearsed (m : Member) : m.Allowed Rehearsed where
  routine := fun _ he => Or.inl he
  list := Or.inr ⟨_, rfl⟩
  put := fun _ => Or.inr ⟨_, rfl⟩
  remove := Or.inr ⟨_, rfl⟩

def ticking (shows : Nat → Instant) : VirtualTime.Surroundings Nat where
  answer := fun
    | .now, v => (shows v.rest, v.rest + 1)
    | e, v => (e.plain, v.rest)

def resume {α : Type} (actor : Actor) : Halt α → Run α
  | .ended a => .done a
  | .asleep time next => .wait (.millis time.millis) (enact caller actor (next ()))

/-- The members of a fleet are where their names say, with these standings, and find around them
what there is in virtual time. -/
structure Hosts {n : Nat} (F : Fleet (Fin n)) (name : Fin n → String) (shows : Nat → Instant) (w : World)
    (standing : Fin n → Standing) (v : VirtualTime.World Nat) : Prop where
  now : w.now = v.now
  system : w.clock.system = some shows
  readings : w.clock.readings = v.rest
  stores : w.stores = [v.store]
  hooks : w.hooks = []
  signals : w.signals = []
  named : forall i, World.lookup (name i) w.members = some i.val
  node : forall i : Fin n, exists node, w.nodes[i.val]? = some node ∧ node.registry = 0 ∧
    node.member = some (F.member i) ∧ node.standing = standing i

namespace Hosts

variable {n : Nat} {F : Fleet (Fin n)} {name : Fin n → String} {shows : Nat → Instant} {w : World}
  {standing : Fin n → Standing} {v : VirtualTime.World Nat}

theorem standing_eq (h : Hosts F name shows w standing v) (i : Fin n) :
    Actor.standing ⟨0, some i.val⟩ w = standing i := by
  rcases h.node i with ⟨node, hnode, -, -, hstanding⟩
  unfold Actor.standing World.node?
  rw [Option.bind_some, hnode]
  exact hstanding

theorem advance_call (h : Hosts F name shows w standing v) (c : Call) :
    (caller 0 c).advance w = (Run.done (v.store.answer v.now c).1).advance
      (record 0 c (v.store.answer v.now c).1
        { w with stores := [(v.store.answer v.now c).2] }) := by
  have hanswer : w.answer 0 c = ((v.store.answer v.now c).1,
      { w with stores := [(v.store.answer v.now c).2] }) := by
    unfold World.answer World.store World.modifyStore
    rw [h.stores, h.now]
    rfl
  rw [advance_caller h.hooks, hanswer]
  rfl

theorem exists_reading (h : Hosts F name shows w standing v) :
    exists w', w.readClock? = some (shows v.rest, w') ∧
      Hosts F name shows w' standing { v with rest := v.rest + 1 } ∧ w'.nodes = w.nodes := by
  refine ⟨{ w with clock := { w.clock with readings := w.clock.readings + 1 } }, ?_, ?_, rfl⟩
  · unfold World.readClock?
    rw [Clock.read?_of_system h.system, ← h.readings]
    rfl
  · exact { h with
      system := h.system
      readings := congrArg (· + 1) h.readings }

theorem advance_now (h : Hosts F name shows w standing v) (actor : Actor) :
    exists w', (perform caller actor .now).advance w = (Run.done (shows v.rest)).advance w' ∧
      Hosts F name shows w' standing { v with rest := v.rest + 1 } := by
  rcases h.exists_reading with ⟨w', hread, hhosts, -⟩
  refine ⟨w', ?_, hhosts⟩
  simp only [perform, bind, Run.get, Run.bind, Run.advance, hread, Run.demand, Run.set, pure]

theorem stored (h : Hosts F name shows w standing v) (i : Fin n) (σ : Standing) :
    Hosts F name shows (Actor.setStanding ⟨0, some i.val⟩ σ w) (Function.update standing i σ) v := by
  refine { h with node := fun j => ?_ }
  rcases h.node j with ⟨node, hnode, hregistry, hmember, hstanding⟩
  change exists node', (w.nodes.modify i.val fun node => { node with standing := σ })[j.val]? =
    some node' ∧ _
  by_cases hj : j = i
  · subst hj
    rw [Function.update_self, List.getElem?_modify_eq, hnode]
    exact ⟨_, rfl, hregistry, hmember, rfl⟩
  · rw [Function.update_of_ne hj,
      List.getElem?_modify_ne _ _ fun hval => hj (Fin.ext hval.symm)]
    exact ⟨node, hnode, hregistry, hmember, hstanding⟩

theorem called (h : Hosts F name shows w standing v) (call : Call) (store : Store)
    (result : Except RegistryError call.Answer) :
    Hosts F name shows (record 0 call result { w with stores := [store] }) standing
      { v with store } :=
  { h with stores := rfl }

theorem reported (h : Hosts F name shows w standing v) (event : Event) :
    Hosts F name shows (w.report event) standing { v with events := event :: v.events } :=
  { h with }

/-- A member runs up to its next wait as its procedure does up to its next sleep. -/
theorem advance_enact {α : Type} {p : Proc α} (hp : p.Always Rehearsed) (i : Fin n)
    (h : Hosts F name shows w standing v) {halt : Halt α} {σ' : Standing} {v' : VirtualTime.World Nat}
    (hadvance : p.advance (ticking shows).around (standing i) v = (halt, σ', v')) :
    exists w',
      (enact caller ⟨0, some i.val⟩ p).advance w = (resume ⟨0, some i.val⟩ halt).advance w' ∧
      Hosts F name shows w' (Function.update standing i σ') v' ∧
      forall time next, halt = .asleep time next -> (next ()).Always Rehearsed := by
  -- After each effect the world is what it is in virtual time, and the procedure goes on from there.
  induction p generalizing w standing v with
  | done a =>
      cases hadvance
      refine ⟨w, rfl, ?_, fun _ _ hasleep => nomatch hasleep⟩
      rw [Function.update_eq_self]
      exact h
  | ask e next ih =>
      cases e with
      | pause time =>
          cases hadvance
          refine ⟨w, rfl, ?_, fun _ _ hasleep => ?_⟩
          · rw [Function.update_eq_self]
            exact h
          · cases hasleep
            exact hp.2 ()
      | call c =>
          rcases ih _ (hp.2 _) (h.called c _ _) hadvance with ⟨w', hrun, hrest⟩
          exact ⟨w', (Run.advance_bind_congr (h.advance_call c) _).trans hrun, hrest⟩
      | now =>
          rcases h.advance_now ⟨0, some i.val⟩ with ⟨w₁, hnow, h₁⟩
          rcases ih _ (hp.2 _) h₁ hadvance with ⟨w', hrun, hrest⟩
          exact ⟨w', (Run.advance_bind_congr hnow _).trans hrun, hrest⟩
      | look =>
          rcases ih _ (hp.2 _) h hadvance with ⟨w', hrun, hrest⟩
          refine ⟨w', ?_, hrest⟩
          rw [← hrun, ← h.standing_eq i]
          rfl
      | store σ =>
          have hnext : (next ()).advance (ticking shows).around (Function.update standing i σ i) v =
              (halt, σ', v') := by
            rw [Function.update_self]
            exact hadvance
          rcases ih _ (hp.2 _) (h.stored i σ) hnext with ⟨w', hrun, hhosts, hrest⟩
          rw [Function.update_idem] at hhosts
          exact ⟨w', hrun, hhosts, hrest⟩
      | entropy =>
          rcases ih _ (hp.2 _) h hadvance with ⟨w', hrun, hrest⟩
          exact ⟨w', hrun, hrest⟩
      | report event =>
          rcases ih _ (hp.2 _) (h.reported event) hadvance with ⟨w', hrun, hrest⟩
          exact ⟨w', hrun, hrest⟩
      -- Only ids and tokens take these.
      | readingPast previous | ticket | threadName =>
          rcases hp.1 with hroutine | ⟨c, hcall⟩
          · cases hroutine
          · cases hcall

theorem advance_member (h : Hosts F name shows w standing v) (i : Fin n) :
    (Run.member (name i)).advance w =
      (Run.done (({ registry := 0, node := some i.val } : Actor), F.member i)).advance w := by
  rcases h.node i with ⟨node, hnode, hregistry, hmember, -⟩
  have hnode? : w.node? i.val = some node := hnode
  simp only [Run.member, bind, Run.get, Run.bind, Run.advance, h.named i, Run.demand, hnode?, hmember,
    hregistry, pure]

theorem forgotten (h : Hosts F name shows w standing v) :
    Hosts F name shows { w with calls := [], events := [] } standing v :=
  { h with }

theorem later (h : Hosts F name shows w standing v) (now : Nat) :
    Hosts F name shows { w with now } standing { v with now } :=
  { h with now := rfl }

end Hosts

/-!
# What members are asked for
-/

/-- The run of a member that replies with the result of a procedure. -/
def asked {α : Type} (f : α → Reply) (i : Nat) (p : Proc (Except Error α)) : Run Reply :=
  (enact caller ⟨0, some i⟩ p).bind fun result => .done (.ofExcept f result)

namespace Hosts

variable {n : Nat} {F : Fleet (Fin n)} {name : Fin n → String} {shows : Nat → Instant} {w : World}
  {standing : Fin n → Standing} {v v' : VirtualTime.World Nat} {σ' : Standing}

theorem advance_activate (h : Hosts F name shows w standing v) (i : Fin n) :
    (Command.activate (name i)).run.advance w =
      (asked .number i (F.member i).activate).advance w :=
  Run.advance_bind_congr (h.advance_member i) _

theorem advance_allServers (h : Hosts F name shows w standing v) (i : Fin n) :
    (Command.allServers (name i)).run.advance w =
      (asked .servers i (F.member i).allServers).advance w :=
  Run.advance_bind_congr (h.advance_member i) _

variable {α : Type} {p : Proc (Except Error α)}

theorem advance_ended (hp : p.Always Rehearsed) (i : Fin n) (h : Hosts F name shows w standing v)
    {result : Except Error α}
    (hadvance : p.advance (ticking shows).around (standing i) v = (.ended result, σ', v'))
    (f : α → Reply) :
    exists w', (asked f i p).advance w = (w', .finished (.ofExcept f result)) ∧
      Hosts F name shows w' (Function.update standing i σ') v' := by
  rcases h.advance_enact hp i hadvance with ⟨w', hrun, hhosts, -⟩
  exact ⟨w', Run.advance_bind_congr hrun _, hhosts⟩

theorem advance_asleep (hp : p.Always Rehearsed) (i : Fin n) (h : Hosts F name shows w standing v)
    {time : Duration} {next : Unit → Proc (Except Error α)}
    (hadvance : p.advance (ticking shows).around (standing i) v = (.asleep time next, σ', v'))
    (f : α → Reply) :
    exists w',
      (asked f i p).advance w = (Run.wait (.millis time.millis) (asked f i (next ()))).advance w' ∧
      Hosts F name shows w' (Function.update standing i σ') v' ∧ (next ()).Always Rehearsed := by
  rcases h.advance_enact hp i hadvance with ⟨w', hrun, hhosts, hnext⟩
  exact ⟨w', Run.advance_bind_congr hrun _, hhosts, hnext time next rfl⟩

end Hosts
end Rehearsal
end Roster
