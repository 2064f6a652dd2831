import Roster.Proofs.Interleaving.Issued
import Roster.Proofs.Registry.InMemory
import Roster.Proofs.Time.Millis
import Roster.Rehearsal.World

/-!
# Threads without interruption

The members of a fleet share a store in memory and a clock.  A thread that runs is not interrupted
before it sleeps or ends, and time passes only while all threads sleep.
-/

namespace Roster
namespace Uninterrupted

open Interleaving UniqueId

/-!
# The setting
-/

structure World where
  now : Nat
  clock : Instant
  regions : Std.TreeMap String Stored.Values compare
  available : Bool

def World.store (w : World) : Store where
  regions := w.regions
  available := w.available

/-- The store answers at once, and refuses while it is switched off.  The clock never goes back and
stays in range. -/
def answers (w : World) : (e : Effect) → e.Answer → World → Prop
  | .call c, answer, w' =>
      w.store.answer w.now c = (answer, w'.store) ∧ w'.now = w.now ∧ w'.clock = w.clock
  | .now, t, w' => w.clock ≤ t ∧ InRange t.millis ∧ w' = { w with clock := t }
  | .readingPast previous, reading, w' =>
      exists t, w.clock ≤ t ∧ InRange t.millis ∧ reading = t.millis ∧
        elapsedAt reading ≠ previous ∧ w' = { w with clock := t }
  | _, _, _ => False

/-- The clock may go from one instant to the other while so many milliseconds pass, with leap seconds
counted or left out. -/
def Advances (millis : Nat) (s t : Instant) : Prop :=
  s ≤ t ∧
    ((exists u, s.addMillis? millis = some u ∧ u ≤ t) ∨ (millis : Int) * 1000000 ≤ t.since s)

/-- The thread has begun to run, and has neither ended nor come to a pause. -/
def Running : Task → Prop
  | .due _ => True
  | .waiting (.ask (.call _) _) => True
  | .waiting _ => False
  | .finished _ => False

/-- A sleep that begins with the last call of its thread is over. -/
def SleptEnough (t : Thread ι World Task) (w : World) : Prop :=
  forall time next, t.task = .waiting (.ask (.pause time) next) ->
    t.last.now + min time.millis Rehearsal.World.longestSleep ≤ w.now

/-- What happens by itself: the clock advances at least as far as time does, the store is switched
on and off, and other regions change. -/
def setting {ι : Type} (fleet : Fleet ι) : Setting ι World where
  member := fleet.member
  answers := fun _ => answers
  notes := fun w _ => w
  drifts := fun w w' => w.now ≤ w'.now ∧ Advances (w'.now - w.now) w.clock w'.clock ∧
    InRange w'.clock.millis ∧
    forall key, w'.store.contents fleet.region key = w.store.contents fleet.region key
  permits := fun c move =>
    (forall n t, c.threads n = some t -> Running t.task -> move.thread? = some n) ∧
      forall n t, move = .wake n -> c.threads n = some t -> SleptEnough t c.world

def Empty {ι : Type} (fleet : Fleet ι) (w : World) : Prop :=
  forall key, w.store.contents fleet.region key = none

section

variable {ι : Type} (fleet : Fleet ι)

def shared : Shared (setting fleet) where
  contents := fun w => w.store.contents
  region := fleet.region
  region_eq := fleet.region_eq
  id_injective := fleet.id_injective
  fits := fleet.fits
  call := fun h => Store.answers_contents rfl h.1
  now := fun h => congrArg (fun w => w.store.contents) h.2.2
  readingPast := by
    rintro i w previous reading w' ⟨t, _, _, _, _, rfl⟩
    rfl
  note := fun _ _ => rfl
  drift := fun h _ => h.2.2.2 _

variable [DecidableEq ι]

def ledger : Ledger (setting fleet) :=
  (shared fleet).exclusiveLedger fun h => h.2.2.2

theorem sound_of_empty {w : World} (h : Empty fleet w) : (ledger fleet).sound w := by
  constructor
  · intro i bytes hbytes
    cases (h _).symm.trans hbytes
  · intro key hkey
    exact absurd (h key) hkey

end

/-!
# One thread at a time
-/

def running : Stage → Bool
  | .due _ _ => true
  | .waiting s => !s.pauses
  | .finished _ => false

theorem running_task (m : Member) (stage : Stage) :
    Running (stage.task m) ↔ running stage = true := by
  cases stage with
  | due s reply => exact ⟨fun _ => rfl, fun _ => trivial⟩
  | waiting s =>
      cases s with
      | spreading aim round claim | backingOff aim round last time =>
          exact ⟨fun h => h.elim, fun h => nomatch h⟩
      | listing aim round | staking aim round claim | verifying aim round claim
      | withdrawing exit | refreshing claim | checking claim | restoring claim | removing =>
          exact ⟨fun _ => rfl, fun _ => trivial⟩
  | finished outcome => exact ⟨fun h => h.elim, fun h => nomatch h⟩

section

variable {ι : Type} [DecidableEq ι] {fleet : Fleet ι} {c c' : Cluster ι World Stage}

omit [DecidableEq ι] in
theorem thread_of_running {move : Move}
    (hpermits : (setting fleet).permits (c.enacted (setting fleet)) move) {n : Nat}
    {t : Thread ι World Stage} (ht : c.threads n = some t) (hrunning : running t.task = true) :
    move.thread? = some n :=
  hpermits.1 n (t.enacted (setting fleet)) (threads_enacted ht)
    ((running_task _ _).mpr hrunning)

theorem moved_of_running (hmove : Moves (setting fleet) c c') {n : Nat}
    {t : Thread ι World Stage} (ht : c.threads n = some t) (hrunning : running t.task = true) :
    c'.threads n ≠ some t ∧ forall k, k ≠ n -> c'.threads k = c.threads k := by
  have hchanged : c'.threads n ≠ some t := by
    intro hsame
    cases hmove with
    | start hfresh hpermits _ =>
        cases thread_of_running hpermits ht hrunning
        cases hfresh.symm.trans ht
    | call hu htask _ _ hpermits _ | wake hu htask hpermits _ _ =>
        cases thread_of_running hpermits ht hrunning
        cases hu.symm.trans ht
        rcases Cluster.thread_moved hsame with ⟨_, heq⟩ | ⟨hne, _⟩
        · cases htask.symm.trans (congrArg Thread.task heq)
        · exact hne rfl
    | @turn _ _ _ reply _ _ _ hu htask hpermits hresume =>
        cases thread_of_running hpermits ht hrunning
        cases hu.symm.trans ht
        rcases Cluster.thread_moved hsame with ⟨_, heq⟩ | ⟨hne, _⟩
        · exact hresume.ne_due reply ((congrArg Thread.task heq).symm.trans htask)
        · exact hne rfl
    | drift hpermits _ => cases thread_of_running hpermits ht hrunning
  exact ⟨hchanged, fun k hk =>
    others_of_moves hmove (fun hsame => hchanged (hsame.trans ht)) hk⟩

theorem owner_of_running (hmove : Moves (setting fleet) c c') {n k : Nat}
    {t u : Thread ι World Stage} (hu : c.threads k = some u) (hrunning : running u.task = true)
    (ht : c'.threads n = some t) (hrunning' : running t.task = true) : t.owner = u.owner := by
  by_cases hn : n = k
  · subst hn
    exact owner_of_moves hmove hu ht
  · have hsame := (moved_of_running hmove hu hrunning).2 n hn
    rw [ht] at hsame
    exact absurd ht (moved_of_running hmove hsame.symm hrunning').1

end

/-!
# Time goes on
-/

theorem ticks_lt_of_advances {s t : Instant} {millis : Nat} (hmillis : 1 ≤ millis)
    (h : Advances millis s t) : s.ticks < t.ticks := by
  rcases h with ⟨hle, ⟨u, hadd, hu⟩ | hsince⟩
  · exact Int.lt_of_lt_of_le (Instant.ticks_lt_of_addMillis? hmillis hadd) (Instant.ticks_le hu)
  · exact Instant.ticks_lt_of_since hle (by omega)

structure Elapses (w w' : World) : Prop where
  inRange : InRange w'.clock.millis
  now_le : w.now ≤ w'.now
  clock_le : w.clock ≤ w'.clock
  advance : w.now < w'.now -> w.clock.ticks < w'.clock.ticks

theorem elapses_refl {w : World} (h : InRange w.clock.millis) : Elapses w w :=
  ⟨h, Nat.le_refl _, Instant.le_refl _, fun hlt => absurd hlt (Nat.lt_irrefl _)⟩

theorem Elapses.trans {w w' w'' : World} (h : Elapses w w') (h' : Elapses w' w'') :
    Elapses w w'' := by
  refine ⟨h'.inRange, Nat.le_trans h.now_le h'.now_le, Instant.le_trans h.clock_le h'.clock_le, ?_⟩
  intro hlt
  have hticks := Instant.ticks_le h.clock_le
  have hticks' := Instant.ticks_le h'.clock_le
  rcases Nat.lt_or_ge w.now w'.now with hfirst | hfirst
  · exact Int.lt_of_lt_of_le (h.advance hfirst) hticks'
  · exact Int.lt_of_le_of_lt hticks (h'.advance (Nat.lt_of_le_of_lt hfirst hlt))

theorem Elapses.read {w w' : World} (h : Elapses w w') {t : Instant} (hclock : w'.clock ≤ t)
    (hrange : InRange t.millis) : Elapses w { w' with clock := t } where
  inRange := hrange
  now_le := h.now_le
  clock_le := Instant.le_trans h.clock_le hclock
  advance := fun hlt => Int.lt_of_lt_of_le (h.advance hlt) (Instant.ticks_le hclock)

theorem elapses_of_moves {ι : Type} [DecidableEq ι] {fleet : Fleet ι}
    {c c' : Cluster ι World Stage} (hmove : Moves (setting fleet) c c')
    (h : InRange c.world.clock.millis) : Elapses c.world c'.world := by
  apply keeps_of_moves (P := Elapses c.world) hmove (fun _ _ hw => hw) ?_ ?_ ?_ ?_ (elapses_refl h)
  · rintro i w t w' ⟨hclock, hrange, rfl⟩ hw
    exact hw.read hclock hrange
  · rintro i w previous reading w' ⟨t, hclock, hrange, _, _, rfl⟩ hw
    exact hw.read hclock hrange
  · rintro i w e answer w' ⟨_, hnow, hclock⟩ hw
    refine ⟨?_, ?_, ?_, ?_⟩
    · rw [hclock]
      exact hw.inRange
    · rw [hnow]
      exact hw.now_le
    · rw [hclock]
      exact hw.clock_le
    · rw [hnow, hclock]
      exact hw.advance
  · rintro w w' ⟨hnow, hadvances, hrange, _⟩ hw
    exact hw.trans ⟨hrange, hnow, hadvances.1,
      fun hlt => ticks_lt_of_advances (by omega) hadvances⟩

end Uninterrupted
end Roster
