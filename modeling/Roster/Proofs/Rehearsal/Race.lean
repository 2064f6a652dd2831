import Roster.Proofs.Numbering.Dense
import Roster.Proofs.Rehearsal.Hosting
import Roster.Proofs.Rehearsal.Steps

/-!
# A race for numbers

Members that are told to activate at once claim in the order in which they are told, since each of
them runs to its sleep before the next one starts.  Each finds the claims of those before it and
none of those after it, so that it claims its own place.  When their claims have spread they find
no rivals, and are ready one after the other.

A settle delay of zero makes no difference but that each is ready before the next one starts.
-/

namespace Roster
namespace Rehearsal

open Interleaving (Fleet)
open VirtualTime (Spreads activate_stretch spread_stretch allServers_stretch)

structure Competes {n : Nat} (F : Fleet (Fin n)) (delay : Nat) : Prop where
  few : n ≤ UniqueId.serverRange
  attempts_ne : forall i, (F.member i).config.settleAttempts ≠ 0
  delay_eq : forall i, (F.member i).config.settleDelay.millis = delay

/-- The members before a place have claimed, and the others have not begun. -/
structure Racing {n : Nat} (F : Fleet (Fin n)) (name : Fin n → String) (shows : Nat → Instant) (k : Nat)
    (w : World) (standing : Fin n → Standing) (es : Entries (Fin n)) : Prop where
  hosted : exists v, Hosts F name shows w standing v ∧ v.store.timeToLive = none ∧
    es.Held F v.store v.now
  dense : es.Dense F k
  inactive : forall i : Fin n, k ≤ i.val -> (standing i).status = .inactive

inductive Waiting {n : Nat} (F : Fleet (Fin n)) (standing : Fin n → Standing)
    (es : Entries (Fin n)) (time : Nat) (i : Fin n) : Thread → Prop where
  | spreading {claim t next} (hentry : es i = some (claim, t))
      (hspreads : Spreads (F.member i) claim next) (hnext : (next ()).Always Rehearsed)
      (hstatus : (standing i).status = .registering) :
      Waiting F standing es time i
        (.blocked [] (.instant time) (asked .number i (next ())) [])

section

variable {n k delay : Nat} {F : Fleet (Fin n)} {name : Fin n → String} {shows : Nat → Instant} {w : World}
  {standing : Fin n → Standing} {es : Entries (Fin n)} {i : Fin n}

/-!
# One member
-/

theorem Racing.claim (hF : Competes F delay) (h : Racing F name shows i w standing es) :
    exists w' next claim,
      (Command.activate (name i)).run.advance w =
        (Run.wait (.millis delay) (asked .number i (next ()))).advance w' ∧
      w'.now = w.now ∧
      Racing F name shows (i + 1) w' (Function.update standing i { standing i with status := .registering })
        (Function.update es i (some (claim, w.now))) ∧
      Spreads (F.member i) claim next ∧ (next ()).Always Rehearsed := by
  rcases h.hosted with ⟨v, hhosts, hforever, hheld⟩
  rcases activate_stretch (S := ticking shows) hheld (h.inactive i (Nat.le_refl _))
    (h.dense.free i (Nat.le_refl _)) (hF.attempts_ne i) with
    ⟨claim, next, store, rest, hstretch, hspreads, hclaim, hlowest, hkept, hheld'⟩
  rcases hhosts.advance_asleep (Member.always_activate (allowed_rehearsed _)) i hstretch .number with
    ⟨w', hrun, hhosts', hnext⟩
  rw [hF.delay_eq i, ← hhosts.advance_activate i] at hrun
  have hnumber := h.dense.number_eq i.isLt hF.few hlowest
  have hdense := h.dense.claim i.isLt claim.claimedAt v.now
  rw [← hnumber, ← hclaim] at hdense
  refine ⟨w', next, claim, hrun, hhosts'.now.trans hhosts.now.symm, ?_, hspreads, hnext⟩
  rw [hhosts.now]
  refine ⟨⟨_, hhosts', hkept.timeToLive.trans hforever, hheld'⟩, hdense, ?_⟩
  intro j hj
  rw [Function.update_of_ne fun hji => absurd hj (by rw [hji]; exact Nat.not_succ_le_self i)]
  exact h.inactive j (Nat.le_of_succ_le hj)

theorem Racing.settle (hF : Competes F delay) (h : Racing F name shows k w standing es)
    {claim : Registration} {s : Nat} {next : Unit → Proc (Except Error UInt32)}
    (hentry : es i = some (claim, s)) (hspreads : Spreads (F.member i) claim next)
    (hnext : (next ()).Always Rehearsed) (hstatus : (standing i).status = .registering) :
    exists w' σ,
      (asked .number i (next ())).advance w = (w', .finished (.number (UInt32.ofNat i))) ∧
      w'.now = w.now ∧ Racing F name shows k w' (Function.update standing i σ) es := by
  rcases h.hosted with ⟨v, hhosts, hforever, hheld⟩
  rcases h.dense.entry hentry with ⟨hi, hclaim, hnumber⟩
  have hrange : claim.number.toNat < UniqueId.serverRange := by
    rw [hnumber, toNat_place (Nat.lt_of_lt_of_le i.isLt hF.few)]
    exact Nat.lt_of_lt_of_le i.isLt hF.few
  rcases spread_stretch (S := ticking shows) hspreads hheld hstatus hclaim
    (h.dense.apart hF.few i claim s hentry) hrange with ⟨settled, store, hstretch, -, hkept, hheld'⟩
  rcases hhosts.advance_ended hnext i hstretch .number with ⟨w', hrun, hhosts'⟩
  rw [hnumber] at hrun
  refine ⟨w', _, hrun, hhosts'.now.trans hhosts.now.symm,
    ⟨⟨_, hhosts', hkept.timeToLive.trans hforever, hheld'⟩, h.dense, ?_⟩⟩
  intro j hj
  rw [Function.update_of_ne fun hji => absurd hj (by rw [hji]; exact Nat.not_le_of_lt hi)]
  exact h.inactive j hj

/-!
# All members
-/

def racer (name : Fin n → String) (i : Fin n) : Nat × List Step :=
  (0, [.command (.activate (name i))])

def arrived (time : Nat) (i : Fin n) : Thread :=
  .finished [(.number (UInt32.ofNat i), time)]

theorem places_cons {is : List (Fin n)}
    (h : (i :: is).map (·.val) = List.range' k (i :: is).length) :
    i.val = k ∧ is.map (·.val) = List.range' (k + 1) is.length := by
  rw [List.map_cons, List.length_cons, List.range'_succ] at h
  exact List.cons.inj h

/-- Without a delay, each member is ready before the next one starts. -/
theorem Racing.startAll_at_once (hF : Competes F 0) (is : List (Fin n)) (k : Nat) (w : World)
    (standing : Fin n → Standing) (es : Entries (Fin n)) (h : Racing F name shows k w standing es)
    (his : is.map (·.val) = List.range' k is.length) :
    exists w' standing' es',
      Thread.startAll (is.map (racer name)) w = (w', is.map (arrived w.now)) ∧ w'.now = w.now ∧
      Racing F name shows (k + is.length) w' standing' es' := by
  induction is generalizing k w standing es with
  | nil =>
      refine ⟨w, standing, es, ?_, rfl, h⟩
      rw [List.map_nil, Thread.startAll]
      rfl
  | cons i is ih =>
      rcases places_cons his with ⟨rfl, hrest⟩
      rcases h.claim hF with ⟨w₁, next, claim, hclaim, hnow₁, h₁, hspreads, hnext⟩
      rcases h₁.settle hF (Function.update_self ..) hspreads hnext
        (by rw [Function.update_self]) with ⟨w₂, σ, hsettle, hnow₂, h₂⟩
      rcases ih _ _ _ _ h₂ hrest with ⟨w', standing', es', hall, hnow, h'⟩
      have hstart : Thread.start [] [.command (.activate (name i))] w = (w₂, arrived w.now i) := by
        have hcommand := Session.start_command (hclaim.trans hsettle)
        rw [hnow₂, hnow₁] at hcommand
        exact hcommand
      refine ⟨w', standing', es', ?_, hnow.trans (hnow₂.trans hnow₁), ?_⟩
      · rw [List.map_cons, racer, Session.startAll_cons hstart, hall, hnow₂, hnow₁]
        rfl
      · rw [List.length_cons, Nat.add_comm is.length, ← Nat.add_assoc]
        exact h'

theorem Waiting.congr {time : Nat} {thread : Thread} {standing' : Fin n → Standing}
    {es' : Entries (Fin n)} (h : Waiting F standing es time i thread)
    (hstanding : standing' i = standing i) (hes : es' i = es i) :
    Waiting F standing' es' time i thread := by
  cases h with
  | spreading hentry hspreads hnext hstatus =>
      exact .spreading (hes.trans hentry) hspreads hnext (by rw [hstanding, hstatus])

/-- With a delay, all members have claimed before the first one wakes up. -/
theorem Racing.startAll_waiting (hF : Competes F delay) (hdelay : delay ≠ 0) (is : List (Fin n))
    (k : Nat) (w : World) (standing : Fin n → Standing) (es : Entries (Fin n))
    (h : Racing F name shows k w standing es) (his : is.map (·.val) = List.range' k is.length) :
    exists w' threads standing' es',
      Thread.startAll (is.map (racer name)) w = (w', threads) ∧ w'.now = w.now ∧
      List.Forall₂ (Waiting F standing' es' (w.wakeTime delay)) is threads ∧
      Racing F name shows (k + is.length) w' standing' es' ∧
      forall j : Fin n, j.val < k -> standing' j = standing j ∧ es' j = es j := by
  induction is generalizing k w standing es with
  | nil =>
      refine ⟨w, [], standing, es, ?_, rfl, .nil, h, fun _ _ => ⟨rfl, rfl⟩⟩
      rw [List.map_nil, Thread.startAll]
  | cons i is ih =>
      rcases places_cons his with ⟨rfl, hrest⟩
      rcases h.claim hF with ⟨w₁, next, claim, hclaim, hnow₁, h₁, hspreads, hnext⟩
      -- Those that start later leave the claim and the standing of this one as they are.
      rcases ih _ _ _ _ h₁ hrest with ⟨w', threads, standing', es', hall, hnow, hwaiting, h', hsame⟩
      have hwake : w₁.wakeTime delay = w.wakeTime delay := by
        unfold World.wakeTime
        rw [hnow₁]
      have hwait : (Run.wait (.millis delay) (asked .number i (next ()))).advance w₁ =
          (w₁, .blocked (.instant (w.wakeTime delay)) (asked .number i (next ()))) := by
        rw [Run.advance, if_neg hdelay, hwake]
      have hhead : Waiting F standing' es' (w.wakeTime delay) i
          (.blocked [] (.instant (w.wakeTime delay)) (asked .number i (next ())) []) := by
        rcases hsame i (Nat.lt_succ_self _) with ⟨hstanding, hes⟩
        refine .spreading (hes.trans (Function.update_self ..)) hspreads hnext ?_
        rw [hstanding, Function.update_self]
      rw [hwake] at hwaiting
      refine ⟨w', _ :: threads, standing', es', ?_, hnow.trans hnow₁, .cons hhead hwaiting, ?_, ?_⟩
      · rw [List.map_cons, racer, Session.startAll_cons (Session.start_blocked (hclaim.trans hwait)),
          hall]
      · rw [List.length_cons, Nat.add_comm is.length, ← Nat.add_assoc]
        exact h'
      · intro j hj
        have hji : j ≠ i := fun hji => Nat.lt_irrefl _ (by rwa [hji] at hj)
        rcases hsame j (Nat.lt_succ_of_lt hj) with ⟨hstanding, hes⟩
        rw [Function.update_of_ne hji] at hstanding hes
        exact ⟨hstanding, hes⟩

theorem Waiting.poll {time : Nat} {thread : Thread} (h : Waiting F standing es time i thread)
    (hF : Competes F delay) (hracing : Racing F name shows k w standing es) (htime : time ≤ w.now) :
    exists w' σ,
      thread.poll w = (w', arrived w.now i) ∧ w'.now = w.now ∧
      Racing F name shows k w' (Function.update standing i σ) es := by
  cases h with
  | spreading hentry hspreads hnext hstatus =>
      rcases hracing.settle hF hentry hspreads hnext hstatus with ⟨w', σ, hsettle, hnow, hracing'⟩
      refine ⟨w', σ, ?_, hnow, hracing'⟩
      have hreached : (Run.Until.instant time).isReached w = true := decide_eq_true htime
      rw [Thread.poll, if_pos hreached, hsettle]
      dsimp only
      rw [Thread.start, hnow]
      rfl

theorem Racing.pollAll (hF : Competes F delay) {time : Nat} {is : List (Fin n)}
    {threads : List Thread} (hwaiting : List.Forall₂ (Waiting F standing es time) is threads)
    (his : is.Nodup) (w : World) (standing' : Fin n → Standing)
    (h : Racing F name shows k w standing' es) (hsame : forall i, i ∈ is -> standing' i = standing i)
    (htime : time ≤ w.now) :
    exists w' standing'',
      Thread.pollAll threads w = (w', is.map (arrived w.now)) ∧
      Racing F name shows k w' standing'' es := by
  induction hwaiting generalizing w standing' with
  | nil => exact ⟨w, standing', rfl, h⟩
  | @cons i thread is threads hhead hrest ih =>
      rcases List.nodup_cons.mp his with ⟨hi, his⟩
      rcases (hhead.congr (hsame i List.mem_cons_self) rfl).poll hF h htime with
        ⟨w₁, σ, hpoll, hnow, h₁⟩
      have hothers (j : Fin n) (hj : j ∈ is) : Function.update standing' i σ j = standing j := by
        have hji : j ≠ i := fun hji => hi (hji ▸ hj)
        rw [Function.update_of_ne hji]
        exact hsame j (List.mem_cons_of_mem i hj)
      rcases ih his w₁ _ h₁ hothers (hnow ▸ htime) with ⟨w', standing'', hpolls, h'⟩
      refine ⟨w', standing'', ?_, h'⟩
      rw [Thread.pollAll, hpoll]
      dsimp only
      rw [hpolls, hnow, List.map_cons]

section

variable {time : Nat} {is : List (Fin n)} {threads : List Thread}
  (h : List.Forall₂ (Waiting F standing es time) is threads)
include h

theorem allReplies?_waiting (his : is ≠ []) : Thread.allReplies? threads = none := by
  cases h with
  | nil => exact absurd rfl his
  | cons hhead hrest =>
      cases hhead with
      | spreading hentry hspreads hnext hstatus => rfl

theorem anyWoken_waiting (w : World) : Thread.anyWoken w threads = false := by
  induction h with
  | nil => rfl
  | cons hhead hrest ih =>
      cases hhead with
      | spreading hentry hspreads hnext hstatus => exact ih

theorem nextTimeOfAll_waiting (his : is ≠ []) : Thread.nextTimeOfAll threads = some time := by
  induction h with
  | nil => exact absurd rfl his
  | @cons i thread is threads hhead hrest ih =>
      cases hhead with
      | spreading hentry hspreads hnext hstatus =>
          cases is with
          | nil =>
              cases hrest
              rfl
          | cons j is =>
              have hothers := ih (List.cons_ne_nil j is)
              unfold Thread.nextTimeOfAll
              rw [hothers]
              exact congrArg some (Nat.min_self time)

end

/-!
# The race
-/

theorem Racing.later (h : Racing F name shows k w standing es) {now : Nat} (hle : w.now ≤ now) :
    Racing F name shows k { w with now } standing es := by
  rcases h.hosted with ⟨v, hhosts, hforever, hheld⟩
  rw [hhosts.now] at hle
  exact { h with
    hosted := ⟨_, hhosts.later now, hforever,
      hheld.later hle fun _ _ _ _ => Store.lives_of_forever hforever _ _⟩ }

theorem Racing.step (hF : Competes F delay) (hn : n ≠ 0) (h : Racing F name shows 0 w standing es) :
    exists w' standing' es' time,
      Session.step { world := w } (.join ((List.finRange n).map (racer name))) =
        ({ world := w' },
          .scripts ((List.finRange n).map fun i : Fin n => [(.number (UInt32.ofNat i.val), time)])) ∧
      Racing F name shows n w' standing' es' := by
  have hplaces : (List.finRange n).map (·.val) = List.range' 0 (List.finRange n).length := by
    rw [List.length_finRange, ← List.range_eq_range']
    exact List.map_coe_finRange_eq_range
  have hall (time : Nat) := Session.allReplies?_finished
    (fun i : Fin n => [(Reply.number (UInt32.ofNat i.val), time)]) (List.finRange n)
  have hlength : 0 + (List.finRange n).length = n := by
    rw [Nat.zero_add, List.length_finRange]
  by_cases hdelay : delay = 0
  · rw [hdelay] at hF
    rcases h.startAll_at_once hF _ _ _ _ _ hplaces with ⟨w', standing', es', hstart, -, h'⟩
    rw [hlength] at h'
    exact ⟨w', standing', es', w.now, Session.step_join_at_once hstart (hall _), h'⟩
  · rcases h.startAll_waiting hF hdelay _ _ _ _ _ hplaces with
      ⟨w₁, threads, standing₁, es', hstart, hnow, hwaiting, h₁, -⟩
    rw [hlength] at h₁
    have hne : List.finRange n ≠ [] := fun hnil => hn (List.finRange_eq_nil_iff.mp hnil)
    have hle : w₁.now ≤ w.wakeTime delay := hnow ▸ Nat.le_add_right _ _
    rcases Racing.pollAll hF hwaiting (List.nodup_finRange n) _ _ (h₁.later hle) (fun _ _ => rfl)
      (Nat.le_refl _) with ⟨w', standing', hpoll, h'⟩
    rcases h₁.hosted with ⟨v, hhosts, -, -⟩
    exact ⟨w', standing', es', _, Session.step_join_of_waiting hstart
      (allReplies?_waiting hwaiting hne) hhosts.signals (anyWoken_waiting hwaiting _)
      (nextTimeOfAll_waiting hwaiting hne) hle hpoll (hall _), h'⟩

theorem Racing.listing (hF : Competes F delay) (h : Racing F name shows n w standing es) (i : Fin n) :
    exists w' live, exists times : Fin n → Instant,
      (Command.allServers (name i)).run.advance w = (w', .finished (.servers live)) ∧
      live.mergeSort (·.number ≤ ·.number) =
        (List.finRange n).map fun i => ⟨(F.member i).id.text, UInt32.ofNat i.val, times i⟩ := by
  rcases h.hosted with ⟨v, hhosts, -, hheld⟩
  rcases allServers_stretch (S := ticking shows) (σ := standing i) hheld i with
    ⟨live, store, hstretch, hnodup, hlive, -, -⟩
  rcases hhosts.advance_ended (Member.always_allServers (allowed_rehearsed _).list) i hstretch
    .servers with ⟨w', hrun, -⟩
  rcases h.dense.sorted hF.few hnodup hlive with ⟨times, hsorted⟩
  exact ⟨w', live, times, (hhosts.advance_allServers i).trans hrun, hsorted⟩

theorem Racing.forgotten (h : Racing F name shows k w standing es) :
    Racing F name shows k { w with calls := [], events := [] } standing es := by
  rcases h.hosted with ⟨v, hhosts, hrest⟩
  exact { h with hosted := ⟨v, hhosts.forgotten, hrest⟩ }

end

end Rehearsal
end Roster
