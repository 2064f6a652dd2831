import Roster.Proofs.Deactivation
import Roster.Proofs.Registering.Rounds
import Roster.Proofs.Registering.Surroundings

/-!
# Failed registrations leave nothing behind

A registration that fails has used up its rounds, unless the member was deactivated meanwhile or has
settled a number without ids.  It reports what its last round has ended in, withdraws whatever its
rounds have written, and leaves the member as if nothing had happened.

The world is arbitrary: calls may answer anything and fail at any time, and others may change the
registry.
-/

namespace Roster
namespace Registering

open Interleaving

variable {ω : Type}

/-!
# A registration under way
-/

def Ended (n : Nat) (c : Cluster Unit ω Stage) : Prop :=
  exists t outcome, c.threads n = some t ∧ t.task = .finished outcome

/-- The registration in a thread has been told what leads to where it is, all other threads only
remove, and once the withdrawal has succeeded nothing is registered. -/
structure Undertakes {S : Setting Unit ω} (R : Registry S) (n : Nat) (told : Nat → List Heard)
    (c : Cluster Unit ω Stage) : Prop where
  recounts : exists t s, c.threads n = some t ∧ t.task.spot? = some s ∧
    Recounts (S.member ()) ((c.standing ()).status = .deactivated) (told n) t.task
  others : forall k t s, k ≠ n -> c.threads k = some t -> t.task.spot? = some s -> s = .removing
  cleared : R.Reserved -> forall before previous,
    told n = before ++ [withdrawn (S.member ()) (.ok previous)] -> R.own c.world = none

section

variable {S : Setting Unit ω} {R : Registry S} {n : Nat} {told told' : Nat → List Heard}
  {σ σ' : Standing} {w w' : ω} {stage : Stage} {s : Spot} {c c' : Cluster Unit ω Stage}

theorem Ended.move (h : Ended n c) (hmove : Moves S c c') : Ended n c' := by
  rcases h with ⟨t, outcome, ht, htask⟩
  rcases persists_of_moves hmove ht with ⟨t', ht'⟩
  cases arrives_of_moves hmove ht' with
  | stay hu =>
      cases hu.symm.trans ht
      exact ⟨t, outcome, ht', htask⟩
  | start hfresh _ _ => cases hfresh.symm.trans ht
  | call hu hbusy _ _ _ _ _ | wake hu hbusy _ _ _ _ _ | turn hu hbusy _ _ =>
      cases hu.symm.trans ht
      cases hbusy.symm.trans htask

theorem removing_of_begins {op : Operation} (h : Begins S () σ w op stage σ' w')
    (hσ : σ.status = .registering ∨ σ.status = .deactivated) (hs : stage.spot? = some s) :
    s = .removing := by
  cases h with
  | activate hinactive _ =>
      rw [hinactive] at hσ
      rcases hσ with hσ | hσ <;> cases hσ
  | heartbeat hready _ =>
      rcases hσ with hσ | hσ <;> · rw [hσ] at hready; cases hready
  | deactivate _ =>
      cases hs
      rfl
  | activateRefused _ | heartbeatIdle _ | deactivateAgain _ | uniqueId _ _ | uniqueIdRefused _ =>
      cases hs

theorem finished_of_removing {reply : Spot.removing.Reply}
    (h : Resumes S () σ w .removing reply stage σ' w') : stage.spot? = none ∧ σ' = σ := by
  cases h with
  | removed | removingFailed => exact ⟨rfl, rfl⟩

namespace Undertakes

theorem status (h : Undertakes R n told c) (hsole : Sole S c) :
    (c.standing ()).status = .registering ∨ (c.standing ()).status = .deactivated := by
  rcases h.recounts with ⟨t, s, ht, hs, hrecounts⟩
  exact hsole.status n t s ht hs (hrecounts.registers hs)

theorem other (h : Undertakes R n told c) {k : Nat} {u : Thread Unit ω Stage} (hk : k ≠ n)
    (htold : told' n = told n) (hspot : forall s, u.task.spot? = some s -> s = .removing)
    (hgone : (c.standing ()).status = .deactivated -> σ.status = .deactivated)
    (hown : R.own c.world = none -> R.own w = none) :
    Undertakes R n told' (c.moved k u σ w) where
  recounts := by
    rcases h.recounts with ⟨t, s, ht, hs, hrecounts⟩
    refine ⟨t, s, (Function.update_of_ne hk.symm ..).trans ht, hs, ?_⟩
    rw [htold, standing_moved_lone]
    exact hrecounts.mono hgone
  others := by
    intro j t s hj ht hs
    rcases Cluster.thread_moved ht with ⟨rfl, rfl⟩ | ⟨_, ht⟩
    · exact hspot s hs
    · exact h.others j t s hj ht hs
  cleared := by
    intro hreserved before previous hlast
    rw [htold] at hlast
    exact hown (h.cleared hreserved before previous hlast)

theorem self (h : Undertakes R n told c) {u : Thread Unit ω Stage} (hspot : u.task.spot? = some s)
    (hrecounts : Recounts (S.member ()) ((c.standing ()).status = .deactivated) (told' n) u.task)
    (hcleared : R.Reserved -> forall before previous,
      told' n = before ++ [withdrawn (S.member ()) (.ok previous)] -> R.own w = none) :
    Undertakes R n told' (c.moved n u (c.standing ()) w) where
  recounts := by
    refine ⟨u, s, thread_moved_self u, hspot, ?_⟩
    rw [standing_moved_lone]
    exact hrecounts
  others := by
    intro k t s hk ht hs
    rcases Cluster.thread_moved ht with ⟨hkn, _⟩ | ⟨_, ht⟩
    · exact absurd hkn hk
    · exact h.others k t s hk ht hs
  cleared := hcleared

theorem move (h : Undertakes R n told c) (hsole : Sole S c) (hmove : Moves S c c')
    (hsilent : Silent (c.enacted S) (c'.enacted S)) : Ended n c' ∨ Undertakes R n told c' := by
  have hσ := h.status hsole
  have hgone := (hsole.proper.shift hmove ()).deactivated
  rcases h.recounts with ⟨t₀, s₀, ht₀, hs₀, hrecounts⟩
  cases hmove with
  | @start k i op stage σ w hfresh hpermits hbegin =>
      have hk : k ≠ n := by
        rintro rfl
        cases hfresh.symm.trans ht₀
      rw [standing_moved_lone] at hgone
      refine Or.inr (h.other hk rfl (fun s hs => removing_of_begins hbegin hσ hs) hgone ?_)
      exact (R.own_of_begins hbegin).trans
  | call ht htask hcall answer hpermits hanswer =>
      exact absurd hsilent (not_silent_of_call ht htask hcall)
  | @wake k t s ht htask hpermits hpause reply =>
      by_cases hk : k = n
      · subst hk
        cases ht₀.symm.trans ht
        rw [htask] at hrecounts
        rcases exists_answer_of_pause (m := S.member ()) hpause reply with ⟨answer, hreply⟩
        refine Or.inr (h.self rfl ⟨told k, answer, hrecounts, ?_, hreply⟩ h.cleared)
        rw [heard?_of_pause hpause, Option.toList_none, List.append_nil]
      · -- the others do not pause
        cases h.others k t s hk ht (spot?_of_waiting htask)
        cases hpause
  | @turn k t s reply stage σ w ht htask hpermits hresume =>
      have hown := R.own_of_resumes hresume
      by_cases hk : k = n
      · subst hk
        cases ht₀.symm.trans ht
        cases stage with
        | finished outcome => exact Or.inl ⟨_, outcome, thread_moved_self _, rfl⟩
        | waiting s' =>
            rw [htask] at hrecounts
            have hafter := recounts_of_resumes hσ hresume hrecounts
            cases hresume.standing_eq rfl
            refine Or.inr (h.self rfl hafter fun hreserved before previous hlast => ?_)
            exact hown.trans (h.cleared hreserved before previous hlast)
        | due s' reply' => exact absurd rfl (hresume.ne_due reply')
      · cases h.others k t s hk ht (spot?_of_due htask)
        rcases finished_of_removing hresume with ⟨hidle, rfl⟩
        exact Or.inr (h.other hk rfl (fun s hs => nomatch hidle.symm.trans hs) id hown.trans)
  | drift hpermits hdrift =>
      exact Or.inr ⟨⟨t₀, s₀, ht₀, hs₀, hrecounts⟩, h.others,
        fun hreserved before previous hlast =>
          hreserved _ _ hdrift (h.cleared hreserved before previous hlast)⟩

theorem replied (h : Undertakes R n told c) {k : Nat} {t : Thread Unit ω Stage}
    {answer : (s.effect (S.member t.owner)).Answer} {heard : Heard} (ht : c.threads k = some t)
    (htask : t.task = .waiting s)
    (hheard : heard? (s.effect (S.member t.owner)) answer = some heard)
    (hanswer : S.answers t.owner c.world (s.effect (S.member t.owner)) answer w) :
    Undertakes R n (Function.update told k (told k ++ [heard]))
      (c.moved k ⟨t.owner, .due s (s.reply (S.member t.owner) answer), w⟩
        (c.standing t.owner) w) := by
  by_cases hk : k = n
  · subst hk
    rcases h.recounts with ⟨t₀, s₀, ht₀, hs₀, hrecounts⟩
    cases ht₀.symm.trans ht
    rw [htask] at hrecounts
    refine h.self rfl ⟨told k, answer, hrecounts, ?_, rfl⟩ ?_
    · rw [Function.update_self, hheard]
      rfl
    · intro _ before previous hlast
      rw [Function.update_self] at hlast
      have hremoved := answer_of_heard? hheard (P := fun e a => S.answers () c.world e a w) hanswer
      rw [List.singleton_inj.mp (List.append_inj' hlast rfl).2] at hremoved
      exact (R.call hremoved).removed
  · have hremoving := h.others k t s hk ht (spot?_of_waiting htask)
    refine h.other hk (Function.update_of_ne (Ne.symm hk) ..) ?_ id ?_
    · intro s' hs'
      cases hs'
      exact hremoving
    · subst hremoving
      exact (R.call hanswer).unfilled

theorem fails (h : Undertakes R n told c) (hsole : Sole S c) (hmove : Moves S c c')
    {t : Thread Unit ω Stage} {e : Error} (ht : c'.threads n = some t)
    (htask : t.task = .finished (.registered (.error e))) :
    (exists before k answer,
      Ends (S.member ()) ((c.standing ()).status = .deactivated) before k e ∧
        told n = before ++ [withdrawn (S.member ()) answer]) ∧
      ((c'.standing ()).status = .inactive ∨ (c'.standing ()).status = .deactivated) ∧
      R.own c'.world = R.own c.world := by
  rcases h.recounts with ⟨t₀, s₀, ht₀, hs₀, hrecounts⟩
  -- the thread has just ended, so that it has taken the turn itself
  have hbusy : c.threads n ≠ some t := by
    intro hsame
    cases ht₀.symm.trans hsame
    rw [htask] at hs₀
    cases hs₀
  cases arrives_of_moves hmove ht with
  | stay hsame => exact absurd hsame hbusy
  | start hfresh _ _ => cases hfresh.symm.trans ht₀
  | call _ _ _ _ _ _ _ | wake _ _ _ _ _ _ _ => cases htask
  | @turn _ s _ stage hu hdue _ hresume =>
      cases ht₀.symm.trans hu
      have hσ := h.status hsole
      rw [hdue] at hrecounts
      have hends := recounts_of_resumes hσ hresume hrecounts
      rw [show stage = _ from htask] at hends
      rcases hrecounts with ⟨before, answer, hleads, _, _⟩
      exact ⟨hends, status_of_failed hσ hresume hleads htask, R.own_of_resumes hresume⟩

end Undertakes

end

/-!
# Failed registrations
-/

inductive Starts (S : Setting Unit ω) (op : Operation) (n : Nat) (c : Cluster Unit ω Task) :
    Cluster Unit ω Task → Prop where
  | start {task σ w} (hfresh : c.threads n = none) (hpermits : S.permits c (.start n))
      (hturn : Turn S () (op.proc (S.member ())) (c.standing ()) c.world task σ w) :
      Starts S op n c (c.moved n ⟨(), task, w⟩ σ w)

/-- With this step, the registration in a thread ends with an error. -/
structure Fails (S : Setting Unit ω) (n : Nat) (e : Error) (d d' : Cluster Unit ω Task) :
    Prop where
  step : Step S d d'
  before : exists t, d.threads n = some t ∧ forall outcome, t.task ≠ .finished outcome
  after : exists t, d'.threads n = some t ∧ t.task = .finished (.registered (.error e))

section

variable {S : Setting Unit ω}

theorem Starts.of_begins {c : Cluster Unit ω Stage} {op : Operation} {n : Nat} {stage : Stage}
    {σ : Standing} {w : ω} (hfresh : c.threads n = none)
    (hpermits : S.permits (c.enacted S) (.start n))
    (hbegin : Begins S () (c.standing ()) c.world op stage σ w) :
    Starts S op n (c.enacted S) ((c.moved n ⟨(), stage, w⟩ σ w).enacted S) := by
  rw [enacted_moved]
  exact .start (fresh_enacted hfresh) hpermits hbegin.turn

theorem Starts.begins {c : Cluster Unit ω Stage} {c₁ : Cluster Unit ω Task} {op : Operation}
    {n : Nat} (h : Starts S op n (c.enacted S) c₁) :
    exists stage σ w, c.threads n = none ∧ S.permits (c.enacted S) (.start n) ∧
      Begins S () (c.standing ()) c.world op stage σ w ∧
      c₁ = (c.moved n ⟨(), stage, w⟩ σ w).enacted S := by
  cases h with
  | @start task σ w hfresh hpermits hturn =>
      rcases turn_begin hturn with ⟨stage, rfl, hbegin⟩
      refine ⟨stage, σ, w, Option.map_eq_none_iff.mp hfresh, hpermits, hbegin, ?_⟩
      rw [enacted_moved]
      rfl

theorem Undertakes.start (R : Registry S) {c : Cluster Unit ω Stage} {n : Nat} {stage : Stage}
    {σ : Standing} {w : ω} (hsole : Sole S c) (hinactive : (c.standing ()).status = .inactive)
    (hbegin : Begins S () (c.standing ()) c.world .activate stage σ w) :
    Undertakes R n (fun _ => []) (c.moved n ⟨(), stage, w⟩ σ w) where
  recounts := by
    cases hbegin with
    | activate hstatus htry =>
        rcases htry.retreats with ⟨s, rfl, _⟩
        exact ⟨_, s, thread_moved_self _, rfl,
          recounts_of_begins (.activate hstatus htry) hinactive⟩
    | activateRefused hstatus => exact absurd hinactive hstatus
  others := by
    intro k t s hk ht hs
    rcases Cluster.thread_moved ht with ⟨hkn, _⟩ | ⟨_, ht⟩
    · exact absurd hkn hk
    · exact absurd hinactive (hsole.proper.not_inactive ht hs)
  cleared := by
    intro _ before previous hlast
    cases before with
    | nil | cons _ _ => cases hlast

/-- What holds along the way from the start of a registration in a thread. -/
structure Underway (R : Registry S) (n : Nat) (c : Cluster Unit ω Stage) (told : Nat → List Heard)
    (d : Cluster Unit ω Stage) : Prop where
  departed : Departed S d
  continues : Continues c d
  registration : Ended n d ∨ Undertakes R n told d

section

variable {R : Registry S} {n : Nat} {told : Nat → List Heard} {c d d' : Cluster Unit ω Stage}

theorem Underway.move (h : Underway R n c told d) {told' : Nat → List Heard}
    (hmove : Moves S d d') (hregistration : Ended n d' ∨ Undertakes R n told' d') :
    Underway R n c told' d' :=
  ⟨h.departed.move hmove, h.continues.move hmove, hregistration⟩

theorem underway_of_hears {d : Cluster Unit ω Task} {stage : Stage} {σ : Standing} {w : ω}
    (hc : Departed S c) (hinactive : (c.standing ()).status = .inactive)
    (hstart : Moves S c (c.moved n ⟨(), stage, w⟩ σ w))
    (hbegin : Begins S () (c.standing ()) c.world .activate stage σ w)
    (hears : Hears S ((c.moved n ⟨(), stage, w⟩ σ w).enacted S) told d) :
    exists d', d = d'.enacted S ∧ Underway R n c told d' := by
  have hcontinues : Continues c c := fun n t ht => ⟨t, ht, rfl⟩
  refine holds_of_answers (P := Underway R n c) ?_ ?_
    ⟨hc.move hstart, hcontinues.move hstart, Or.inr (.start R hc.sole hinactive hbegin)⟩ hears
  · intro told d d' hmove hsilent h
    refine h.move hmove ?_
    rcases h.registration with hended | hunder
    · exact Or.inl (hended.move hmove)
    · exact hunder.move h.departed.sole hmove hsilent
  · intro told d k t s answer heard w ht htask hheard hanswer hmove h
    refine h.move hmove ?_
    rcases h.registration with hended | hunder
    · exact Or.inl (hended.move hmove)
    · exact Or.inr (hunder.replied ht htask hheard hanswer)

theorem Underway.undertakes (h : Underway R n c told d) {e : Error} {d' : Cluster Unit ω Task}
    (hfails : Fails S n e (d.enacted S) d') : Undertakes R n told d := by
  refine h.registration.resolve_left ?_
  rintro ⟨t, outcome, ht, htask⟩
  rcases hfails.before with ⟨u, hu, hbusy⟩
  cases (threads_enacted ht).symm.trans hu
  exact hbusy outcome (congrArg (Stage.task (S.member t.owner)) htask)

end

/-- A registration that fails has used up its rounds and reports what the last one has ended in,
unless the member was deactivated meanwhile or has settled a number without ids.  Then the member is
inactive again or deactivated, it tells neither a number nor ids, what it has written is withdrawn,
and it has changed nothing else. -/
theorem failed_registration_undone (R : Registry S) {w₀ : ω} {c c₁ d d' : Cluster Unit ω Task}
    {n : Nat} {told : Nat → List Heard} {e : Error} (hrun : Runs S (.initial w₀) c)
    (hinactive : (c.standing ()).status = .inactive) (hstart : Starts S .activate n c c₁)
    (hears : Hears S c₁ told d) (hfails : Fails S n e d d') :
    (exists before k answer, told n = before ++ [withdrawn (S.member ()) answer] ∧
      Ends (S.member ()) (Deactivates c d') before k e ∧
      k ≤ (S.member ()).config.settleAttempts.toNat ∧
      ((e = .invalidState .registering .deactivated ∧ Deactivates c d') ∨
        (exists number, e = .numberOverflow number ∧ 65535 < number.toNat) ∨
        (k = (S.member ()).config.settleAttempts.toNat ∧
          exists last, Rounds (S.member ()) before k last ∧
            ((exists e', last = some e' ∧ e = .registry e') ∨
              (last = none ∧ e = .unsettled (S.member ()).config.settleAttempts)))) ∧
      (answer.isOk = true -> R.Reserved -> R.own d'.world = none)) ∧
    ((Deactivates c d' ∧ (d'.standing ()).status = .deactivated) ∨
      (¬ Deactivates c d' ∧ (d'.standing ()).status = .inactive)) ∧
    (forall {ρ : Type} (around : (e : Effect) → ρ → e.Answer × ρ) r,
      (Member.serverNumber.complete around (d'.standing ()) r).1 = .error .notReady ∧
        (Member.uniqueId.complete around (d'.standing ()) r).1 = .error .notReady) ∧
    (forall region key,
      region ≠ (S.member ()).servers.name ∨ key ≠ (S.member ()).id.text ->
      (forall w w', S.drifts w w' -> R.contents w' region key = R.contents w region key) ->
      R.contents d'.world region key = R.contents c.world region key) := by
  rcases holds_of_runs (P := Departed S) (fun _ _ hmove h => h.move hmove) (.initial w₀) hrun with
    ⟨c, rfl, hc⟩
  rcases hstart.begins with ⟨stage, σ, w, hfresh, hpermits, hbegin, rfl⟩
  have hmoves := Moves.start hfresh hpermits hbegin
  have hafter := hears.runs.tail hfails.step
  rcases underway_of_hears (R := R) hc hinactive hmoves hbegin hears with ⟨d, rfl, hd⟩
  have hunder := hd.undertakes hfails
  rcases moves_of_step hfails.step with ⟨d', hmove, rfl⟩
  have hsole := hd.departed.sole
  rcases hfails.after with ⟨u, hu, htask⟩
  rcases thread_of_enacted hu with ⟨t, ht, rfl⟩
  rcases hunder.fails hsole hmove ht (Deactivation.stage_of_finished htask) with
    ⟨⟨before, k, answer, hends, htold⟩, hstatus, hown⟩
  have hdeactivates := deactivates_iff hc (hd.departed.move hmove) hinactive
    (hd.continues.move hmove)
  have hends := hends.mono fun hgone =>
    hdeactivates.mpr ((hsole.proper.shift hmove ()).deactivated hgone)
  refine ⟨⟨before, k, answer, htold, hends, hends.le, hends.cause, ?_⟩, ?_, ?_, ?_⟩
  · intro hok hreserved
    cases answer with
    | error e => cases hok
    | ok previous => exact hown.trans (hunder.cleared hreserved before previous htold)
  · rcases hstatus with hinactive' | hgone
    · refine Or.inr ⟨fun hgone => ?_, hinactive'⟩
      cases hinactive'.symm.trans (hdeactivates.mp hgone)
    · exact Or.inl ⟨hdeactivates.mpr hgone, hgone⟩
  · exact fun around r => ((hsole.proper.move hmove).standing ()).refuses hstatus around r
  · intro region key hother hdrift
    exact R.other_of_runs hother hdrift (.head (step_of_moves hmoves) hafter)

end

/-!
# A member that tries twice
-/

def hasty : Member := ⟨⟨"a"⟩, { settleAttempts := 2 }⟩

theorem hasty_fits : Stored.Fits hasty.id.text :=
  Stored.fits_of_size (by decide)

def kept : Registry (Deactivation.setting hasty) :=
  .ofShared (Deactivation.shared hasty_fits)

def outage : RegistryError := .unavailable "get_all" "down"

/-- The first round has written a claim and cannot verify it, and the second one cannot begin: the
claim is withdrawn again. -/
theorem hasty_registration_undone :
    exists told c₁ d d',
      Starts (Deactivation.setting hasty) .activate 0 (.initial fun _ _ => none) c₁ ∧
      Hears (Deactivation.setting hasty) c₁ told d ∧
      Fails (Deactivation.setting hasty) 0 (.registry outage) d d' ∧
      (exists claim bytes, told 0 = [listed hasty (.ok []), staked hasty claim (.ok none),
        listed hasty (.error outage), listed hasty (.error outage),
        withdrawn hasty (.ok (some bytes))]) ∧
      kept.own d'.world = none ∧
      (d'.standing ()).status = .inactive := by
  let S := Deactivation.setting hasty
  let c₀ : Cluster Unit Contents Stage := .initial fun _ _ => none
  let claim : Registration := ⟨"a", 0, .epoch⟩
  let w₁ := c₀.world.assign hasty.servers.name hasty.id.text (some (Storable.encode claim))
  let w₂ := w₁.assign hasty.servers.name hasty.id.text none
  have hempty : c₀.world.Lists hasty.servers.name [] := Contents.lists_nil fun _ => rfl
  have hnumber : Numbering.lowestFree (S.member ()).id.text [] = 0 := Numbering.lowestFree_eq .nil
  have hbegin : Begins S () (c₀.standing ()) c₀.world .activate
      (.waiting (.listing .register ⟨1, 1⟩)) ⟨.registering, none⟩ c₀.world :=
    .activate rfl (.list rfl)
  have hstart := Starts.of_begins (c := c₀) (n := 0) rfl trivial hbegin
  have hlist : S.Calls c₀ 0 () ⟨.registering, none⟩ (.listing .register ⟨1, 1⟩) c₀.world c₀.world
      (.ok []) c₀.world := ⟨trivial, hempty.answers, fun _ _ h => nomatch h⟩
  have hlisted := hears_reply .start hlist rfl hempty.heard trivial (.listed (t := .epoch) rfl)
  rw [hnumber] at hlisted
  have hput : S.Calls c₀ 0 () ⟨.registering, none⟩ (.staking .register ⟨1, 1⟩ claim) c₀.world
      c₀.world (.ok none) w₁ := ⟨trivial, .put, fun _ _ h => nomatch h⟩
  have hstaked := hears_reply hlisted hput rfl rfl trivial .staked
  have hspread := hears_turn (hears_wake () rfl hstaked trivial) trivial (.spread rfl)
  have hverify : S.Calls c₀ 0 () ⟨.registering, none⟩ (.verifying .register ⟨1, 1⟩ claim) w₁ w₁
      (.error outage) w₁ := ⟨trivial, .failed outage, fun _ _ h => nomatch h⟩
  have hretried := hears_reply hspread hverify rfl rfl trivial
    (.verifyingFailed (.backOff (by decide) []))
  have hagain := hears_turn (hears_wake () rfl hretried trivial) trivial (.backedOff (.list rfl))
  have hlist' : S.Calls c₀ 0 () ⟨.registering, none⟩ (.listing .register ⟨2, 0⟩) w₁ w₁
      (.error outage) w₁ := ⟨trivial, .failed outage, fun _ _ h => nomatch h⟩
  have hfailed := hears_reply hagain hlist' rfl rfl trivial
    (.listingFailed (.exhausted rfl .abandon))
  have hremove : S.Calls c₀ 0 () ⟨.registering, none⟩
      (.withdrawing (.abandoning (.registry outage))) w₁ w₁ (.ok (some (Storable.encode claim)))
      w₂ := ⟨trivial, .remove, fun _ _ _ => rfl⟩
  have hwithdrawn := hears_call hfailed hremove rfl
  have hresume : Resumes S () ⟨.registering, none⟩ w₂
      (.withdrawing (.abandoning (.registry outage)))
      (heardPrevious (.ok (some (Storable.encode claim)))) _ _ _ := .relinquished rfl
  have hmoves : Moves S (c₀.moved 0 ⟨(), .due _ _, w₂⟩ ⟨.registering, none⟩ w₂) _ :=
    moves_turn trivial hresume
  have hfails : Fails S 0 (.registry outage) _ _ :=
    ⟨step_of_moves hmoves, ⟨_, threads_enacted (thread_moved_self _), fun _ h => nomatch h⟩,
      ⟨_, threads_enacted (thread_moved_self _), rfl⟩⟩
  rcases failed_registration_undone kept .refl rfl hstart hwithdrawn hfails with
    ⟨⟨before, k, answer, htold, _, _, _, hcleared⟩, _, _, _⟩
  rw [Function.update_self] at htold
  have hlast : withdrawn hasty (.ok (some (Storable.encode claim))) = withdrawn hasty answer :=
    List.singleton_inj.mp (List.append_inj' htold rfl).2
  refine ⟨_, _, _, _, hstart, hwithdrawn, hfails, ⟨claim, Storable.encode claim, ?_⟩, ?_, rfl⟩
  · simp only [Function.update_self]
    rfl
  · refine hcleared ?_ (Registry.reserved_ofShared _)
    rw [← withdrawn_inj hlast]
    rfl

end Registering
end Roster
