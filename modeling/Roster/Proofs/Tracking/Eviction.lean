import Roster.Proofs.Time.Elapsed
import Roster.Proofs.Tracking.Visits

/-!
# Evictions

A lookup that is given an expired sighting removes it, in a call of its own.  As long as nobody has
put the token anew in between, the sighting that it removes is the one that it was given, and is
expired.  Otherwise it may remove one that has just been written.

Whether a sighting is expired is asked before it is removed, and what is expired stays so only while
the clock shows no leap second, so this is assumed where expiry is spoken of.
-/

namespace Roster
namespace Tracking

/-!
# What is stored of a token
-/

def World.sighting? (w : World) (region token : String) : Option Sighting :=
  (w.contents region token).bind fun bytes => (Sighting.decode bytes).toOption

theorem heardSighting_eq_some {value : Option Bytes} {s : Sighting} :
    heardSighting (.ok value) = .ok (some s) ↔
      (value.bind fun bytes => (Sighting.decode bytes).toOption) = some s := by
  cases value with
  | none => exact ⟨fun h => (nomatch h), fun h => nomatch h⟩
  | some bytes =>
      change (Region.decode bytes).map some = .ok (some s) ↔ _
      have hstorable : Storable.decode bytes = Sighting.decode bytes := rfl
      rw [Option.bind_some]
      unfold Region.decode
      rw [hstorable]
      cases Sighting.decode bytes with
      | error fault => exact ⟨fun h => (nomatch h), fun h => nomatch h⟩
      | ok found =>
          change Except.ok (some found) = .ok (some s) ↔ some found = some s
          rw [Except.ok.injEq]

section

variable {w : World} {q : Call} {value : q.Answer} {contents : Contents}

inductive Touches (region token : String) (w : World) (q : Call) (w' : World) : Prop where
  | put (h : w.puts token < w'.puts token)
  | remove (hq : q = .remove region token) (hputs : w'.puts token = w.puts token)
      (h : w'.sighting? region token = none)
  | keep (hputs : w'.puts token = w.puts token)
      (h : w'.sighting? region token = w.sighting? region token)

theorem touches_called (region token : String) (h : w.contents.Answers q (.ok value) contents) :
    Touches region token w q (w.called contents q) := by
  have hkeep (c : Contents) (hputs : (w.called c q).puts token = w.puts token)
      (hc : (w.called c q).contents region token = w.contents region token) :
      Touches region token w q (w.called c q) := by
    refine .keep hputs ?_
    unfold World.sighting?
    rw [hc]
  cases h with
  | get => exact hkeep _ rfl rfl
  | list hnodup hkeys => exact hkeep _ rfl rfl
  | @put _ key bytes =>
      by_cases hkey : token = key
      · subst hkey
        refine .put ?_
        change _ < Function.update w.puts token (w.puts token + 1) token
        rw [Function.update_self]
        exact Nat.lt_succ_self _
      · refine hkeep _ (Function.update_of_ne hkey _ _) ?_
        exact if_neg fun h => hkey h.2
  | @remove region' key =>
      by_cases hkey : region = region' ∧ token = key
      · rcases hkey with ⟨rfl, rfl⟩
        refine .remove rfl rfl ?_
        unfold World.sighting?
        change (w.contents.assign region token none region token).bind _ = none
        rw [Contents.assign_self]
        rfl
      · refine hkeep _ rfl ?_
        exact if_neg hkey

end

/-!
# Visits on their way to a removal
-/

section

variable {ι : Type} (T : ι → Tracker) (region token : String)

/-- How far a visit has come towards a removal of the token. -/
inductive Pose (clock : Instant) (v : Visit ι) : Prop where
  | clear (h : v.task.Always (· ≠ .call (.remove region token)))
  | opening (htask : v.task = (Job.lookup token).proc (T v.owner))
  | judging {s} (hread : v.last.sighting? region token = some s)
      (htask : v.task = judge (T v.owner) token s)
  | evicting {s now} (hread : v.last.sighting? region token = some s)
      (hexpired : s.isExpired now (T v.owner).window = true) (hnow : now ≤ clock)
      (hleap : now.isLeapSecond = false) (htask : v.task = evict (T v.owner) token)

/-- A visit knows what is stored under the token, unless it has been put or removed since. -/
structure Knows (w : World) (v : Visit ι) : Prop where
  le : v.last.puts token ≤ w.puts token
  known : v.last.puts token = w.puts token ->
    w.sighting? region token = v.last.sighting? region token ∨ w.sighting? region token = none

structure Traced (c : Traffic ι) : Prop where
  clock : c.world.clock.isLeapSecond = false
  pose : forall n v, c.visits n = some v -> Pose T region token c.world.clock v
  knows : forall n v, c.visits n = some v -> Knows region token c.world v

end

section

variable {ι : Type} {T : ι → Tracker} {region token : String} {c c' : Traffic ι}

theorem Traced.initial {w : World} (hleap : w.clock.isLeapSecond = false) :
    Traced T region token (.initial w) where
  clock := hleap
  pose := fun _ _ h => (nomatch h)
  knows := fun _ _ h => (nomatch h)

theorem Pose.later {clock clock' : Instant} {v : Visit ι} (h : Pose T region token clock v)
    (hclock : clock ≤ clock') : Pose T region token clock' v := by
  cases h with
  | clear h => exact .clear h
  | opening htask => exact .opening htask
  | judging hread htask => exact .judging hread htask
  | evicting hread hexpired hnow hleap htask =>
      exact .evicting hread hexpired (Instant.le_trans hnow hclock) hleap htask

theorem pose_of_job (hregion : forall i, (T i).users.name = region) {i : ι} (job : Job)
    (clock : Instant) (last : World) :
    Pose T region token clock ⟨i, job.proc (T i), last⟩ := by
  cases job with
  | lookup token' =>
      by_cases htoken : token' = token
      · subst htoken
        exact .opening rfl
      · refine .clear (Proc.Always.bind ?_ fun result => trivial)
        refine always_lookup (fun e he => Effect.ne_call_of_isRoutine he _) (fun h => nomatch h)
          fun h => ?_
        cases h
        exact htoken rfl
  | track request response =>
      refine .clear (Proc.Always.bind ?_ fun result => trivial)
      refine always_track (fun e he => he _) fun token' _ => ⟨?_, fun bytes => ?_⟩
      · exact fun h => nomatch h
      · exact fun h => nomatch h

theorem clock_called (w : World) (contents : Contents) (q : Call) :
    (w.called contents q).clock = w.clock := by
  cases q with
  | get region key | put region key value | remove region key | list region => rfl

theorem Pose.ask {w : World} {v : Visit ι} (h : Pose T region token w.clock v) {e : Effect}
    {next : e.Answer → Proc Result} {answer : e.Answer} (htask : v.task = .ask e next)
    (htells : w.Tells e answer) (hleap : w.clock.isLeapSecond = false) :
    Pose T region token w.clock ⟨v.owner, next answer, v.last⟩ := by
  cases h with
  | clear h =>
      rw [htask] at h
      exact .clear (h.2 answer)
  | opening hopening =>
      rw [proc_lookup] at hopening
      cases htask.symm.trans hopening
      exact htells.elim
  | @judging s hread hjudging =>
      cases htask.symm.trans hjudging
      cases (htells : answer = w.clock)
      cases hexpired : s.isExpired w.clock (T v.owner).window with
      | true => exact .evicting hread hexpired (Instant.le_refl _) hleap (if_pos hexpired)
      | false =>
          refine .clear ?_
          change Proc.Always _ (if s.isExpired w.clock (T v.owner).window then _ else _)
          rw [if_neg (by rw [hexpired]; exact Bool.false_ne_true)]
          exact trivial
  | evicting _ _ _ _ hevicting =>
      cases htask.symm.trans hevicting
      exact htells.elim

theorem Pose.call (hregion : forall i, (T i).users.name = region) {w : World} {v : Visit ι}
    (h : Pose T region token w.clock v) {q : Call} {next : (Effect.call q).Answer → Proc Result}
    {value : q.Answer} {contents : Contents} (htask : v.task = .ask (.call q) next)
    (hanswer : w.contents.Answers q (.ok value) contents) :
    Pose T region token w.clock ⟨v.owner, next (.ok value), w.called contents q⟩ := by
  cases h with
  | clear h =>
      rw [htask] at h
      exact .clear (h.2 _)
  | opening hopening =>
      rw [proc_lookup] at hopening
      cases htask.symm.trans hopening
      cases hanswer with
      | get =>
          change Pose T region token w.clock ⟨v.owner, heed (T v.owner) token (heardSighting
            (.ok (w.contents (T v.owner).users.name token))), _⟩
          rw [hregion]
          cases hheard : heardSighting (.ok (w.contents region token)) with
          | error e => exact .clear ⟨fun h => (nomatch h), fun _ => trivial⟩
          | ok found =>
              cases found with
              | none => exact .clear trivial
              | some s => exact .judging (heardSighting_eq_some.mp hheard) rfl
  | judging hread hjudging => cases htask.symm.trans hjudging
  | evicting _ _ _ _ hevicting =>
      cases htask.symm.trans hevicting
      refine .clear ?_
      dsimp only
      cases heardSighting (.ok value) with
      | error e => exact ⟨fun h => (nomatch h), fun _ => trivial⟩
      | ok before => exact trivial

theorem Knows.refl (w : World) {v : Visit ι} (h : v.last = w) : Knows region token w v := by
  subst h
  exact ⟨Nat.le_refl _, fun _ => Or.inl rfl⟩

theorem Knows.called {w : World} {v : Visit ι} (h : Knows region token w v) {q : Call}
    {value : q.Answer} {contents : Contents} (hanswer : w.contents.Answers q (.ok value) contents) :
    Knows region token (w.called contents q) v := by
  cases touches_called region token hanswer with
  | put hputs =>
      have hle := h.le
      exact ⟨by omega, fun heq => by omega⟩
  | remove _ hputs hnone => exact ⟨by rw [hputs]; exact h.le, fun _ => Or.inr hnone⟩
  | keep hputs hkeep =>
      refine ⟨by rw [hputs]; exact h.le, fun heq => ?_⟩
      rw [hkeep]
      exact h.known (heq.trans hputs)

theorem Traced.step (hregion : forall i, (T i).users.name = region) (h : Traced T region token c)
    (hstep : Step T c c') (hleap : c'.world.clock.isLeapSecond = false) :
    Traced T region token c' := by
  cases hstep with
  | start job hfresh =>
      refine ⟨h.clock, fun k u hu => ?_, fun k u hu => ?_⟩
      · rcases Traffic.visit_moved hu with ⟨_, rfl⟩ | ⟨_, hu⟩
        · exact pose_of_job hregion job _ _
        · exact h.pose k u hu
      · rcases Traffic.visit_moved hu with ⟨_, rfl⟩ | ⟨_, hu⟩
        · exact .refl _ rfl
        · exact h.knows k u hu
  | @call n v q next value contents hv htask hanswer =>
      have hclock := clock_called c.world contents q
      refine ⟨?_, fun k u hu => ?_, fun k u hu => ?_⟩
      · exact (congrArg Instant.isLeapSecond hclock).trans h.clock
      · change Pose T region token (c.world.called contents q).clock u
        rw [hclock]
        rcases Traffic.visit_moved hu with ⟨_, rfl⟩ | ⟨_, hu⟩
        · exact (h.pose n v hv).call hregion htask hanswer
        · exact h.pose k u hu
      · rcases Traffic.visit_moved hu with ⟨_, rfl⟩ | ⟨_, hu⟩
        · exact .refl _ rfl
        · exact (h.knows k u hu).called hanswer
  | @ask n v e next answer hv htask htells =>
      refine ⟨h.clock, fun k u hu => ?_, fun k u hu => ?_⟩
      · rcases Traffic.visit_moved hu with ⟨_, rfl⟩ | ⟨_, hu⟩
        · exact (h.pose n v hv).ask htask htells h.clock
        · exact h.pose k u hu
      · rcases Traffic.visit_moved hu with ⟨_, rfl⟩ | ⟨_, hu⟩
        · exact ⟨(h.knows n v hv).le, (h.knows n v hv).known⟩
        · exact h.knows k u hu
  | tick hclock =>
      refine ⟨hleap, fun k u hu => (h.pose k u hu).later hclock, fun k u hu => ?_⟩
      exact ⟨(h.knows k u hu).le, (h.knows k u hu).known⟩

theorem Traced.runs (hregion : forall i, (T i).users.name = region) (h : Traced T region token c)
    (hrun : OrdinaryRuns T c c') : Traced T region token c' := by
  induction hrun with
  | refl => exact h
  | tail _ hstep ih => exact ih.step hregion hstep.1 hstep.2

/-!
# Timely removals
-/

/-- A visit that is about to remove a token which nobody has put since it was read removes an
expired sighting. -/
theorem Traced.expired (h : Traced T region token c) {n : Nat} {v : Visit ι}
    {next : (Effect.call (.remove region token)).Answer → Proc Result} (hv : c.visits n = some v)
    (htask : v.task = .ask (.call (.remove region token)) next)
    (hputs : v.last.puts token = c.world.puts token) {s : Sighting}
    (hs : c.world.sighting? region token = some s) (hleap : s.refreshedAt.isLeapSecond = false) :
    s.isExpired c.world.clock (T v.owner).window = true := by
  cases h.pose n v hv with
  | clear hclear =>
      rw [htask] at hclear
      exact absurd rfl hclear.1
  | opening hopening =>
      rw [proc_lookup] at hopening
      cases htask.symm.trans hopening
  | judging hread hjudging => cases htask.symm.trans hjudging
  | @evicting s' now hread hexpired hnow hleap' _ =>
      rcases (h.knows n v hv).known hputs with hsame | hnone
      · rw [hsame, hread] at hs
        cases hs
        exact Sighting.isExpired_mono hnow hleap' h.clock hleap hexpired
      · cases hnone.symm.trans hs

/-- Whoever is on the way to remove the token has read it since it was last put. -/
def Timely (region token : String) (c : Traffic ι) : Prop :=
  forall n v, c.visits n = some v -> v.task.Nears (.remove region token) ->
    v.last.puts token = c.world.puts token

theorem puts_le_called (w : World) (contents : Contents) (q : Call) (token : String) :
    w.puts token ≤ (w.called contents q).puts token := by
  cases q with
  | put region key bytes =>
      change _ ≤ Function.update w.puts key (w.puts key + 1) token
      by_cases hkey : token = key
      · rw [hkey, Function.update_self]
        exact Nat.le_succ _
      · rw [Function.update_of_ne hkey]
  | get region key | remove region key | list region => exact Nat.le_refl _

theorem puts_le_of_step (token : String) (hstep : Step T c c') :
    c.world.puts token ≤ c'.world.puts token := by
  cases hstep with
  | call hv htask hanswer => exact puts_le_called _ _ _ _
  | start _ _ | ask _ _ _ | tick _ => exact Nat.le_refl _

theorem clock_le_of_step (hstep : Step T c c') : c.world.clock ≤ c'.world.clock := by
  cases hstep with
  | call hv htask hanswer =>
      change _ ≤ (c.world.called _ _).clock
      rw [clock_called]
      exact Instant.le_refl _
  | tick hclock => exact hclock
  | start _ _ | ask _ _ _ => exact Instant.le_refl _

theorem Timely.step (h : Timely region token c) (hstep : Step T c c')
    (hputs : c'.world.puts token = c.world.puts token) : Timely region token c' := by
  intro k u hu hnears
  rw [hputs]
  cases hstep with
  | start job hfresh =>
      rcases Traffic.visit_moved hu with ⟨_, rfl⟩ | ⟨_, hu⟩
      · rfl
      · exact h k u hu hnears
  | call hv htask hanswer =>
      rcases Traffic.visit_moved hu with ⟨_, rfl⟩ | ⟨_, hu⟩
      · exact hputs
      · exact h k u hu hnears
  | @ask n v e next answer hv htask htells =>
      rcases Traffic.visit_moved hu with ⟨_, rfl⟩ | ⟨_, hu⟩
      · refine h n v hv ?_
        rw [htask]
        cases e with
        | call q => exact htells.elim
        | pause time | now | readingPast previous | look | store standing | ticket | threadName
        | entropy | report event => exact ⟨answer, hnears⟩
      · exact h k u hu hnears
  | tick hclock => exact h k u hu hnears

/-- In a step that puts nothing under the token, a sighting stays stored unless it is expired. -/
theorem Traced.stays (h : Traced T region token c) (htimely : Timely region token c)
    (hstep : Step T c c') (hputs : c'.world.puts token = c.world.puts token) {s : Sighting}
    (hs : c.world.sighting? region token = some s) (hleap : s.refreshedAt.isLeapSecond = false) :
    c'.world.sighting? region token = some s ∨
      exists i, s.isExpired c'.world.clock (T i).window = true := by
  cases hstep with
  | @call n v q next value contents hv htask hanswer =>
      cases touches_called region token hanswer with
      | put hmore => exact absurd hputs (Nat.ne_of_gt hmore)
      | keep _ hkeep => exact Or.inl (hkeep.trans hs)
      | remove hq _ _ =>
          subst hq
          have hread := htimely n v hv (by rw [htask]; exact rfl)
          exact Or.inr ⟨v.owner, h.expired hv htask hread hs hleap⟩
  | start _ _ | ask _ _ _ | tick _ => exact Or.inl hs

theorem Traced.stays_run (hregion : forall i, (T i).users.name = region)
    (h : Traced T region token c) (htimely : Timely region token c) {s : Sighting}
    (hs : c.world.sighting? region token = some s) (hleap : s.refreshedAt.isLeapSecond = false)
    (hrun : OrdinaryRuns T c c') :
    c.world.puts token ≤ c'.world.puts token ∧
      (c'.world.puts token = c.world.puts token -> Timely region token c' ∧
        (c'.world.sighting? region token = some s ∨
          exists i, s.isExpired c'.world.clock (T i).window = true)) := by
  induction hrun with
  | refl => exact ⟨Nat.le_refl _, fun _ => ⟨htimely, Or.inl hs⟩⟩
  | @tail d d' hrun hstep ih =>
      have hle := puts_le_of_step token hstep.1
      rcases ih with ⟨hbefore, ih⟩
      refine ⟨Nat.le_trans hbefore hle, fun hputs => ?_⟩
      have hsame : d'.world.puts token = d.world.puts token := by omega
      rcases ih (by omega) with ⟨htimely, hstored⟩
      refine ⟨htimely.step hstep.1 hsame, ?_⟩
      have hd := h.runs hregion hrun
      rcases hstored with hstored | ⟨i, hexpired⟩
      · exact hd.stays htimely hstep.1 hsame hstored hleap
      · exact Or.inr ⟨i, Sighting.isExpired_mono (clock_le_of_step hstep.1) hd.clock hstep.2 hleap
          hexpired⟩

/-!
# Runs of single visits
-/

theorem runs_evict (hregion : forall i, (T i).users.name = region) {n : Nat} (i : ι)
    (hfresh : c.visits n = none) (hleap : c.world.clock.isLeapSecond = false) {s : Sighting}
    (hs : c.world.sighting? region token = some s)
    (hexpired : s.isExpired c.world.clock (T i).window = true) :
    OrdinaryRuns T c (c.moved n ⟨i, evict (T i) token, c.world⟩ c.world) := by
  let opening : Visit ι := ⟨i, (Job.lookup token).proc (T i), c.world⟩
  have hstart : Step T c (c.moved n opening c.world) := .start (.lookup token) hfresh
  have hget := step_call (T := T) (c := c) (n := n) (v := opening) (w := c.world)
    (proc_lookup (T i) token) .get
  have hheard : heardSighting (.ok (c.world.contents region token)) = .ok (some s) :=
    heardSighting_eq_some.mpr hs
  rw [hregion, hheard] at hget
  have hjudge := step_ask (T := T) (c := c) (n := n) (v := ⟨i, judge (T i) token s, c.world⟩)
    (w := c.world) rfl (show c.world.Tells .now c.world.clock from rfl)
  dsimp only at hjudge
  rw [if_pos hexpired] at hjudge
  exact .tail (.tail (.tail .refl ⟨hstart, hleap⟩) ⟨hget, hleap⟩) ⟨hjudge, hleap⟩

def written (t : Tracker) (token user : String) (now : Instant) : Sighting :=
  { token, user, owner := t.id.text, refreshedAt := now }

theorem runs_refreshed (hregion : forall i, (T i).users.name = region) {n : Nat} (i : ι)
    (hfresh : c.visits n = none) (hleap : c.world.clock.isLeapSecond = false)
    (request : Web.Request) (response : Web.Response)
    (hvalues : request.cookieValues (T i).cookieName = [token]) {current : Option Sighting}
    (hcurrent : heardSighting (.ok (c.world.contents region token)) = .ok current)
    (hneeds : needsWrite current (request.user.getD "") c.world.clock (T i).window = true) :
    exists w, OrdinaryRuns T c (c.moved n ⟨i, .done (.tracked .refreshed), w⟩ w) ∧
      w.clock = c.world.clock ∧ w.contents = c.world.contents.assign region token
        (some (written (T i) token (request.user.getD "") c.world.clock).encode) := by
  let user := request.user.getD ""
  let f := conclude token
  let opening : Visit ι := ⟨i, (Job.track request response).proc (T i), c.world⟩
  have hopening : opening.task = ((T i).ping token user).bind f := proc_track hvalues
  rw [ping_bind, hregion] at hopening
  have hstart : Step T c (c.moved n opening c.world) := .start (.track request response) hfresh
  have hnow := step_ask (T := T) (c := c) (n := n) (w := c.world) hopening
    (show c.world.Tells .now c.world.clock from rfl)
  have hget := step_call (T := T) (c := c) (n := n) (w := c.world)
    (v := ⟨i, .ask (.call (.get region token)) fun answer =>
      weigh (T i) token user f c.world.clock (heardSighting answer), c.world⟩) rfl .get
  rw [hcurrent] at hget
  dsimp only [weigh] at hget
  rw [if_pos hneeds] at hget
  have hput := step_call (T := T) (c := c) (n := n) (w := c.world)
    (v := ⟨i, write (T i) token user f c.world.clock, c.world⟩) rfl .put
  rw [hregion, hcurrent] at hput
  exact ⟨_, .tail (.tail (.tail (.tail .refl ⟨hstart, hleap⟩) ⟨hnow, hleap⟩) ⟨hget, hleap⟩)
    ⟨hput, hleap⟩, rfl, rfl⟩

end

/-!
# One tracker
-/

theorem sighting?_assign {w : World} {contents : Contents} {region : String} {s : Sighting}
    (hs : s.Legible) (h : w.contents = contents.assign region s.token (some s.encode)) :
    w.sighting? region s.token = some s := by
  unfold World.sighting?
  rw [h, Contents.assign_self, Option.bind_some, hs.reads.exact]
  rfl

def lone : Tracker where
  id := ⟨"a"⟩
  users := ⟨Config.userRegion {}⟩
  cookieName := Config.cookieName {}
  window := 1800000000000
  startedAt := 0

def stale : Sighting := ⟨"t", "alice", "a", .epoch⟩

def outset : World where
  contents := Contents.assign (fun _ _ => none) lone.users.name stale.token (some stale.encode)
  clock := { Instant.epoch with day := 1, firstDay_le := by decide, le_lastDay := by decide }
  puts := fun _ => 0

theorem outset_stale : outset.sighting? lone.users.name stale.token = some stale :=
  sighting?_assign ⟨⟨Stored.fits_of_size (by decide), Stored.fits_of_size (by decide),
    Stored.fits_of_size (by decide)⟩, by decide⟩ rfl

theorem written_sighting {w : World} {contents : Contents}
    (h : w.contents = contents.assign lone.users.name stale.token
      (some (written lone stale.token "" outset.clock).encode)) :
    w.sighting? lone.users.name stale.token = some (written lone stale.token "" outset.clock) :=
  sighting?_assign (s := written lone stale.token "" outset.clock)
    ⟨⟨Stored.fits_of_size (by decide), Stored.fits_of_size (by decide),
      Stored.fits_of_size (by decide)⟩, by decide⟩ h

/-!
# Evictions of expired sightings
-/

section

variable {ι : Type} {T : ι → Tracker} {region token : String} {c : Traffic ι}

/-- A lookup that read a token after it was last put removes an expired sighting or none.  While
nobody puts the token, and unless a lookup is under way that read it before, its sighting stays
stored until it is expired. -/
theorem evicts_expired (hregion : forall i, (T i).users.name = region) {w : World}
    (hleap : w.clock.isLeapSecond = false) (hrun : OrdinaryRuns T (.initial w) c) :
    (forall n v next s, c.visits n = some v -> v.task = .ask (.call (.remove region token)) next ->
      v.last.puts token = c.world.puts token -> c.world.sighting? region token = some s ->
        s.refreshedAt.isLeapSecond = false ->
          s.isExpired c.world.clock (T v.owner).window = true) ∧
    forall c' s, Timely region token c -> OrdinaryRuns T c c' ->
      c'.world.puts token = c.world.puts token -> c.world.sighting? region token = some s ->
        s.refreshedAt.isLeapSecond = false ->
          c'.world.sighting? region token = some s ∨
            exists i, s.isExpired c'.world.clock (T i).window = true := by
  have h : Traced T region token c := (Traced.initial hleap).runs hregion hrun
  constructor
  · intro n v next s hv htask hputs hs hleap
    exact h.expired hv htask hputs hs hleap
  · intro c' s htimely hrun hputs hs hleap
    exact ((h.stays_run hregion htimely hs hleap hrun).2 hputs).2

end

/-- A lookup is about to remove the sighting of long ago; one that a request has just written stays
until it is expired. -/
theorem lone_evicts_expired :
    (exists (c : Traffic Unit) (v : Visit Unit) (next : _),
      OrdinaryRuns (fun _ => lone) (.initial outset) c ∧ c.visits 0 = some v ∧
        v.task = .ask (.call (.remove lone.users.name stale.token)) next ∧
        c.world.sighting? lone.users.name stale.token = some stale ∧
        stale.isExpired c.world.clock lone.window = true) ∧
    exists (c : Traffic Unit) (v : Visit Unit) (s : Sighting),
      OrdinaryRuns (fun _ => lone) (.initial outset) c ∧ c.visits 0 = some v ∧
        v.task = .done (.tracked .refreshed) ∧
        c.world.sighting? lone.users.name stale.token = some s ∧
        s.isExpired c.world.clock lone.window = false ∧
        forall c', OrdinaryRuns (fun _ => lone) c c' ->
          c'.world.puts stale.token = c.world.puts stale.token ->
            c'.world.sighting? lone.users.name stale.token = some s ∨
              s.isExpired c'.world.clock lone.window = true := by
  let T : Unit → Tracker := fun _ => lone
  have hregion (i : Unit) : (T i).users.name = lone.users.name := rfl
  constructor
  · have hlookup : OrdinaryRuns T (.initial outset) _ :=
      runs_evict (n := 0) hregion () rfl rfl outset_stale (by decide)
    have hexpired := (evicts_expired hregion rfl hlookup).1 0 _ _ stale rfl rfl rfl outset_stale rfl
    exact ⟨_, _, _, hlookup, rfl, rfl, outset_stale, hexpired⟩
  · let request : Web.Request := { cookies := [(lone.cookieName, stale.token)] }
    rcases runs_refreshed (T := T) (c := .initial outset) hregion (n := 0) () rfl rfl request
      {} (by decide) (heardSighting_eq_some.mpr outset_stale) (by decide) with
      ⟨w, htrack, hclock, hcontents⟩
    have hs := written_sighting hcontents
    have htimely : Timely lone.users.name stale.token
        ((Traffic.initial outset).moved 0 ⟨(), .done (.tracked .refreshed), w⟩ w) := by
      intro n v hv hnears
      rcases Traffic.visit_moved hv with ⟨_, rfl⟩ | ⟨_, hv⟩
      · exact hnears.elim
      · cases hv
    refine ⟨_, _, _, htrack, rfl, rfl, hs, ?_, fun c' hrun hputs => ?_⟩
    · change Sighting.isExpired _ w.clock _ = false
      rw [hclock]
      decide
    · exact ((evicts_expired hregion rfl htrack).2 c' _ htimely hrun hputs hs rfl).imp_right
        fun h => h.choose_spec

theorem lone_evicts_fresh : exists (c : Traffic Unit) (v u : Visit Unit) (next : _) (s : Sighting),
    OrdinaryRuns (fun _ => lone) (.initial outset) c ∧ c.visits 0 = some v ∧
      v.task = .ask (.call (.remove lone.users.name stale.token)) next ∧ c.visits 1 = some u ∧
      u.task = .done (.tracked .refreshed) ∧
      c.world.sighting? lone.users.name stale.token = some s ∧
      s.refreshedAt.isLeapSecond = false ∧
      s.isExpired c.world.clock lone.window = false := by
  let T : Unit → Tracker := fun _ => lone
  have hregion (i : Unit) : (T i).users.name = lone.users.name := rfl
  let v : Visit Unit := ⟨(), evict lone stale.token, outset⟩
  let c₁ : Traffic Unit := (Traffic.initial outset).moved 0 v outset
  have hlookup : OrdinaryRuns T (.initial outset) c₁ :=
    runs_evict (T := T) hregion () rfl rfl outset_stale (by decide)
  let request : Web.Request := { cookies := [(lone.cookieName, stale.token)] }
  rcases runs_refreshed (T := T) (c := c₁) hregion (n := 1) () rfl rfl request {} (by decide)
    (heardSighting_eq_some.mpr outset_stale) (by decide) with ⟨w, htrack, hclock, hcontents⟩
  have hs := written_sighting hcontents
  refine ⟨_, v, _, _, _, hlookup.trans htrack, rfl, rfl, rfl, rfl, hs, by decide, ?_⟩
  change Sighting.isExpired _ w.clock _ = false
  rw [hclock]
  decide

/-- Not everything that lookups remove is expired. -/
theorem not_evicts_expired : ¬ forall (T : Unit → Tracker) (region token : String),
    (forall i, (T i).users.name = region) -> forall w : World, w.clock.isLeapSecond = false ->
      forall c, OrdinaryRuns T (.initial w) c -> forall n v next s, c.visits n = some v ->
        v.task = .ask (.call (.remove region token)) next ->
          c.world.sighting? region token = some s -> s.refreshedAt.isLeapSecond = false ->
            s.isExpired c.world.clock (T v.owner).window = true := by
  intro hexpired
  rcases lone_evicts_fresh with
    ⟨c, v, u, next, s, hrun, hv, htask, _, _, hs, hleap, hfresh⟩
  have h := hexpired (fun _ => lone) _ _ (fun _ => rfl) outset rfl c hrun 0 v next s hv htask hs
    hleap
  cases hfresh.symm.trans h

end Tracking
end Roster
