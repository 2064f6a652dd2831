import Mathlib.Data.Fintype.Card
import Roster.Proofs.Interleaving.Alone
import Roster.Proofs.Interleaving.Holding
import Roster.Proofs.Numbering
import Roster.Proofs.Registry.Listing

/-!
# Numbers stay below the size of a fleet

Members share a region that nobody else writes, and in which entries may lapse at any time.  A member
that searches a number sees at most one entry of each other member, so it finds a number below the
count of all members.  Whatever is claimed, written again, restored or left behind by a failing
withdrawal has been found by such a search.

Ids can be issued for all these numbers where the fleet is not larger than their range.
-/

namespace Roster

/-!
# The range of numbers
-/

def Error.Overflows (e : Error) : Prop :=
  exists number, e = .numberOverflow number

def MemberEvent.Overflows : MemberEvent → Prop
  | registrationFailed e | renumberingFailed e _ | renumberingInterrupted e => e.Overflows
  | _ => False

def Event.Overflows : Event → Prop
  | member _ event => event.Overflows
  | _ => False

namespace Bounds

open Interleaving

variable {ι : Type}

structure Below (F : Fleet ι) (N : Nat) (i : ι) (r : Registration) : Prop where
  serverId_eq : r.serverId = (F.member i).id.text
  number_lt : r.number.toNat < N

theorem Below.fits {F : Fleet ι} {N : Nat} {i : ι} {r : Registration} (h : Below F N i r) :
    r.Fits := by
  unfold Registration.Fits
  rw [h.serverId_eq]
  exact F.fits i

theorem Below.written {F : Fleet ι} {N : Nat} {i : ι} {r : Registration} (h : Below F N i r) :
    Below F N i r.written :=
  ⟨h.serverId_eq, h.number_lt⟩

/-!
# What is kept
-/

/-- The region holds claims of members, with numbers below a bound, and nothing else. -/
def Kept (F : Fleet ι) (N : Nat) (c : Contents) : Prop :=
  exists rs, c.Lists F.region rs ∧ forall r, r ∈ rs -> exists i, Below F N i r

section

variable {F : Fleet ι} {N : Nat} {c c' : Contents} {i : ι}

theorem Kept.lapse (h : Kept F N c) (hlapses : c.Lapses F.region c') : Kept F N c' := by
  rcases h with ⟨rs, hlists, hbelow⟩
  exact ⟨_, hlists.lapse hlapses, fun r hr => hbelow r (List.mem_of_mem_filter hr)⟩

theorem Kept.put (h : Kept F N c) {r : Registration} (hr : Below F N i r)
    {answer : Except RegistryError (Option Bytes)}
    (hanswer : c.Answers (.put F.region (F.member i).id.text (Storable.encode r)) answer c') :
    Kept F N c' := by
  rcases h with ⟨rs, hlists, hbelow⟩
  cases answer with
  | error e =>
      rw [hanswer.eq_of_error]
      exact ⟨rs, hlists, hbelow⟩
  | ok previous =>
      rw [hanswer.put_ok.2, ← hr.serverId_eq]
      refine ⟨_, hlists.put_written hr.fits, ?_⟩
      intro e he
      rcases List.mem_cons.mp he with rfl | he
      · exact ⟨i, hr.written⟩
      · exact hbelow e (List.mem_of_mem_filter he)

theorem Kept.remove (h : Kept F N c) {key : String}
    {answer : Except RegistryError (Option Bytes)}
    (hanswer : c.Answers (.remove F.region key) answer c') : Kept F N c' := by
  rcases h with ⟨rs, hlists, hbelow⟩
  cases answer with
  | error e =>
      rw [hanswer.eq_of_error]
      exact ⟨rs, hlists, hbelow⟩
  | ok previous =>
      rw [hanswer.remove_ok.2]
      exact ⟨_, hlists.remove key, fun e he => hbelow e (List.mem_of_mem_filter he)⟩

theorem heldByOthers_length_lt [Fintype ι] (F : Fleet ι) (i : ι) {rs : List Registration}
    (hnodup : (rs.map (·.serverId)).Nodup)
    (hids : forall r, r ∈ rs -> exists j, r.serverId = (F.member j).id.text) :
    (Numbering.heldByOthers (F.member i).id.text rs).length < Fintype.card ι := by
  classical
  let others := rs.filter fun r => r.serverId ≠ (F.member i).id.text
  have hothers : (others.map (·.serverId)).Nodup := hnodup.sublist (List.filter_sublist.map _)
  have hsubset : (others.map (·.serverId)).toFinset ⊆
      (Finset.univ.erase i).image fun j => (F.member j).id.text := by
    intro key hkey
    rcases List.mem_map.mp (List.mem_toFinset.mp hkey) with ⟨r, hr, rfl⟩
    rcases List.mem_filter.mp hr with ⟨hr, hother⟩
    rcases hids r hr with ⟨j, hj⟩
    refine Finset.mem_image.mpr ⟨j, Finset.mem_erase.mpr ⟨?_, Finset.mem_univ j⟩, hj.symm⟩
    intro heq
    rw [hj, heq] at hother
    simp at hother
  calc (Numbering.heldByOthers (F.member i).id.text rs).length
    _ = (others.map (·.serverId)).length := by
      unfold Numbering.heldByOthers
      rw [List.length_map, List.length_map]
    _ = (others.map (·.serverId)).toFinset.card := (List.toFinset_card_of_nodup hothers).symm
    _ ≤ ((Finset.univ.erase i).image fun j => (F.member j).id.text).card :=
      Finset.card_le_card hsubset
    _ ≤ (Finset.univ.erase i).card := Finset.card_image_le
    _ < Fintype.card ι := Finset.card_erase_lt_of_mem (Finset.mem_univ i)

theorem Kept.lowestFree_lt [Fintype ι] (h : Kept F N c)
    {answer : Except RegistryError (List Bytes)}
    (hanswer : c.Answers (.list F.region) answer c') {live : List Registration}
    (hlive : heardListing answer = .ok live) :
    (Numbering.lowestFree (F.member i).id.text live).toNat < Fintype.card ι := by
  rcases h with ⟨rs, hlists, hbelow⟩
  cases answer with
  | error e => cases hlive
  | ok values =>
      rcases hlists.heard_perm hanswer with ⟨live', hlive', hperm⟩
      cases hlive'.symm.trans hlive
      refine Nat.lt_of_le_of_lt (Numbering.lowestFree_le _ _) (heldByOthers_length_lt F i ?_ ?_)
      · exact (hperm.map (·.serverId)).nodup_iff.mpr hlists.nodup
      · intro r hr
        rcases hbelow r (hperm.mem_iff.mp hr) with ⟨j, hj⟩
        exact ⟨j, hj.serverId_eq⟩

end

/-!
# The setting
-/

structure World where
  contents : Contents
  log : List Event

def answers (w : World) : (e : Effect) → e.Answer → World → Prop
  | .call c, answer, w' => w.contents.Answers c answer w'.contents ∧ w'.log = w.log
  | .now, _, w' | .readingPast _, _, w' => w' = w
  | _, _, _ => False

def setting (F : Fleet ι) : Setting ι World where
  member := F.member
  answers := fun _ => answers
  notes := fun w event => { w with log := event :: w.log }
  drifts := fun w w' => w.contents.Lapses F.region w'.contents ∧ w'.log = w.log
  permits := fun _ _ => True

section

variable {F : Fleet ι} {N : Nat} {i : ι} {σ σ' : Standing} {w w' : World} {aim : Aim}
  {stage : Stage} {s : Spot}

theorem Kept.call (h : Kept F N w.contents) (hs : s.Holds (Below F N i))
    {answer : (s.effect (F.member i)).Answer}
    (hanswer : answers w (s.effect (F.member i)) answer w') : Kept F N w'.contents := by
  have hname : (F.member i).servers.name = F.region := F.region_eq i
  cases s with
  | listing aim round | verifying aim round claim | checking claim =>
      rw [hanswer.1.eq_of_list]
      exact h
  | staking aim round claim =>
      have hput := hanswer.1
      rw [hname] at hput
      exact h.put hs.2 hput
  | refreshing claim | restoring claim =>
      have hput := hanswer.1
      rw [hname] at hput
      exact h.put hs hput
  | withdrawing exit | removing =>
      have hremove := hanswer.1
      rw [hname] at hremove
      exact h.remove hremove
  | spreading aim round claim | backingOff aim round last time => exact hanswer.elim

theorem Kept.resume {reply : s.Reply} (hresume : Resumes (setting F) i σ w s reply stage σ' w')
    (h : Kept F N w.contents) : Kept F N w'.contents := by
  apply hresume.keeps (P := fun w => Kept F N w.contents) ?_ ?_ h
  · intro w event hw
    exact hw
  · intro w t w' hread hw
    rw [show w' = w from hread]
    exact hw

theorem Kept.begin {op : Operation} (hbegin : Begins (setting F) i σ w op stage σ' w')
    (h : Kept F N w.contents) : Kept F N w'.contents := by
  apply hbegin.keeps (P := fun w => Kept F N w.contents) ?_ ?_ h
  · intro w event hw
    exact hw
  · intro w previous reading w' hread hw
    rw [show w' = w from hread]
    exact hw

end

/-!
# Numbers below the count of members
-/

/-- All numbers that are stored, and all that members hold, are below a bound. -/
structure Bounded (F : Fleet ι) (N : Nat) (c : Cluster ι World Stage) : Prop where
  proper : Interleaving.Proper (setting F) c
  holding : Holding (setting F) (Below F N) c
  kept : Kept F N c.world.contents

section

variable {F : Fleet ι} {w : World} {c c' : Cluster ι World Stage}

theorem Bounded.initial (N : Nat) (hempty : forall key, w.contents F.region key = none) :
    Bounded F N (.initial w) where
  proper := .initial w
  holding := .initial w
  kept := ⟨[], Contents.lists_nil hempty, fun _ h => nomatch h⟩

variable [Fintype ι] [DecidableEq ι]

theorem Bounded.move (h : Bounded F (Fintype.card ι) c) (hmove : Moves (setting F) c c') :
    Bounded F (Fintype.card ι) c' where
  proper := h.proper.move hmove
  holding := by
    apply h.holding.move hmove
    intro n t aim round answer w live ht htask hanswer hlive time
    have hlist := hanswer.1
    rw [show ((setting F).member t.owner).servers.name = F.region from F.region_eq t.owner] at hlist
    exact ⟨rfl, h.kept.lowestFree_lt hlist hlive⟩
  kept := by
    cases hmove with
    | start hfresh hpermits hbegin => exact h.kept.begin hbegin
    | @call n t s w ht htask hcall answer hpermits hanswer =>
        have hs := h.holding.thread n t ht
        rw [htask] at hs
        exact h.kept.call hs hanswer
    | wake ht htask hpermits hpause reply => exact h.kept
    | turn ht htask hpermits hresume => exact h.kept.resume hresume
    | drift hpermits hdrift => exact h.kept.lapse hdrift.1

end

/-!
# Numbers that fit ids
-/

def World.Calm (w : World) : Prop :=
  forall event, event ∈ w.log -> ¬ event.Overflows

/-- The thread does not fail because of a number that is too high. -/
def Calm : Stage → Prop
  | .waiting (.withdrawing (.abandoning e)) | .due (.withdrawing (.abandoning e)) _
  | .finished (.registered (.error e)) => ¬ e.Overflows
  | _ => True

section

variable {F : Fleet ι} {i : ι} {σ σ' : Standing} {w w' : World} {aim : Aim} {stage : Stage}
  {s : Spot} {e : Error}

theorem World.Calm.reported (hw : w.Calm) {event : MemberEvent} (h : ¬ event.Overflows) :
    ((setting F).reported i w event).Calm := by
  intro event' hevent
  rcases List.mem_cons.mp hevent with rfl | hevent
  · exact h
  · exact hw event' hevent

theorem World.Calm.withdrawn (hw : w.Calm) (reply : Except RegistryError (Option Registration)) :
    ((setting F).withdrawn i w reply).Calm := by
  cases reply with
  | error e => exact hw.reported fun h => h
  | ok previous => exact hw

theorem not_overflows_invalidState (expected found : Phase) :
    ¬ (Error.invalidState expected found).Overflows := by
  intro h
  rcases h with ⟨number, hnumber⟩
  cases hnumber

theorem not_overflows_exhausted (m : Member) (last : Option RegistryError) :
    ¬ (m.exhausted last).Overflows := by
  intro h
  rcases h with ⟨number, hnumber⟩
  cases last with
  | none | some e => cases hnumber

theorem calm_of_quits (h : Quits (setting F) i σ w aim e stage w') (he : ¬ e.Overflows)
    (hw : w.Calm) : Calm stage ∧ w'.Calm := by
  cases h with
  | abandon => exact ⟨he, hw.reported he⟩
  | restore hready => exact ⟨trivial, hw.reported he⟩
  | interrupt hready => exact ⟨trivial, hw.reported he⟩

theorem calm_of_tries {attempt remaining : Nat} {last : Option RegistryError}
    (h : Tries (setting F) i σ w aim attempt last remaining stage w') (hw : w.Calm) :
    Calm stage ∧ w'.Calm := by
  cases h with
  | list hsettle => exact ⟨trivial, hw⟩
  | barred hsettle hquit => exact calm_of_quits hquit (not_overflows_invalidState _ _) hw
  | exhausted hquit => exact calm_of_quits hquit (not_overflows_exhausted _ _) hw

theorem calm_of_retries {round : Round} {last : Option RegistryError}
    (h : Retries (setting F) i σ w aim round last stage w') (hw : w.Calm) :
    Calm stage ∧ w'.Calm := by
  cases h with
  | backOff hremaining words => exact ⟨trivial, hw⟩
  | exhausted hremaining hquit => exact calm_of_quits hquit (not_overflows_exhausted _ _) hw

theorem calm_of_wins {settled : Settled} (h : Wins (setting F) i σ w settled aim stage σ' w')
    (hw : w.Calm) : Calm stage ∧ w'.Calm := by
  cases h with
  | register _ | renumber _ => exact ⟨trivial, hw.reported fun h => h⟩
  | late _ | interrupt _ => exact ⟨trivial, hw⟩

theorem calm_of_resumes {reply : s.Reply}
    (h : Resumes (setting F) i σ w s reply stage σ' w')
    (hs : s.Holds fun claim => claim.number.toNat < UniqueId.serverRange)
    (hcalm : Calm (.due s reply)) (hw : w.Calm) : Calm stage ∧ w'.Calm := by
  cases h with
  | listed hread =>
      rw [show w' = w from hread]
      exact ⟨trivial, hw⟩
  | staked | spread _ | uncontested _ | restored _ | restoredLate _ | removingFailed =>
      exact ⟨trivial, hw⟩
  | listingFailed hretry | stakingFailed hretry | verifyingFailed hretry | lost _ hretry =>
      exact calm_of_retries hretry (hw.reported fun h => h)
  | spreadBarred _ hquit => exact calm_of_quits hquit (not_overflows_invalidState _ _) hw
  | overflow _ hsettled _ => cases (Settled.ofClaim?_of_lt hs.2).symm.trans hsettled
  | upheld _ _ hwin => exact calm_of_wins hwin hw
  | backedOff htry => exact calm_of_tries htry hw
  | contested _ htry => exact calm_of_tries htry (hw.reported fun h => h)
  | relinquished _ => exact ⟨hcalm, hw.withdrawn _⟩
  | @left exit _ _ =>
      refine ⟨?_, hw.withdrawn _⟩
      cases exit with
      | abandoning e => exact hcalm
      | late found => exact not_overflows_invalidState _ _
      | quiet => exact trivial
  | @refreshed _ previous _ | @refreshedLate _ previous _ =>
      refine ⟨trivial, hw.reported ?_⟩
      cases previous with
      | none | some _ => exact fun h => h
  | refreshingFailed | checkingFailed | restoringFailed | removed =>
      exact ⟨trivial, hw.reported fun h => h⟩

theorem calm_of_begins {op : Operation} (h : Begins (setting F) i σ w op stage σ' w')
    (hw : w.Calm) : Calm stage ∧ w'.Calm := by
  cases h with
  | activate _ htry => exact calm_of_tries htry (hw.reported fun h => h)
  | activateRefused _ => exact ⟨not_overflows_invalidState _ _, hw⟩
  | uniqueId _ hread =>
      rw [show w' = w from hread]
      exact ⟨trivial, hw⟩
  | heartbeat _ _ | heartbeatIdle _ | deactivate _ | deactivateAgain _ | uniqueIdRefused _ =>
      exact ⟨trivial, hw⟩

theorem calm_due (h : Calm (.waiting s)) (reply : s.Reply) : Calm (.due s reply) := by
  cases s with
  | withdrawing exit =>
      cases exit with
      | abandoning e => exact h
      | late found | quiet => exact trivial
  | _ => exact trivial

end

structure Fitting (c : Cluster ι World Stage) : Prop where
  world : c.world.Calm
  thread : forall n t, c.threads n = some t -> Calm t.task

section

variable {F : Fleet ι} {N : Nat} {w : World} {c c' : Cluster ι World Stage}

theorem Fitting.initial (h : w.log = []) : Fitting (.initial w : Cluster ι World Stage) where
  world := by
    intro event hevent
    change event ∈ w.log at hevent
    rw [h] at hevent
    cases hevent
  thread := fun _ _ h => (nomatch h)

variable [DecidableEq ι]

theorem Fitting.moved (h : Fitting c) {n : Nat} {t : Thread ι World Stage} {σ : Standing}
    (hmoved : Calm t.task ∧ w.Calm) : Fitting (c.moved n t σ w) where
  world := hmoved.2
  thread := by
    intro k u hu
    rcases Cluster.thread_moved hu with ⟨_, rfl⟩ | ⟨_, hu⟩
    · exact hmoved.1
    · exact h.thread k u hu

theorem Fitting.move (h : Fitting c) (hbounded : Bounded F N c)
    (hrange : N ≤ UniqueId.serverRange) (hmove : Moves (setting F) c c') : Fitting c' := by
  have hlog {w w' : World} (hw : w.Calm) (heq : w'.log = w.log) : w'.Calm := by
    unfold World.Calm
    rw [heq]
    exact hw
  cases hmove with
  | start hfresh hpermits hbegin => exact h.moved (calm_of_begins hbegin h.world)
  | @call n t s w ht htask hcall answer hpermits hanswer =>
      have hcalm := h.thread n t ht
      rw [htask] at hcalm
      refine h.moved ⟨calm_due hcalm _, ?_⟩
      cases s with
      | spreading aim round claim | backingOff aim round last time => cases hcall
      | _ => exact hlog h.world hanswer.2
  | @wake n t s ht htask hpermits hpause reply =>
      have hcalm := h.thread n t ht
      rw [htask] at hcalm
      exact h.moved ⟨calm_due hcalm _, h.world⟩
  | @turn n t s reply stage σ w ht htask hpermits hresume =>
      have hcalm := h.thread n t ht
      have hholds := hbounded.holding.thread n t ht
      rw [htask] at hcalm hholds
      have hfits : s.Holds fun claim => claim.number.toNat < UniqueId.serverRange :=
        (Stage.holds_spot hholds).mono fun claim hclaim => hclaim.number_lt.trans_le hrange
      exact h.moved (calm_of_resumes hresume hfits hcalm h.world)
  | drift hpermits hdrift => exact ⟨hlog h.world hdrift.2, h.thread⟩

end

/-!
# What is stored, claimed and held
-/

section

variable {F : Fleet ι} {N : Nat} {c : Cluster ι World Stage}

theorem Below.decode_lt {i : ι} {r : Registration} (h : Below F N i r) :
    exists r', Registration.decode (Storable.encode r) = .ok r' ∧ r'.number.toNat < N :=
  ⟨r.written, Contents.decode_encode h.fits, h.number_lt⟩

theorem Bounded.stored_lt (h : Bounded F N c) {key : String} {bytes : Bytes}
    (hbytes : c.world.contents F.region key = some bytes) :
    exists r, Registration.decode bytes = .ok r ∧ r.number.toNat < N := by
  rcases h.kept with ⟨rs, hlists, hrs⟩
  rcases (hlists.lookup key bytes).mp hbytes with ⟨r, hr, _, rfl⟩
  rcases hrs r hr with ⟨i, hr⟩
  exact hr.decode_lt

theorem Bounded.claimed_lt (h : Bounded F N c) {n : Nat} {u : Thread ι World Task} {key : String}
    {bytes : Bytes} {next : (Effect.call (.put F.region key bytes)).Answer → Proc Outcome}
    (hu : (c.enacted (setting F)).threads n = some u)
    (htask : u.task = .waiting (.ask (.call (.put F.region key bytes)) next)) :
    exists r, Registration.decode bytes = .ok r ∧ r.number.toNat < N := by
  rcases thread_of_enacted hu with ⟨t, ht, rfl⟩
  rcases stage_of_call htask with ⟨s, hs, _, hproc⟩
  have hholds := h.holding.thread n t ht
  rw [hs] at hholds
  rcases hholds.of_put hproc with ⟨claim, hclaim, rfl⟩
  exact hclaim.decode_lt

theorem Bounded.settled_lt (h : Bounded F N c) {i : ι} {settled : Settled}
    (hsettled : (c.standing i).settled = some settled) :
    settled.claim.number.toNat < N ∧ settled.issuer.server.toNat < N := by
  have hclaim := (h.holding.standing i settled hsettled).number_lt
  refine ⟨hclaim, ?_⟩
  rw [((h.proper.standing i).of_settled settled hsettled).2.server_eq]
  exact hclaim

theorem Bounded.ready_lt (h : Bounded F N c) {i : ι} {number : UInt32}
    (hstatus : (c.standing i).status = .ready number) : number.toNat < N := by
  have hstanding := h.proper.standing i
  have hready := hstanding.settled_of_ready (Status.isReady_of_ready hstatus)
  rcases Option.ne_none_iff_exists'.mp hready with ⟨settled, hsettled⟩
  cases hstatus.symm.trans (hstanding.of_settled settled hsettled).1
  exact (h.settled_lt hsettled).1

theorem Fitting.not_overflows (h : Fitting c) {n : Nat} {u : Thread ι World Task} {e : Error}
    (hu : (c.enacted (setting F)).threads n = some u)
    (htask : u.task = .finished (.registered (.error e))) : ¬ e.Overflows := by
  rcases thread_of_enacted hu with ⟨t, ht, rfl⟩
  have hcalm := h.thread n t ht
  change t.task.task (F.member t.owner) = _ at htask
  cases hstage : t.task with
  | waiting s | due s reply =>
      rw [hstage] at htask
      cases htask
  | finished outcome =>
      rw [hstage] at htask hcalm
      cases htask
      exact hcalm

end

/-- Every number that is stored, claimed or held is below the count of the members, also while
entries lapse, calls fail and clocks show anything.  So nothing fails because of a number that is
too high for ids, unless there are more members than such numbers. -/
theorem numbers_lt_card [Fintype ι] [DecidableEq ι] (F : Fleet ι) {contents : Contents}
    (hempty : forall key, contents F.region key = none) {c : Cluster ι World Task}
    (hrun : Runs (setting F) (.initial ⟨contents, []⟩) c) :
    (forall key bytes, c.world.contents F.region key = some bytes ->
      exists r, Registration.decode bytes = .ok r ∧ r.number.toNat < Fintype.card ι) ∧
    (forall n t key bytes next, c.threads n = some t ->
      t.task = .waiting (.ask (.call (.put F.region key bytes)) next) ->
        exists r, Registration.decode bytes = .ok r ∧ r.number.toNat < Fintype.card ι) ∧
    (forall i,
      (forall number, (c.standing i).status = .ready number -> number.toNat < Fintype.card ι) ∧
      forall settled, (c.standing i).settled = some settled ->
        settled.claim.number.toNat < Fintype.card ι ∧
          settled.issuer.server.toNat < Fintype.card ι) ∧
    (Fintype.card ι ≤ UniqueId.serverRange ->
      (forall n t e, c.threads n = some t -> t.task = .finished (.registered (.error e)) ->
        ¬ e.Overflows) ∧
      forall event, event ∈ c.world.log -> ¬ event.Overflows) := by
  let begun : Cluster ι World Stage := .initial ⟨contents, []⟩
  have hinitial : Bounded F (Fintype.card ι) begun ∧
      (Fintype.card ι ≤ UniqueId.serverRange -> Fitting begun) :=
    ⟨.initial _ hempty, fun _ => .initial rfl⟩
  have hkeep (c c' : Cluster ι World Stage) (hmove : Moves (setting F) c c')
      (h : Bounded F (Fintype.card ι) c ∧
        (Fintype.card ι ≤ UniqueId.serverRange -> Fitting c)) :
      Bounded F (Fintype.card ι) c' ∧
        (Fintype.card ι ≤ UniqueId.serverRange -> Fitting c') :=
    ⟨h.1.move hmove, fun hrange => (h.2 hrange).move h.1 hrange hmove⟩
  rcases holds_of_runs (c := begun) hkeep hinitial hrun with ⟨c', rfl, hbounded, hfitting⟩
  refine ⟨?_, ?_, ?_, ?_⟩
  · intro key bytes hbytes
    exact hbounded.stored_lt hbytes
  · intro n u key bytes next hu htask
    exact hbounded.claimed_lt hu htask
  · intro i
    exact ⟨fun number hstatus => hbounded.ready_lt hstatus,
      fun settled hsettled => hbounded.settled_lt hsettled⟩
  · intro hrange
    exact ⟨fun n u e hu htask => (hfitting hrange).not_overflows hu htask,
      (hfitting hrange).world⟩

/-- The first of two members registers alone. -/
theorem numbers_lt_card_pair :
    exists (c : Cluster Bool World Task) (settled : Settled),
      Runs (setting .pair) (.initial ⟨fun _ _ => none, []⟩) c ∧
      (c.standing false).settled = some settled ∧
      settled.claim.number.toNat < Fintype.card Bool ∧
      Fintype.card Bool ≤ UniqueId.serverRange ∧
      forall event, event ∈ c.world.log -> ¬ event.Overflows := by
  let begun : Cluster Bool World Stage := .initial ⟨fun _ _ => none, []⟩
  let claim : Registration := ⟨"a", 0, .epoch⟩
  let settled : Settled := ⟨claim, ⟨0, 0⟩⟩
  let σ : Standing := ⟨.registering, none⟩
  let log : List Event := [.member ⟨"a"⟩ .registering]
  let stored : Contents :=
    Contents.assign (fun _ _ => none) Fleet.pair.region "a" (some (Storable.encode claim))
  have hempty : Contents.Lists (fun _ _ => none) Fleet.pair.region [] :=
    Contents.lists_nil fun _ => rfl
  have hstored : stored.Lists Fleet.pair.region [claim] :=
    hempty.put (r := claim) ⟨Fleet.pair.fits false, by decide⟩
  have hsettled : Settled.ofClaim? claim = some settled := by decide
  have hstart : Moves (setting .pair) begun _ :=
    moves_activate (n := 0) (i := false) rfl trivial rfl rfl
  have hlist : (setting .pair).Calls begun 0 false σ (.listing .register ⟨1, 9⟩)
      ⟨fun _ _ => none, log⟩ ⟨fun _ _ => none, log⟩ (.ok []) ⟨fun _ _ => none, log⟩ :=
    ⟨trivial, hempty.answers, rfl⟩
  have hput : (setting .pair).Calls begun 0 false σ (.staking .register ⟨1, 9⟩ claim)
      ⟨fun _ _ => none, log⟩ ⟨fun _ _ => none, log⟩ (.ok none) ⟨stored, log⟩ :=
    ⟨trivial, .put, rfl⟩
  have hverify : (setting .pair).Calls begun 0 false σ (.verifying .register ⟨1, 9⟩ claim)
      ⟨stored, log⟩ ⟨stored, log⟩ (.ok [Storable.encode claim]) ⟨stored, log⟩ :=
    ⟨trivial, hstored.answers, rfl⟩
  have hnumber : claim.number = Numbering.lowestFree "a" [] := by
    rw [Numbering.lowestFree_eq List.Pairwise.nil]
    rfl
  have hverdict : Numbering.verdict claim [claim] ≠ .lost := by decide
  have hround := reaches_round claim rfl hnumber rfl (fun _ _ _ => trivial) hlist hempty.heard rfl
    hput rfl .refl trivial hverify hstored.heard hverdict hsettled (.register rfl)
  have hrun := runs_of_moves (Relation.ReflTransGen.head hstart hround)
  have hrange : Fintype.card Bool ≤ UniqueId.serverRange := by decide
  have hbounds := numbers_lt_card .pair (fun _ => rfl) hrun
  exact ⟨_, settled, hrun, rfl, ((hbounds.2.2.1 false).2 settled rfl).1, hrange,
    (hbounds.2.2.2 hrange).2⟩

end Bounds
end Roster
