import Mathlib.Data.List.Nodup
import Mathlib.Logic.Function.Basic
import Mathlib.Logic.Relation
import Roster.Proofs.Bytes.Endian
import Roster.Proofs.Bytes.Hex
import Roster.Proofs.Bytes.Utf8
import Roster.Proofs.Text.Digits
import Roster.Proofs.Tracking.Procedures

/-!
# Tokens are not handed out twice

A seed ends in the number of a ticket, and a token in the digest of its seed.  The parts before
them are of any length and may hold the very characters that separate the parts, so both are read
from the right: a seed tells its ticket, and a token its server and its digest.

The trackers of any number of servers serve any number of visits at once.  Their surroundings answer
as they like, registries, clocks and names of threads included; only tickets are counted.
-/

namespace Roster

/-!
# Seeds and tokens
-/

theorem Sha1.length_digest (message : Bytes) : (Sha1.digest message).length = 20 := by
  simp [Sha1.digest, Sha1.State.toBytes]

namespace Tracker

theorem exists_seed_eq (thread : Option String) (startedAt now : Int) : exists front, forall ticket,
    (seed thread startedAt now ticket).toList = front ++ ':' :: Text.decimal ticket.toNat := by
  let name := thread.getD "unnamed"
  refine ⟨s!"{name}:{startedAt}:{now}".toList, fun ticket => ?_⟩
  change (s!"{name}:{startedAt}:{now}" ++ ":" ++ toString ticket).toList = _
  rw [String.toList_append, String.toList_append, List.append_assoc]
  rfl

theorem ticket_of_seed {thread thread' : Option String} {startedAt startedAt' now now' : Int}
    {ticket ticket' : UInt64}
    (h : seed thread startedAt now ticket = seed thread' startedAt' now' ticket') :
    ticket = ticket' := by
  rcases exists_seed_eq thread startedAt now with ⟨front, hseed⟩
  rcases exists_seed_eq thread' startedAt' now' with ⟨front', hseed'⟩
  have hlists := congrArg String.toList h
  rw [hseed, hseed'] at hlists
  exact UInt64.toNat_inj.mp (Text.eq_of_append_decimal (by decide) hlists)

theorem toList_token (id : ServerId) (seed : String) : (token id seed).toList =
    id.text.toList ++ '-' :: (Bytes.toHex (Sha1.digest (Utf8.encode seed))).toList := by
  change (id.text ++ "-" ++ Bytes.toHex _).toList = _
  rw [String.toList_append, String.toList_append, List.append_assoc]
  rfl

theorem token_eq_iff {id id' : ServerId} {seed seed' : String} :
    token id seed = token id' seed' ↔
      id = id' ∧ Sha1.digest (Utf8.encode seed) = Sha1.digest (Utf8.encode seed') := by
  constructor
  · intro h
    have hlists := congrArg String.toList h
    rw [toList_token, toList_token] at hlists
    -- All digests have one length, so the dashes before them are at one place.
    have hlength (s : String) : (Bytes.toHex (Sha1.digest (Utf8.encode s))).toList.length = 40 := by
      rw [Bytes.length_toHex, Sha1.length_digest]
    rcases List.append_inj' hlists (by rw [List.length_cons, List.length_cons, hlength, hlength])
      with ⟨hid, hhex⟩
    have hdigest := Bytes.toHex_inj (String.toList_inj.mp (List.cons.inj hhex).2)
    cases id
    cases id'
    exact ⟨congrArg ServerId.mk (String.toList_inj.mp hid), hdigest⟩
  · intro h
    unfold token
    rw [h.1, h.2]

end Tracker

namespace Minting

open Tracking (Job)

/-!
# Visits and tickets
-/

structure Visit (ι : Type) where
  owner : ι
  task : Proc Tracking.Result
  log : List Asked

structure State (ι : Type) where
  visits : Nat → Option (Visit ι)
  takers : ι → List Nat

structure Draw where
  thread : Option String
  now : Instant
  ticket : UInt64

namespace Draw

def asked (d : Draw) : List Asked :=
  [⟨.threadName, d.thread⟩, ⟨.now, d.now⟩, ⟨.ticket, d.ticket⟩]

def seed (t : Tracker) (d : Draw) : String :=
  Tracker.seed d.thread t.startedAt d.now.millis d.ticket

end Draw

namespace State

variable {ι : Type}

def outset : State ι where
  visits := fun _ => none
  takers := fun _ => []

def Seeds (T : ι → Tracker) (s : State ι) (i : ι) (n : Nat) (seed : String) : Prop :=
  exists (v : Visit ι) (d : Draw), s.visits n = some v ∧ v.owner = i ∧ d.asked <+: v.log ∧
    seed = d.seed (T i)

def Mints (s : State ι) (i : ι) (n : Nat) (token : String) : Prop :=
  exists v, s.visits n = some v ∧ v.owner = i ∧ v.task = .done (.tracked (.minted token))

end State

/-!
# Runs
-/

/-- How an effect of the visit `n` may be answered after these visits have taken tickets, and which
visits have taken one then. -/
inductive Tells (n : Nat) (takers : List Nat) : (e : Effect) → e.Answer → List Nat → Prop where
  | ticket : Tells n takers .ticket (UInt64.ofNat takers.length) (takers ++ [n])
  | other {e} {answer : e.Answer} (he : e ≠ .ticket) : Tells n takers e answer takers

section

variable {ι : Type} [DecidableEq ι]

def State.moved (s : State ι) (n : Nat) (v : Visit ι) (takers : List Nat) : State ι where
  visits := Function.update s.visits n (some v)
  takers := Function.update s.takers v.owner takers

namespace State

variable {s : State ι} {n m : Nat} {v : Visit ι} {takers : List Nat}

@[simp] theorem visits_moved_self : (s.moved n v takers).visits n = some v :=
  Function.update_self ..

theorem visits_moved_of_ne (h : m ≠ n) : (s.moved n v takers).visits m = s.visits m :=
  Function.update_of_ne h ..

@[simp] theorem takers_moved_self : (s.moved n v takers).takers v.owner = takers :=
  Function.update_self ..

theorem takers_moved_same : (s.moved n v (s.takers v.owner)).takers = s.takers :=
  Function.update_eq_self ..

theorem takers_moved_of_ne {i : ι} (h : i ≠ v.owner) :
    (s.moved n v takers).takers i = s.takers i :=
  Function.update_of_ne h ..

theorem takers_prefix_moved (hgrows : s.takers v.owner <+: takers) (i : ι) :
    s.takers i <+: (s.moved n v takers).takers i := by
  by_cases hi : i = v.owner
  · rw [hi, takers_moved_self]
    exact hgrows
  · simp only [takers_moved_of_ne hi, List.prefix_rfl]

end State

inductive Step (T : ι → Tracker) (s : State ι) : State ι → Prop where
  | start {n i} (job : Job) (hfresh : s.visits n = none) :
      Step T s (s.moved n ⟨i, job.proc (T i), []⟩ (s.takers i))
  | ask {n v e next answer takers} (hv : s.visits n = some v) (htask : v.task = .ask e next)
      (htells : Tells n (s.takers v.owner) e answer takers) :
      Step T s (s.moved n ⟨v.owner, next answer, v.log ++ [⟨e, answer⟩]⟩ takers)

def Runs (T : ι → Tracker) : State ι → State ι → Prop :=
  Relation.ReflTransGen (Step T)

end

/-!
# What a mint asks
-/

section

variable {t : Tracker} {request : Web.Request} {response : Web.Response} {log : List Asked}
  {token : String}

theorem proc_track_minting (hvalues : request.cookieValues t.cookieName = [])
    (hcommitted : response.committed = false) : (Job.track request response).proc t =
      .ask .threadName fun thread => .ask .now fun now => .ask .ticket fun ticket =>
        .ask (.report (.token (Tracker.token t.id (Draw.seed t ⟨thread, now, ticket⟩)) .issued))
          fun _ => .done (.tracked (.minted (Tracker.token t.id
            (Draw.seed t ⟨thread, now, ticket⟩)))) := by
  dsimp only [Job.proc]
  unfold Tracker.track
  rw [hvalues, hcommitted]
  rfl

theorem proc_track_committed (hvalues : request.cookieValues t.cookieName = [])
    (hcommitted : response.committed = true) :
    (Job.track request response).proc t = .done (.tracked .untracked) := by
  dsimp only [Job.proc]
  unfold Tracker.track
  rw [hvalues, hcommitted]
  rfl

theorem exists_draw {job : Job} (h : (job.proc t).Leads log (.done (.tracked (.minted token)))) :
    exists d : Draw, d.asked <+: log ∧ token = Tracker.token t.id (d.seed t) := by
  cases job with
  | lookup key => exact absurd rfl ((Tracking.proc_lookup_unminted key).of_leads h token)
  | track request response =>
      by_cases hvalues : request.cookieValues t.cookieName = []
      · cases hcommitted : response.committed with
        | true =>
            rw [proc_track_committed hvalues hcommitted] at h
            cases h
        | false =>
            rw [proc_track_minting hvalues hcommitted] at h
            rcases h.of_ask with ⟨thread, _, rfl, hthread⟩
            rcases hthread.of_ask with ⟨now, _, rfl, hnow⟩
            rcases hnow.of_ask with ⟨ticket, _, rfl, hticket⟩
            rcases hticket.of_ask with ⟨_, _, rfl, hreport⟩
            cases hreport
            exact ⟨⟨thread, now, ticket⟩, List.prefix_append .., rfl⟩
      · exact absurd rfl ((Tracking.proc_track_unminted response hvalues).of_leads h token)

theorem log_of_ticket {job : Job} {next : UInt64 → Proc Tracking.Result}
    (h : (job.proc t).Leads log (.ask .ticket next)) :
    exists thread now, log = [⟨.threadName, thread⟩, ⟨.now, now⟩] := by
  have hroutine (e : Effect) (he : e.isRoutine = true) : e ≠ .ticket := by
    intro heq
    rw [heq] at he
    cases he
  cases job with
  | lookup key =>
      have hlookup : ((Job.lookup key).proc t).Always (· ≠ .ticket) :=
        (Tracking.always_lookup hroutine nofun nofun).bind fun _ => trivial
      exact absurd rfl (hlookup.of_leads h)
  | track request response =>
      by_cases hvalues : request.cookieValues t.cookieName = []
      · cases hcommitted : response.committed with
        | true =>
            rw [proc_track_committed hvalues hcommitted] at h
            cases h
        | false =>
            rw [proc_track_minting hvalues hcommitted] at h
            cases h with
            | @ask _ _ thread _ _ hthread =>
                cases hthread with
                | @ask _ _ now _ _ hnow =>
                    cases hnow with
                    | refl => exact ⟨thread, now, rfl⟩
                    | ask hticket =>
                        cases hticket with
                        | ask hreport => cases hreport
      · have htrack : ((Job.track request response).proc t).Always (· ≠ .ticket) :=
          (Tracking.always_track_of_tokens hroutine hvalues fun _ _ => ⟨nofun, nofun⟩).bind
            fun _ => trivial
        exact absurd rfl (htrack.of_leads h)

end

/-!
# Tickets are taken once
-/

section

variable {ι : Type} [DecidableEq ι] {T : ι → Tracker} {s s' : State ι}

/-- Visits do what their jobs ask of them, and the ticket of a visit is numbered by its place among
the takers. -/
structure Sound (T : ι → Tracker) (s : State ι) : Prop where
  leads : forall n v, s.visits n = some v ->
    exists job : Job, (job.proc (T v.owner)).Leads v.log v.task
  takes : forall n v ticket, s.visits n = some v -> ⟨.ticket, ticket⟩ ∈ v.log ->
    exists k, (s.takers v.owner)[k]? = some n ∧ ticket = UInt64.ofNat k

omit [DecidableEq ι] in
theorem Sound.outset : Sound T .outset where
  leads := fun _ _ hv => nomatch hv
  takes := fun _ _ _ hv => nomatch hv

theorem Tells.grows {n : Nat} {takers takers' : List Nat} {e : Effect} {answer : e.Answer}
    (h : Tells n takers e answer takers') : takers <+: takers' := by
  cases h with
  | ticket => exact List.prefix_append ..
  | other => exact List.prefix_rfl

theorem Tells.taken {n : Nat} {takers takers' : List Nat} {ticket : UInt64}
    (h : Tells n takers .ticket ticket takers') :
    exists k, takers'[k]? = some n ∧ ticket = UInt64.ofNat k := by
  cases h with
  | ticket => exact ⟨takers.length, List.getElem?_concat_length, rfl⟩
  | other he => exact absurd rfl he

theorem place_of_prefix {takers takers' : List Nat} (h : takers <+: takers') {k n : Nat}
    (hk : takers[k]? = some n) : takers'[k]? = some n := by
  rcases h with ⟨rest, rfl⟩
  rw [List.getElem?_append_left (List.getElem?_eq_some_iff.mp hk).1]
  exact hk

theorem Sound.moved (h : Sound T s) {n : Nat} {v : Visit ι} {takers : List Nat}
    (hgrows : s.takers v.owner <+: takers)
    (hleads : exists job : Job, (job.proc (T v.owner)).Leads v.log v.task)
    (htakes : forall ticket, ⟨.ticket, ticket⟩ ∈ v.log ->
      exists k, takers[k]? = some n ∧ ticket = UInt64.ofNat k) : Sound T (s.moved n v takers) where
  leads := by
    intro m u hu
    by_cases hm : m = n
    · rw [hm, State.visits_moved_self] at hu
      cases hu
      exact hleads
    · rw [State.visits_moved_of_ne hm] at hu
      exact h.leads m u hu
  takes := by
    intro m u ticket hu hticket
    by_cases hm : m = n
    · rw [hm, State.visits_moved_self] at hu
      cases hu
      rw [hm, State.takers_moved_self]
      exact htakes ticket hticket
    · rw [State.visits_moved_of_ne hm] at hu
      rcases h.takes m u ticket hu hticket with ⟨k, hk, heq⟩
      exact ⟨k, place_of_prefix (State.takers_prefix_moved hgrows _) hk, heq⟩

theorem Sound.step (h : Sound T s) (hstep : Step T s s') : Sound T s' := by
  cases hstep with
  | start job hfresh =>
      exact h.moved List.prefix_rfl ⟨job, .refl⟩ fun _ hticket => nomatch hticket
  | @ask n v e next answer takers hv htask htells =>
      rcases h.leads n v hv with ⟨job, hjob⟩
      rw [htask] at hjob
      refine h.moved htells.grows ⟨job, hjob.tail answer⟩ ?_
      intro ticket hticket
      rcases List.mem_append.mp hticket with hbefore | hnow
      · rcases h.takes n v ticket hv hbefore with ⟨k, hk, heq⟩
        exact ⟨k, place_of_prefix htells.grows hk, heq⟩
      · cases List.mem_singleton.mp hnow
        exact htells.taken

theorem Sound.runs (h : Sound T s) (hrun : Runs T s s') : Sound T s' := by
  induction hrun with
  | refl => exact h
  | tail _ hstep ih => exact ih.step hstep

omit [DecidableEq ι] in
/-- Until its tickets begin again, a tracker makes no seed for two visits. -/
theorem Sound.seeds_inj (h : Sound T s) {i : ι} (hfew : (s.takers i).length ≤ 2 ^ 64) {m n : Nat}
    {seed : String} (hm : s.Seeds T i m seed) (hn : s.Seeds T i n seed) : m = n := by
  rcases hm with ⟨v, d, hv, rfl, hd, hseed⟩
  rcases hn with ⟨u, d', hu, howner, hd', hseed'⟩
  have hticket : d.ticket = d'.ticket := Tracker.ticket_of_seed (hseed.symm.trans hseed')
  rcases h.takes m v d.ticket hv (hd.subset (by simp [Draw.asked])) with ⟨k, hk, hdk⟩
  rcases h.takes n u d'.ticket hu (hd'.subset (by simp [Draw.asked])) with ⟨k', hk', hdk'⟩
  rw [howner] at hk'
  have hlt := (List.getElem?_eq_some_iff.mp hk).1
  have hlt' := (List.getElem?_eq_some_iff.mp hk').1
  have hplace : k = k' := by
    rw [← UInt64.toNat_ofNat_of_lt' (Nat.lt_of_lt_of_le hlt hfew),
      ← UInt64.toNat_ofNat_of_lt' (Nat.lt_of_lt_of_le hlt' hfew), ← hdk, ← hdk', hticket]
  rw [hplace, hk'] at hk
  exact (Option.some.inj hk).symm

omit [DecidableEq ι] in
theorem Sound.exists_seed (h : Sound T s) {i : ι} {n : Nat} {token : String}
    (hminted : s.Mints i n token) :
    exists seed, s.Seeds T i n seed ∧ token = Tracker.token (T i).id seed := by
  rcases hminted with ⟨v, hv, rfl, htask⟩
  rcases h.leads n v hv with ⟨job, hjob⟩
  rw [htask] at hjob
  rcases exists_draw hjob with ⟨d, hd, htoken⟩
  exact ⟨_, ⟨v, d, hv, rfl, hd, rfl⟩, htoken⟩

theorem Step.takers (hstep : Step T s s') (i : ι) : s'.takers i = s.takers i ∨
    exists (n : Nat) (v : Visit ι) (next : UInt64 → Proc Tracking.Result) (ticket : UInt64),
      s.visits n = some v ∧ v.owner = i ∧ v.task = .ask .ticket next ∧
        s'.takers i = s.takers i ++ [n] ∧
        s'.visits n = some ⟨i, next ticket, v.log ++ [⟨.ticket, ticket⟩]⟩ := by
  cases hstep with
  | start job hfresh => exact Or.inl (congrFun State.takers_moved_same i)
  | @ask n v e next answer takers hv htask htells =>
      cases htells with
      | other => exact Or.inl (congrFun State.takers_moved_same i)
      | ticket =>
          by_cases hi : i = v.owner
          · subst hi
            exact Or.inr ⟨n, v, next, _, hv, rfl, htask, State.takers_moved_self,
              State.visits_moved_self⟩
          · exact Or.inl (State.takers_moved_of_ne hi)

theorem seeds_of_step (hstep : Step T s s') {i : ι} {m : Nat} {seed : String}
    (h : s.Seeds T i m seed) : s'.Seeds T i m seed := by
  rcases h with ⟨u, d, hu, howner, hd, hseed⟩
  cases hstep with
  | @start n j job hfresh =>
      have hm : m ≠ n := by
        intro hm
        rw [hm, hfresh] at hu
        cases hu
      exact ⟨u, d, (State.visits_moved_of_ne hm).trans hu, howner, hd, hseed⟩
  | @ask n v e next answer takers hv htask htells =>
      by_cases hm : m = n
      · subst hm
        cases hv.symm.trans hu
        exact ⟨_, d, State.visits_moved_self, howner, hd.trans (List.prefix_append ..), hseed⟩
      · exact ⟨u, d, (State.visits_moved_of_ne hm).trans hu, howner, hd, hseed⟩

/-- The takers of a tracker are visits that have made a seed, each of them once. -/
structure Tallied (T : ι → Tracker) (s : State ι) : Prop where
  nodup : forall i, (s.takers i).Nodup
  seeds : forall i n, n ∈ s.takers i -> exists seed, s.Seeds T i n seed

omit [DecidableEq ι] in
theorem Tallied.outset : Tallied T .outset where
  nodup := fun _ => List.nodup_nil
  seeds := fun _ _ hn => nomatch hn

omit [DecidableEq ι] in
theorem Sound.log_eq (h : Sound T s) {n : Nat} {v : Visit ι}
    {next : UInt64 → Proc Tracking.Result} (hv : s.visits n = some v)
    (htask : v.task = .ask .ticket next) :
    exists thread now, v.log = [⟨.threadName, thread⟩, ⟨.now, now⟩] := by
  rcases h.leads n v hv with ⟨job, hjob⟩
  rw [htask] at hjob
  exact log_of_ticket hjob

omit [DecidableEq ι] in
theorem Tallied.not_mem (h : Tallied T s) (hs : Sound T s) {n : Nat} {v : Visit ι}
    {next : UInt64 → Proc Tracking.Result} (hv : s.visits n = some v)
    (htask : v.task = .ask .ticket next) (i : ι) : n ∉ s.takers i := by
  intro hn
  rcases h.seeds i n hn with ⟨_, u, d, hu, _, hd, _⟩
  cases hv.symm.trans hu
  rcases hs.log_eq hv htask with ⟨thread, now, hlog⟩
  rw [hlog] at hd
  exact Nat.not_succ_le_self 2 hd.length_le

theorem Tallied.step (h : Tallied T s) (hs : Sound T s) (hstep : Step T s s') : Tallied T s' where
  nodup := by
    intro i
    rcases hstep.takers i with hsame | ⟨n, v, next, _, hv, _, htask, htakers, _⟩
    · rw [hsame]
      exact h.nodup i
    · rw [htakers, ← List.concat_eq_append]
      exact List.Nodup.concat (h.not_mem hs hv htask i) (h.nodup i)
  seeds := by
    intro i m hm
    have hbefore (hm : m ∈ s.takers i) : exists seed, s'.Seeds T i m seed := by
      rcases h.seeds i m hm with ⟨seed, hseed⟩
      exact ⟨seed, seeds_of_step hstep hseed⟩
    rcases hstep.takers i with hsame | ⟨n, v, next, ticket, hv, _, htask, htakers, hu⟩
    · rw [hsame] at hm
      exact hbefore hm
    · rw [htakers] at hm
      rcases List.mem_append.mp hm with hm | hm
      · exact hbefore hm
      · rw [List.mem_singleton.mp hm]
        rcases hs.log_eq hv htask with ⟨thread, now, hlog⟩
        rw [hlog] at hu
        exact ⟨_, _, ⟨thread, now, ticket⟩, hu, rfl, List.prefix_rfl, rfl⟩

theorem tallied_of_runs (hrun : Runs T .outset s) : Tallied T s := by
  induction hrun with
  | refl => exact .outset
  | tail hrun hstep ih => exact ih.step (Sound.outset.runs hrun) hstep

omit [DecidableEq ι] in
theorem Sound.mem_takers (h : Sound T s) {i : ι} {n : Nat} {seed : String}
    (hseed : s.Seeds T i n seed) : n ∈ s.takers i := by
  rcases hseed with ⟨v, d, hv, rfl, hd, _⟩
  rcases h.takes n v d.ticket hv (hd.subset (by simp [Draw.asked])) with ⟨k, hk, _⟩
  exact List.mem_of_getElem? hk

omit [DecidableEq ι] in
theorem seeds_unique {i : ι} {n : Nat} {seed seed' : String} (h : s.Seeds T i n seed)
    (h' : s.Seeds T i n seed') : seed = seed' := by
  rcases h with ⟨v, d, hv, rfl, hd, rfl⟩
  rcases h' with ⟨u, d', hu, _, hd', rfl⟩
  cases hv.symm.trans hu
  have hasked : d.asked = d'.asked :=
    (List.prefix_of_prefix_length_le hd hd' (Nat.le_refl _)).eq_of_length rfl
  cases d
  cases d'
  cases hasked
  rfl

/-- Tokens are not handed out twice.  A tracker has made one seed for each of its takers, and the
token of a visit is made from the seed of the visit.  Until its tickets begin again a tracker makes
no seed twice, so only the digest can confuse its tokens; and nothing confuses the tokens of servers
with different ids. -/
theorem tokens_distinct (hrun : Runs T .outset s) :
    (forall i, (s.takers i).Nodup ∧
      forall n, n ∈ s.takers i ↔ exists seed, s.Seeds T i n seed) ∧
    (forall i n token, s.Mints i n token ->
      exists seed, s.Seeds T i n seed ∧ token = Tracker.token (T i).id seed) ∧
    (forall i, (s.takers i).length ≤ 2 ^ 64 -> forall m n seed seed', m ≠ n ->
      s.Seeds T i m seed -> s.Seeds T i n seed' -> seed ≠ seed' ∧
        (Sha1.digest (Utf8.encode seed) ≠ Sha1.digest (Utf8.encode seed') ->
          forall token token', s.Mints i m token -> s.Mints i n token' -> token ≠ token')) ∧
    forall i j, (T i).id ≠ (T j).id -> forall m n token token',
      s.Mints i m token -> s.Mints j n token' -> token ≠ token' := by
  have h : Sound T s := Sound.outset.runs hrun
  have htallied : Tallied T s := tallied_of_runs hrun
  refine ⟨fun i => ⟨htallied.nodup i, fun n => ?_⟩, fun i n token => h.exists_seed, ?_, ?_⟩
  · constructor
    · exact htallied.seeds i n
    · rintro ⟨seed, hseed⟩
      exact h.mem_takers hseed
  · intro i hfew m n seed seed' hne hm hn
    constructor
    · intro heq
      rw [heq] at hm
      exact hne (h.seeds_inj hfew hm hn)
    · intro hdigest token token' htoken htoken' heq
      rcases h.exists_seed htoken with ⟨made, hmade, rfl⟩
      rcases h.exists_seed htoken' with ⟨made', hmade', rfl⟩
      rw [seeds_unique hmade hm, seeds_unique hmade' hn] at heq
      exact hdigest (Tracker.token_eq_iff.mp heq).2
  · intro i j hid m n token token' htoken htoken' heq
    rcases h.exists_seed htoken with ⟨seed, _, rfl⟩
    rcases h.exists_seed htoken' with ⟨seed', _, rfl⟩
    exact hid (Tracker.token_eq_iff.mp heq).1

end

/-!
# Three tokens
-/

section

variable {ι : Type} [DecidableEq ι] {T : ι → Tracker} {s₀ s : State ι} {n : Nat} {i : ι}

theorem State.moved_moved (s : State ι) (n : Nat) (i : ι) (task task' : Proc Tracking.Result)
    (log log' : List Asked) (takers takers' : List Nat) :
    (s.moved n ⟨i, task, log⟩ takers).moved n ⟨i, task', log'⟩ takers' =
      s.moved n ⟨i, task', log'⟩ takers' := by
  unfold State.moved
  rw [Function.update_idem, Function.update_idem]

theorem Runs.ask {e : Effect} {next : e.Answer → Proc Tracking.Result} {log : List Asked}
    {takers takers' : List Nat} (hrun : Runs T s₀ (s.moved n ⟨i, .ask e next, log⟩ takers))
    (answer : e.Answer) (htells : Tells n takers e answer takers') :
    Runs T s₀ (s.moved n ⟨i, next answer, log ++ [⟨e, answer⟩]⟩ takers') := by
  have htakers : (s.moved n ⟨i, .ask e next, log⟩ takers).takers i = takers :=
    State.takers_moved_self
  rw [← htakers] at htells
  have hstep := Step.ask (T := T) State.visits_moved_self rfl htells
  rw [State.moved_moved] at hstep
  exact hrun.tail hstep

def State.handed (T : ι → Tracker) (s : State ι) (n : Nat) (i : ι) (thread : Option String)
    (now : Instant) : State ι :=
  let d : Draw := ⟨thread, now, UInt64.ofNat (s.takers i).length⟩
  let token := Tracker.token (T i).id (d.seed (T i))
  let log := d.asked ++ [⟨.report (.token token .issued), ()⟩]
  s.moved n ⟨i, .done (.tracked (.minted token)), log⟩ (s.takers i ++ [n])

theorem Runs.handed (hrun : Runs T s₀ s) (hfresh : s.visits n = none) (i : ι)
    (thread : Option String) (now : Instant) : Runs T s₀ (s.handed T n i thread now) := by
  have hstart : Runs T s₀ _ := hrun.tail (.start (i := i) (.track {} {}) hfresh)
  rw [proc_track_minting rfl rfl] at hstart
  have hthread := hstart.ask thread (.other nofun)
  have hnow := hthread.ask now (.other nofun)
  have hticket := hnow.ask (UInt64.ofNat (s.takers i).length) .ticket
  exact hticket.ask () (.other nofun)

end

/-- Two servers, the id of one of which begins with the id of the other and a dash. -/
def pair (second : Bool) : Tracker where
  id := ⟨if second then "a-0" else "a"⟩
  users := ⟨Config.userRegion {}⟩
  cookieName := Config.cookieName {}
  window := 0
  startedAt := 0

/-- Of three tokens that are handed out in one millisecond, two by one server and one by the other,
no two are the same. -/
theorem pair_tokens_distinct : exists (s : State Bool) (first second other : String),
    Runs pair .outset s ∧ s.Mints false 0 first ∧ s.Mints false 1 second ∧ s.Mints true 2 other ∧
      first ≠ second ∧ first ≠ other ∧ second ≠ other := by
  let s : State Bool := ((State.outset.handed pair 0 false none .epoch).handed pair 1 false
    (some "pool:1") .epoch).handed pair 2 true none .epoch
  let first : Draw := ⟨none, .epoch, 0⟩
  let second : Draw := ⟨some "pool:1", .epoch, 1⟩
  have hrun : Runs pair .outset .outset := .refl
  have hrun := hrun.handed (n := 0) rfl false none .epoch
  have hrun := hrun.handed (n := 1) rfl false (some "pool:1") .epoch
  have hrun : Runs pair .outset s := hrun.handed rfl true none .epoch
  have hfirst : s.Mints false 0 (Tracker.token ⟨"a"⟩ (first.seed (pair false))) :=
    ⟨_, rfl, rfl, rfl⟩
  have hsecond : s.Mints false 1 (Tracker.token ⟨"a"⟩ (second.seed (pair false))) :=
    ⟨_, rfl, rfl, rfl⟩
  have hother : s.Mints true 2 (Tracker.token ⟨"a-0"⟩ (first.seed (pair true))) :=
    ⟨_, rfl, rfl, rfl⟩
  have hdigest : Sha1.digest (Utf8.encode (first.seed (pair false))) ≠
      Sha1.digest (Utf8.encode (second.seed (pair false))) := by decide +kernel
  have hid : (pair false).id ≠ (pair true).id := by decide
  rcases tokens_distinct hrun with ⟨_, _, hsame, hapart⟩
  refine ⟨s, _, _, _, hrun, hfirst, hsecond, hother, ?_, ?_, ?_⟩
  · exact (hsame false (by decide) 0 1 _ _ (by decide)
      ⟨_, first, rfl, rfl, List.prefix_append .., rfl⟩
      ⟨_, second, rfl, rfl, List.prefix_append .., rfl⟩).2 hdigest _ _ hfirst hsecond
  · exact hapart false true hid 0 2 _ _ hfirst hother
  · exact hapart false true hid 1 2 _ _ hsecond hother

end Minting
end Roster
