import Mathlib.Logic.Relation
import Roster.Proofs.Config
import Roster.Proofs.Ownership.Members
import Roster.Proofs.Registry.Contents
import Roster.Proofs.Tracking.Procedures

/-!
# Whose keys are whose

Members and trackers of any number of servers share a registry.  The names of the two regions are
all that keeps registrations and sightings apart: tokens are whatever clients choose to send, also
the id of a server.

A member writes under the id of its server among the registrations.  A tracker writes what requests
carry in its cookie, and removes what it is asked for, among the sightings.  This holds whatever
the registry answers, and whether or not a call that fails has taken effect.
-/

namespace Roster

/-!
# What a call makes of a registry
-/

namespace Contents

/-- What may become of a registry with a call: the effect of the call or nothing, whatever the
answer. -/
inductive Becomes (c : Contents) : Call → Contents → Prop where
  | unchanged {call} : Becomes c call c
  | put {region key bytes} :
      Becomes c (.put region key bytes) (c.assign region key (some bytes))
  | remove {region key} : Becomes c (.remove region key) (c.assign region key none)

theorem Answers.becomes {c c' : Contents} {call : Call}
    {answer : Except RegistryError call.Answer} (h : c.Answers call answer c') :
    c.Becomes call c' := by
  cases h with
  | put => exact .put
  | remove => exact .remove
  | _ => exact .unchanged

theorem Becomes.eq_of_ne {c c' : Contents} {call : Call} (h : c.Becomes call c')
    {region key : String} (hne : c' region key ≠ c region key) :
    (exists bytes, call = .put region key bytes ∧ c' region key = some bytes) ∨
      call = .remove region key ∧ c' region key = none := by
  have hassign {r k : String} {value : Option Bytes}
      (hne : c.assign r k value region key ≠ c region key) :
      r = region ∧ k = key ∧ c.assign r k value region key = value := by
    unfold assign at hne ⊢
    split at hne
    · next heq =>
        rw [if_pos heq]
        exact ⟨heq.1.symm, heq.2.symm, rfl⟩
    · exact absurd rfl hne
  cases h with
  | unchanged => exact absurd rfl hne
  | put =>
      rcases hassign hne with ⟨rfl, rfl, hvalue⟩
      exact Or.inl ⟨_, rfl, hvalue⟩
  | remove =>
      rcases hassign hne with ⟨rfl, rfl, hvalue⟩
      exact Or.inr ⟨rfl, hvalue⟩

end Contents

namespace Ownership

open Tracking

/-!
# Peers and their deeds
-/

structure Peer extends Member where
  window : Int
  startedAt : Int
  valid : config.validate = .ok ()

namespace Peer

def tracker (p : Peer) : Tracker where
  id := p.id
  users := ⟨p.config.userRegion⟩
  cookieName := p.config.cookieName
  window := p.window
  startedAt := p.startedAt

theorem regions_ne (p : Peer) : p.config.serverRegion ≠ p.config.userRegion :=
  ((Config.validate_eq_ok p.config).mp p.valid).regions_ne

end Peer

inductive Deed where
  | activate
  | heartbeat
  | tick
  | deactivate
  | serverNumber
  | uniqueId
  | allServers
  | visit (job : Job)

namespace Deed

def proc (p : Peer) : Deed → Proc (Option Tracking.Result)
  | activate => p.activate.bind fun _ => .done none
  | heartbeat => p.heartbeat.bind fun _ => .done none
  | tick => (Heartbeat.tick p.toMember).bind fun _ => .done none
  | deactivate => p.deactivate.bind fun _ => .done none
  | serverNumber => Member.serverNumber.bind fun _ => .done none
  | uniqueId => Member.uniqueId.bind fun _ => .done none
  | allServers => p.allServers.bind fun _ => .done none
  | visit job => (job.proc p.tracker).bind fun result => .done (some result)

def Owns (p : Peer) (region key : String) (value : Option Bytes) : Deed → Prop
  | activate | heartbeat | tick | deactivate =>
      region = p.config.serverRegion ∧ key = p.id.text
  | serverNumber | uniqueId | allServers => False
  | visit (.track request _) =>
      region = p.config.userRegion ∧ key ∈ request.cookieValues p.config.cookieName ∧ value ≠ none
  | visit (.lookup token) => region = p.config.userRegion ∧ key = token ∧ value = none

def Tracks : Deed → Bool
  | visit _ => true
  | _ => false

theorem region_of_tracks {p : Peer} {region key : String} {value : Option Bytes} {deed : Deed}
    (htracks : deed.Tracks = true) (h : deed.Owns p region key value) :
    region = p.config.userRegion := by
  cases deed with
  | visit job =>
      cases job with
      | lookup token => exact h.1
      | track request response => exact h.1
  | _ => cases htracks

theorem region_of_not_tracks {p : Peer} {region key : String} {value : Option Bytes} {deed : Deed}
    (htracks : ¬ deed.Tracks = true) (h : deed.Owns p region key value) :
    region = p.config.serverRegion := by
  cases deed with
  | visit job => exact absurd rfl htracks
  | serverNumber | uniqueId | allServers => exact h.elim
  | activate | heartbeat | tick | deactivate => exact h.1

def Makes (p : Peer) (deed : Deed) : Effect → Prop
  | .call (.put region key bytes) => deed.Owns p region key (some bytes)
  | .call (.remove region key) => deed.Owns p region key none
  | _ => True

theorem makes_apart {p : Peer} {deed : Deed} (e : Effect) (h : forall c, e ≠ .call c) :
    deed.Makes p e := by
  cases e with
  | call c => exact absurd rfl (h c)
  | _ => exact trivial

theorem makes_routine {p : Peer} {deed : Deed} (e : Effect) (h : e.isRoutine = true) :
    deed.Makes p e :=
  makes_apart e (Effect.ne_call_of_isRoutine h)

theorem allowed {p : Peer} {deed : Deed}
    (h : forall value, deed.Owns p p.config.serverRegion p.id.text value) :
    p.Allowed (deed.Makes p) where
  routine := makes_routine
  list := trivial
  put := fun bytes => h (some bytes)
  remove := h none

theorem always_makes (p : Peer) (deed : Deed) : (deed.proc p).Always (deed.Makes p) := by
  cases deed with
  | activate =>
      have h : p.Allowed (activate.Makes p) := allowed fun value => ⟨rfl, rfl⟩
      exact (Member.always_activate h).bind fun _ => trivial
  | heartbeat =>
      have h : p.Allowed (heartbeat.Makes p) := allowed fun value => ⟨rfl, rfl⟩
      exact (Member.always_heartbeat h).bind fun _ => trivial
  | tick =>
      have h : p.Allowed (tick.Makes p) := allowed fun value => ⟨rfl, rfl⟩
      exact (Member.always_tick h).bind fun _ => trivial
  | deactivate =>
      have h : p.Allowed (deactivate.Makes p) := allowed fun value => ⟨rfl, rfl⟩
      exact (Member.always_deactivate h).bind fun _ => trivial
  | serverNumber => exact (Member.always_serverNumber makes_apart).bind fun _ => trivial
  | uniqueId => exact (Member.always_uniqueId makes_apart).bind fun _ => trivial
  | allServers =>
      have hlist : allServers.Makes p (.call (.list p.servers.name)) := trivial
      exact (Member.always_allServers hlist).bind fun _ => trivial
  | visit job =>
      refine Proc.Always.bind ?_ fun _ => trivial
      cases job with
      | lookup token =>
          have hremove : (visit (.lookup token)).Makes p
              (.call (.remove p.tracker.users.name token)) := ⟨rfl, rfl, rfl⟩
          have hget : (visit (.lookup token)).Makes p
              (.call (.get p.tracker.users.name token)) := trivial
          exact (always_lookup makes_routine hget hremove).bind fun _ => trivial
      | track request response =>
          refine Proc.Always.bind ?_ fun _ => trivial
          apply always_track makes_apart
          intro token htoken
          constructor
          · exact trivial
          · intro bytes
            exact ⟨rfl, htoken, fun h => nomatch h⟩

theorem gives_unminted (p : Peer) {request : Web.Request} (response : Web.Response)
    (h : request.cookieValues p.config.cookieName ≠ []) :
    ((visit (.track request response)).proc p).Gives fun result =>
      forall token, result ≠ some (.tracked (.minted token)) := by
  refine (proc_track_unminted (t := p.tracker) response h).bind ?_
  intro result hresult token heq
  cases heq
  exact hresult token rfl

end Deed

/-!
# Runs
-/

structure Peers (ι : Type) where
  peer : ι → Peer
  servers : String
  users : String
  servers_eq : forall i, (peer i).config.serverRegion = servers
  users_eq : forall i, (peer i).config.userRegion = users

structure Worker (ι : Type) where
  owner : ι
  deed : Deed
  task : Proc (Option Tracking.Result)

/-- What the peers share, where their members stand, and what they do.  Workers go by numbers, and
stay when they are done. -/
structure State (ι : Type) where
  contents : Contents
  standing : ι → Standing
  workers : Nat → Option (Worker ι)

namespace State

variable {ι : Type}

def outset (contents : Contents) (standing : ι → Standing) : State ι where
  contents := contents
  standing := standing
  workers := fun _ => none

def moved (s : State ι) (n : Nat) (w : Worker ι) (contents : Contents) (standing : ι → Standing) :
    State ι where
  contents := contents
  standing := standing
  workers := Function.update s.workers n (some w)

theorem moved_moved (s : State ι) (n : Nat) (w u : Worker ι) (c c' : Contents)
    (standing standing' : ι → Standing) :
    (s.moved n w c standing).moved n u c' standing' = s.moved n u c' standing' := by
  unfold moved
  rw [Function.update_idem]

end State

def Apart : Effect → Prop
  | .call _ | .look | .store _ => False
  | _ => True

/-- How an effect other than a call may be answered where a member stands so, and where it stands
then.  Clocks answer as they like. -/
inductive Tells (σ : Standing) : (e : Effect) → e.Answer → Standing → Prop where
  | look : Tells σ .look σ σ
  | store {standing} : Tells σ (.store standing) () standing
  | other {e} {answer : e.Answer} (h : Apart e) : Tells σ e answer σ

section

variable {ι : Type} [DecidableEq ι] (P : Peers ι)

/-- What the worker `n` may do next.  The registry answers as it likes. -/
inductive Step (s : State ι) (n : Nat) : State ι → Prop where
  | start {i} (deed : Deed) (hfresh : s.workers n = none) :
      Step s n (s.moved n ⟨i, deed, deed.proc (P.peer i)⟩ s.contents s.standing)
  | call {w c next contents} (answer : Except RegistryError c.Answer) (hw : s.workers n = some w)
      (htask : w.task = .ask (.call c) next) (hbecomes : s.contents.Becomes c contents) :
      Step s n (s.moved n { w with task := next answer } contents s.standing)
  | ask {w e next answer standing} (hw : s.workers n = some w) (htask : w.task = .ask e next)
      (htells : Tells (s.standing w.owner) e answer standing) :
      Step s n (s.moved n { w with task := next answer } s.contents
        (Function.update s.standing w.owner standing))

def Runs : State ι → State ι → Prop :=
  Relation.ReflTransGen fun s s' => exists n, Step P s n s'

def State.Carries (s : State ι) (n : Nat) (token : String) : Prop :=
  exists i request response task, s.workers n = some ⟨i, .visit (.track request response), task⟩ ∧
    token ∈ request.cookieValues (P.peer i).config.cookieName

/-- A worker may do what its deed may, and hands out no token when it was sent one. -/
structure Worker.Proper (w : Worker ι) : Prop where
  makes : w.task.Always (w.deed.Makes (P.peer w.owner))
  gives : forall request response, w.deed = .visit (.track request response) ->
    request.cookieValues (P.peer w.owner).config.cookieName ≠ [] ->
      w.task.Gives fun result => forall token, result ≠ some (.tracked (.minted token))

def State.Proper (s : State ι) : Prop :=
  forall n w, s.workers n = some w -> w.Proper P

end

section

variable {ι : Type} [DecidableEq ι] {P : Peers ι} {s s' : State ι} {n : Nat}

omit [DecidableEq ι] in
theorem Worker.Proper.start (i : ι) (deed : Deed) :
    Worker.Proper P ⟨i, deed, deed.proc (P.peer i)⟩ where
  makes := deed.always_makes (P.peer i)
  gives := by
    intro request response hdeed hvalues
    cases hdeed
    exact Deed.gives_unminted (P.peer i) response hvalues

omit [DecidableEq ι] in
theorem Worker.Proper.next {w : Worker ι} (h : w.Proper P) {e : Effect}
    {next : e.Answer → Proc (Option Tracking.Result)} (htask : w.task = .ask e next)
    (answer : e.Answer) : Worker.Proper P { w with task := next answer } where
  makes := by
    have hmakes := h.makes
    rw [htask] at hmakes
    exact hmakes.2 answer
  gives := by
    intro request response hdeed hvalues
    have hgives := h.gives request response hdeed hvalues
    rw [htask] at hgives
    exact hgives answer

/-- What a step does: a worker begins a deed or goes on with its own, and the registry becomes what
the effect may make of it. -/
theorem Step.cases (hs : s.Proper P) (hstep : Step P s n s') :
    exists w, w.Proper P ∧ s'.workers = Function.update s.workers n (some w) ∧
      (forall u, s.workers n = some u -> w.owner = u.owner ∧ w.deed = u.deed) ∧
      forall region key, s'.contents region key ≠ s.contents region key ->
        w.deed.Owns (P.peer w.owner) region key (s'.contents region key) := by
  cases hstep with
  | @start i deed hfresh =>
      refine ⟨_, .start i deed, rfl, ?_, fun region key hne => absurd rfl hne⟩
      intro u hu
      rw [hfresh] at hu
      cases hu
  | @call w c next contents answer hw htask hbecomes =>
      refine ⟨_, (hs n w hw).next htask answer, rfl, ?_, ?_⟩
      · intro u hu
        rw [hw] at hu
        cases hu
        exact ⟨rfl, rfl⟩
      · intro region key hne
        have hmakes := (hs n w hw).makes
        rw [htask] at hmakes
        change w.deed.Owns (P.peer w.owner) region key (contents region key)
        rcases hbecomes.eq_of_ne hne with ⟨bytes, rfl, hvalue⟩ | ⟨rfl, hvalue⟩
        · rw [hvalue]
          exact hmakes.1
        · rw [hvalue]
          exact hmakes.1
  | @ask w e next answer standing hw htask htells =>
      refine ⟨_, (hs n w hw).next htask answer, rfl, ?_, fun region key hne => absurd rfl hne⟩
      intro u hu
      rw [hw] at hu
      cases hu
      exact ⟨rfl, rfl⟩

theorem State.Proper.step (hs : s.Proper P) (hstep : Step P s n s') : s'.Proper P := by
  rcases hstep.cases hs with ⟨w, hw, hworkers, _, _⟩
  intro k u hu
  rw [hworkers] at hu
  by_cases hk : k = n
  · rw [hk, Function.update_self] at hu
    cases hu
    exact hw
  · rw [Function.update_of_ne hk] at hu
    exact hs k u hu

theorem State.Carries.step (hs : s.Proper P) (hstep : Step P s n s') {k : Nat} {token : String}
    (h : s.Carries P k token) : s'.Carries P k token := by
  rcases hstep.cases hs with ⟨w, _, hworkers, hsame, _⟩
  rcases h with ⟨i, request, response, task, hk, htoken⟩
  unfold State.Carries
  rw [hworkers]
  by_cases heq : k = n
  · rw [heq] at hk ⊢
    rcases hsame _ hk with ⟨howner, hdeed⟩
    cases w
    cases howner
    cases hdeed
    exact ⟨i, request, response, _, Function.update_self .., htoken⟩
  · rw [Function.update_of_ne heq]
    exact ⟨i, request, response, task, hk, htoken⟩

def State.Sent (P : Peers ι) (s : State ι) : Prop :=
  forall token, s.contents P.users token ≠ none -> exists n, s.Carries P n token

theorem State.Sent.step (hs : s.Proper P) (hsent : s.Sent P) (hstep : Step P s n s') :
    s'.Sent P := by
  intro token htoken
  by_cases hsame : s'.contents P.users token = s.contents P.users token
  · rw [hsame] at htoken
    rcases hsent token htoken with ⟨k, hk⟩
    exact ⟨k, hk.step hs hstep⟩
  · rcases hstep.cases hs with ⟨⟨i, deed, task⟩, _, hworkers, _, howns⟩
    have howned := howns P.users token hsame
    have hregions := (P.peer i).regions_ne
    rw [P.users_eq] at hregions
    cases deed with
    | activate | heartbeat | tick | deactivate => exact absurd howned.1.symm hregions
    | serverNumber | uniqueId | allServers => exact howned.elim
    | visit job =>
        cases job with
        | lookup _ => exact absurd howned.2.2 htoken
        | track request response =>
            refine ⟨n, i, request, response, task, ?_, howned.2.1⟩
            rw [hworkers, Function.update_self]

omit [DecidableEq ι] in
theorem not_carries_of_minted (hs : s.Proper P) {w : Worker ι} {minted token : String}
    (hw : s.workers n = some w) (htask : w.task = .done (some (.tracked (.minted minted)))) :
    ¬ s.Carries P n token := by
  intro hcarries
  rcases hcarries with ⟨i, request, response, task, hn, htoken⟩
  rw [hw] at hn
  cases hn
  have hgives := (hs n _ hw).gives request response rfl (List.ne_nil_of_mem htoken)
  rw [htask] at hgives
  exact hgives minted rfl

/-!
# Writes stay with their owners
-/

theorem proper_of_runs {contents : Contents} {standing : ι → Standing}
    (hrun : Runs P (.outset contents standing) s) : s.Proper P := by
  induction hrun with
  | refl =>
      intro n w hw
      cases hw
  | tail _ hstep ih =>
      rcases hstep with ⟨n, hstep⟩
      exact ih.step hstep

theorem sent_of_runs {contents : Contents} {standing : ι → Standing}
    (hempty : forall token, contents P.users token = none)
    (hrun : Runs P (.outset contents standing) s) : s.Sent P := by
  induction hrun with
  | refl =>
      intro token htoken
      exact absurd (hempty token) htoken
  | tail hrun hstep ih =>
      rcases hstep with ⟨n, hstep⟩
      exact ih.step (proper_of_runs hrun) hstep

/-- Whatever is done, whatever clients send and however the registry fails, each write is to a key
that its deed owns, and regions of the other kind stay as they are.  A sighting has a token that a
client has sent, not one that was handed out and has not come back. -/
theorem writes_stay_owned {contents : Contents} {standing : ι → Standing}
    (hrun : Runs P (.outset contents standing) s) :
    (forall n s', Step P s n s' -> exists w, s'.workers n = some w ∧
      (forall region key, s'.contents region key ≠ s.contents region key ->
        w.deed.Owns (P.peer w.owner) region key (s'.contents region key)) ∧
      if w.deed.Tracks then s'.contents P.servers = s.contents P.servers
      else s'.contents P.users = s.contents P.users) ∧
    ((forall token, contents P.users token = none) ->
      (forall token, s.contents P.users token ≠ none -> exists n, s.Carries P n token) ∧
      forall n w token, s.workers n = some w ->
        w.task = .done (some (.tracked (.minted token))) ->
          s.contents P.users token ≠ none -> exists k, k ≠ n ∧ s.Carries P k token) := by
  have hs := proper_of_runs hrun
  constructor
  · intro n s' hstep
    rcases hstep.cases hs with ⟨⟨i, deed, task⟩, _, hworkers, _, howns⟩
    have hregions := (P.peer i).regions_ne
    refine ⟨⟨i, deed, task⟩, by rw [hworkers, Function.update_self], howns, ?_⟩
    split
    · next htracks =>
        funext key
        by_contra hne
        have howned := howns P.servers key hne
        rw [← P.servers_eq i] at howned
        exact hregions (Deed.region_of_tracks htracks howned)
    · next htracks =>
        funext key
        by_contra hne
        have howned := howns P.users key hne
        rw [← P.users_eq i] at howned
        exact hregions (Deed.region_of_not_tracks htracks howned).symm
  · intro hempty
    have hsent := sent_of_runs hempty hrun
    refine ⟨hsent, ?_⟩
    intro n w token hw htask htoken
    rcases hsent token htoken with ⟨k, hk⟩
    refine ⟨k, ?_, hk⟩
    intro heq
    rw [heq] at hk
    exact not_carries_of_minted hs hw htask hk

/-!
# A token that comes back
-/

section

variable {i : ι} {deed : Deed} {task : Proc (Option Tracking.Result)} {contents : Contents}
  {standing : ι → Standing} {s₀ : State ι}

theorem Runs.start (hrun : Runs P s₀ s) (i : ι) (deed : Deed) (hfresh : s.workers n = none) :
    Runs P s₀ (s.moved n ⟨i, deed, deed.proc (P.peer i)⟩ s.contents s.standing) :=
  hrun.tail ⟨n, .start deed hfresh⟩

theorem Runs.ask (hrun : Runs P s₀ (s.moved n ⟨i, deed, task⟩ contents standing)) {e : Effect}
    {next : e.Answer → Proc (Option Tracking.Result)} (htask : task = .ask e next)
    (answer : e.Answer) (hapart : Apart e) :
    Runs P s₀ (s.moved n ⟨i, deed, next answer⟩ contents standing) := by
  have htells : Tells (standing i) e answer (standing i) := .other hapart
  have hstep := Step.ask (P := P) (s := s.moved n ⟨i, deed, task⟩ contents standing)
    (Function.update_self ..) htask htells
  rw [State.moved_moved] at hstep
  change Step P _ n (s.moved n _ contents (Function.update standing i (standing i))) at hstep
  rw [Function.update_eq_self] at hstep
  exact hrun.tail ⟨n, hstep⟩

theorem Runs.call (hrun : Runs P s₀ (s.moved n ⟨i, deed, task⟩ contents standing)) {c : Call}
    {next : (Effect.call c).Answer → Proc (Option Tracking.Result)}
    (htask : task = .ask (.call c) next) {answer : Except RegistryError c.Answer}
    {contents' : Contents} (hanswer : contents.Answers c answer contents') :
    Runs P s₀ (s.moved n ⟨i, deed, next answer⟩ contents' standing) := by
  have hstep := Step.call (P := P) (s := s.moved n ⟨i, deed, task⟩ contents standing) answer
    (Function.update_self ..) htask hanswer.becomes
  rw [State.moved_moved] at hstep
  exact hrun.tail ⟨n, hstep⟩

end

end

def Peers.pair : Peers Bool where
  peer := fun second =>
    { id := ⟨if second then "b" else "a"⟩
      config := {}
      window := 0
      startedAt := 0
      valid := (Config.validate_eq_ok {}).mpr Config.valid_default }
  servers := Config.serverRegion {}
  users := Config.userRegion {}
  servers_eq := fun _ => rfl
  users_eq := fun _ => rfl

def handed : String :=
  Tracker.token ⟨"a"⟩ (Tracker.seed none 0 Instant.epoch.millis 0)

def comeback : Web.Request where
  cookies := [(Config.cookieName {}, handed)]

theorem cookieValues_comeback :
    comeback.cookieValues (Peers.pair.peer true).config.cookieName = [handed] := by
  simp [comeback, Web.Request.cookieValues, Peers.pair]

/-- A token is handed out by one peer, and stored by the other when it comes back. -/
theorem handed_comes_back :
    exists s : State Bool, Runs Peers.pair (.outset (fun _ _ => none) fun _ => {}) s ∧
      s.contents Peers.pair.users handed ≠ none ∧
      exists k, k ≠ 0 ∧ s.Carries Peers.pair k handed := by
  let begun : State Bool := .outset (fun _ _ => none) fun _ => {}
  let mint : Deed := .visit (.track {} {})
  let track : Deed := .visit (.track comeback {})
  let sighting : Sighting :=
    { token := handed, user := "", owner := "b", refreshedAt := Instant.epoch }
  let minted : State Bool :=
    begun.moved 0 ⟨false, mint, .done (some (.tracked (.minted handed)))⟩ begun.contents
      begun.standing
  let stored : Contents :=
    Contents.assign (fun _ _ => none) Peers.pair.users handed (some (Storable.encode sighting))
  have hmint : Runs Peers.pair begun minted := by
    have hrun : Runs Peers.pair begun begun := .refl
    have hrun := hrun.start (n := 0) false mint rfl
    have hrun := hrun.ask (e := .threadName) rfl none trivial
    have hrun := hrun.ask (e := .now) rfl Instant.epoch trivial
    have hrun := hrun.ask (e := .ticket) rfl 0 trivial
    exact hrun.ask rfl () trivial
  have hproc : track.proc (Peers.pair.peer true) =
      .ask .now fun now => .ask (.call (.get Peers.pair.users handed)) fun answer =>
        weigh (Peers.pair.peer true).tracker handed ""
          (fun written => (conclude handed written).bind fun result => .done (some result)) now
          (heardSighting answer) := by
    change Proc.bind (Job.proc (Peers.pair.peer true).tracker (.track comeback {})) _ = _
    rw [proc_track cookieValues_comeback, Proc.bind_assoc, ping_bind]
    rfl
  have hback : Runs Peers.pair begun (minted.moved 1
      ⟨true, track, .done (some (.tracked .refreshed))⟩ stored begun.standing) := by
    have hrun := hmint.start (n := 1) true track rfl
    rw [hproc] at hrun
    have hrun := hrun.ask rfl Instant.epoch trivial
    have hrun := hrun.call rfl .get
    exact hrun.call rfl .put
  have hstored : stored Peers.pair.users handed ≠ none := by
    unfold stored
    rw [Contents.assign_self]
    exact fun h => nomatch h
  exact ⟨_, hback, hstored,
    ((writes_stay_owned hback).2 fun _ => rfl).2 0 _ handed rfl rfl hstored⟩

end Ownership
end Roster
