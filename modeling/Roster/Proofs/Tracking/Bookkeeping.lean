import Roster.Proofs.Registry.InMemory
import Roster.Proofs.Tracking.Book
import Roster.Proofs.VirtualTime.World

/-!
# Trackers and their book

Lookups remove expired sightings, and nobody can tell.  Trackers that take turns over one store
answer as if they kept a book of the last sighting of every token and never struck anything out.

The store and the book differ in sightings that were removed, and those are expired for as long as
the clock does not go back.  Spans that begin or end in a leap second do not grow with the clock, so
the clock must not show one.
-/

namespace Roster
namespace Bookkeeping

open Tracking

/-!
# Trackers over a store
-/

structure Clocked (ρ : Type) extends VirtualTime.Surroundings ρ where
  clock : Nat → Instant
  now_eq : forall w, answer .now w = (clock w.now, w.rest)

namespace Clocked

def plain (clock : Nat → Instant) : Clocked Unit where
  answer
    | .now, w => (clock w.now, w.rest)
    | e, w => (e.plain, w.rest)
  clock := clock
  now_eq := fun _ => rfl

variable {ρ : Type} (S : Clocked ρ)

def turn {ι : Type} (T : ι → Tracker) :
    Turn ι → VirtualTime.World ρ → Option Reply × VirtualTime.World ρ
  | .serve i job, w =>
      let ended := (job.proc (T i)).complete S.around {} w
      (some (replyOfResult ended.1), ended.2.2)
  | .switch available, w => (none, { w with store := { w.store with available } })
  | .pass time, w => (none, w.later time)

end Clocked

/-- Trackers that keep their sightings in one region, and take the same time for too long. -/
structure Alike {ι : Type} (T : ι → Tracker) (region : String) (window : Int) : Prop where
  region_eq : forall i, (T i).users.name = region
  window_eq : forall i, (T i).window = window
  fits : forall i, Stored.Fits (T i).id.text

def Fitting (t : Tracker) : Job → Prop
  | .lookup _ => True
  | .track request _ =>
      Stored.Fits (request.user.getD "") ∧
        forall token, token ∈ request.cookieValues t.cookieName -> Stored.Fits token

/-!
# The store beside the book
-/

/-- The entries of the book can be stored, and were not made in a leap second. -/
structure Legible (book : Book) : Prop where
  fits : forall token s, book token = some s ->
    Stored.Fits s.token ∧ Stored.Fits s.user ∧ Stored.Fits s.owner
  leap : forall token s, book token = some s -> s.refreshedAt.isLeapSecond = false

structure Mirrors (contents : Contents) (region : String) (window : Int) (now : Instant)
    (book : Book) : Prop where
  legible : Legible book
  entry : forall token, exists current, book.Leaves now window token current ∧
    contents region token = current.map Sighting.encode

structure Records (contents : Contents) (region : String) (book : Book) : Prop where
  legible : Legible book
  entry : forall token, contents region token = (book token).map Sighting.encode

theorem Records.mirrors {contents : Contents} {region : String} {book : Book}
    (h : Records contents region book) (window : Int) (now : Instant) :
    Mirrors contents region window now book where
  legible := h.legible
  entry := fun token => ⟨book token, .kept rfl, h.entry token⟩

structure Agrees {ρ : Type} (S : Clocked ρ) (region : String) (window : Int)
    (w : VirtualTime.World ρ) (d : Diary) : Prop where
  time : w.now = d.time
  available : w.store.available = d.available
  timeToLive : w.store.timeToLive = none
  mirrors : Mirrors w.store.contents region window (S.clock d.time) d.book

namespace Mirrors

variable {contents : Contents} {region : String} {window : Int} {now : Instant} {book : Book}

theorem heard (h : Mirrors contents region window now book) (token : String) :
    exists current, heardSighting (.ok (contents region token)) = .ok current ∧
      book.Leaves now window token current := by
  rcases h.entry token with ⟨current, hleaves, hentry⟩
  refine ⟨current, ?_, hleaves⟩
  rw [hentry]
  cases current with
  | none => rfl
  | some s =>
      rcases h.legible.fits token s hleaves.eq_of_some with ⟨htoken, huser, howner⟩
      have hs : s.Legible := ⟨⟨htoken, huser, howner⟩,
        Instant.hasText_of_not_leap (h.legible.leap token s hleaves.eq_of_some)⟩
      rw [heardSighting_eq_some, Option.map_some, Option.bind_some, hs.reads.exact]
      rfl

theorem later (h : Mirrors contents region window now book) {later : Instant} (hle : now ≤ later)
    (hnow : now.isLeapSecond = false) (hlater : later.isLeapSecond = false) :
    Mirrors contents region window later book where
  legible := h.legible
  entry := by
    intro token
    rcases h.entry token with ⟨current, hleaves, hentry⟩
    refine ⟨current, ?_, hentry⟩
    cases hleaves with
    | kept hcurrent => exact .kept hcurrent
    | @removed s hs hexpired =>
        exact .removed hs
          (Sighting.isExpired_mono hle hnow hlater (h.legible.leap token s hs) hexpired)

theorem evict (h : Mirrors contents region window now book) {token : String} {s : Sighting}
    (hs : book token = some s) (hexpired : s.isExpired now window = true) :
    Mirrors (contents.assign region token none) region window now book where
  legible := h.legible
  entry := by
    intro k
    by_cases hk : k = token
    · rw [hk, Contents.assign_self]
      exact ⟨none, .removed hs hexpired, rfl⟩
    · rw [Contents.assign_of_ne _ _ hk]
      exact h.entry k

theorem write (h : Mirrors contents region window now book) {t : Tracker} {token user : String}
    (htoken : Stored.Fits token) (huser : Stored.Fits user) (howner : Stored.Fits t.id.text)
    (hnow : now.isLeapSecond = false) :
    Mirrors (contents.assign region token (some (written t token user now).encode)) region window now
      (Function.update book token (some (written t token user now))) where
  legible := by
    constructor
    · intro k s hs
      by_cases hk : k = token
      · rw [hk, Function.update_self] at hs
        cases hs
        exact ⟨htoken, huser, howner⟩
      · rw [Function.update_of_ne hk] at hs
        exact h.legible.fits k s hs
    · intro k s hs
      by_cases hk : k = token
      · rw [hk, Function.update_self] at hs
        cases hs
        exact hnow
      · rw [Function.update_of_ne hk] at hs
        exact h.legible.leap k s hs
  entry := by
    intro k
    by_cases hk : k = token
    · rw [hk, Contents.assign_self]
      have hbook := Function.update_self token (some (written t token user now)) book
      exact ⟨some (written t token user now), .kept hbook.symm, rfl⟩
    · rw [Contents.assign_of_ne _ _ hk]
      rcases h.entry k with ⟨current, hleaves, hentry⟩
      exact ⟨current, hleaves.of_eq (Function.update_of_ne hk ..), hentry⟩

end Mirrors

/-!
# Single calls
-/

section

variable {α ρ : Type} {S : Clocked ρ} {region : String} {window : Int} {w : VirtualTime.World ρ}
  {d : Diary} {σ : Standing}

theorem complete_call {c : Call} {f : (Effect.call c).Answer → Proc α}
    {answer : Except RegistryError c.Answer} {store : Store}
    (hanswer : w.store.answer w.now c = (answer, store)) :
    (Proc.ask (.call c) f).complete S.around σ w =
      (f answer).complete S.around σ { w with store } := by
  change (f (w.store.answer w.now c).1).complete S.around σ
    { w with store := (w.store.answer w.now c).2 } = _
  rw [hanswer]

theorem complete_now {next : Instant → Proc α} :
    (Proc.ask .now next).complete S.around σ w = (next (S.clock w.now)).complete S.around σ w := by
  change (next (S.answer .now w).1).complete S.around σ { w with rest := (S.answer .now w).2 } = _
  rw [S.now_eq]

namespace Agrees

theorem stored (h : Agrees S region window w d) {store : Store} {book : Book}
    (havailable : store.available = w.store.available) (httl : store.timeToLive = none)
    (hmirrors : Mirrors store.contents region window (S.clock d.time) book) :
    Agrees S region window { w with store } { d with book } :=
  ⟨h.time, havailable.trans h.available, httl, hmirrors⟩

theorem same (h : Agrees S region window w d) (events : List Event) (rest : ρ) :
    Agrees S region window { w with events, rest } d :=
  ⟨h.time, h.available, h.timeToLive, h.mirrors⟩

theorem refused (h : Agrees S region window w d) (hd : d.available = false) (c : Call) :
    w.store.answer w.now c = (.error (.unavailable c.region Store.offline), w.store) :=
  Store.answer_of_offline (h.available.trans hd) w.now c

end Agrees

/-!
# Lookups
-/

variable {t : Tracker} {token : String}

theorem complete_get (havailable : w.store.available = true)
    (httl : w.store.timeToLive = none) (f : (Effect.call (.get region token)).Answer → Proc α) :
    exists store, (Proc.ask (.call (.get region token)) f).complete S.around σ w =
        (f (.ok (w.store.contents region token))).complete S.around σ { w with store } ∧
      store.available = true ∧ store.timeToLive = none ∧ store.contents = w.store.contents := by
  rcases Store.answers_of_available havailable httl w.now (.get region token) with
    ⟨value, store, hanswer, havailable', httl', hcall⟩
  rcases hcall.get_ok with ⟨rfl, hcontents⟩
  exact ⟨store, complete_call hanswer, havailable', httl', hcontents⟩

theorem complete_lookup_of_none (havailable : w.store.available = true)
    (httl : w.store.timeToLive = none)
    (hheard : heardSighting (.ok (w.store.contents t.users.name token)) = .ok none) :
    exists store, ((Job.lookup token).proc t).complete S.around σ w =
        (.found none, σ, { w with store }) ∧
      store.available = true ∧ store.timeToLive = none ∧ store.contents = w.store.contents := by
  rw [proc_lookup]
  rcases complete_get (S := S) (σ := σ) havailable httl fun answer =>
    heed t token (heardSighting answer) with ⟨store, hget, hkeeps⟩
  rw [hheard] at hget
  exact ⟨store, hget, hkeeps⟩

theorem complete_lookup_of_current (havailable : w.store.available = true)
    (httl : w.store.timeToLive = none) {s : Sighting}
    (hheard : heardSighting (.ok (w.store.contents t.users.name token)) = .ok (some s))
    (hcurrent : s.isExpired (S.clock w.now) t.window = false) :
    exists store, ((Job.lookup token).proc t).complete S.around σ w =
        (.found (some s), σ, { w with store }) ∧
      store.available = true ∧ store.timeToLive = none ∧ store.contents = w.store.contents := by
  rw [proc_lookup]
  rcases complete_get (S := S) (σ := σ) havailable httl fun answer =>
    heed t token (heardSighting answer) with ⟨store, hget, hkeeps⟩
  rw [hheard] at hget
  dsimp only [heed, judge] at hget
  rw [complete_now, hcurrent] at hget
  exact ⟨store, hget, hkeeps⟩

theorem complete_lookup_of_expired (havailable : w.store.available = true)
    (httl : w.store.timeToLive = none) {s : Sighting}
    (hheard : heardSighting (.ok (w.store.contents t.users.name token)) = .ok (some s))
    (hexpired : s.isExpired (S.clock w.now) t.window = true) :
    exists store, ((Job.lookup token).proc t).complete S.around σ w =
        (.found none, σ, { w with store }) ∧
      store.available = true ∧ store.timeToLive = none ∧
      store.contents = w.store.contents.assign t.users.name token none := by
  rw [proc_lookup]
  rcases complete_get (S := S) (σ := σ) havailable httl fun answer =>
    heed t token (heardSighting answer) with ⟨store, hget, havailable', httl', hcontents⟩
  rw [hheard] at hget
  dsimp only [heed, judge] at hget
  rw [complete_now, hexpired, if_pos rfl] at hget
  rcases Store.answers_of_available havailable' httl' w.now (.remove t.users.name token) with
    ⟨value, store', hanswer, havailable'', httl'', hcall⟩
  rcases hcall.remove_ok with ⟨rfl, hremoved⟩
  rw [hcontents] at hanswer hremoved
  unfold evict at hget
  rw [complete_call (w := { w with store }) hanswer] at hget
  dsimp only at hget
  rw [hheard] at hget
  exact ⟨store', hget, havailable'', httl'', hremoved⟩

theorem complete_lookup (h : Agrees S t.users.name t.window w d) (hd : d.available = true)
    (token : String) :
    exists w', ((Job.lookup token).proc t).complete S.around σ w =
        (.found (d.book.find (S.clock d.time) t.window token), σ, w') ∧
      Agrees S t.users.name t.window w' d := by
  have havailable : w.store.available = true := h.available.trans hd
  rcases h.mirrors.heard token with ⟨current, hheard, hleaves⟩
  cases current with
  | none =>
      rcases complete_lookup_of_none (S := S) (σ := σ) havailable h.timeToLive hheard with
        ⟨store, hend, havailable', httl, hcontents⟩
      rw [hleaves.find_eq_none]
      refine ⟨_, hend, h.stored (havailable'.trans havailable.symm) httl ?_⟩
      rw [hcontents]
      exact h.mirrors
  | some s =>
      have hs := hleaves.eq_of_some
      cases hexpired : s.isExpired (S.clock d.time) t.window with
      | true =>
          rcases complete_lookup_of_expired (S := S) (σ := σ) havailable h.timeToLive hheard
            (by rw [h.time]; exact hexpired) with ⟨store, hend, havailable', httl, hcontents⟩
          rw [Book.find_of_expired hs hexpired]
          refine ⟨_, hend, h.stored (havailable'.trans havailable.symm) httl ?_⟩
          rw [hcontents]
          exact h.mirrors.evict hs hexpired
      | false =>
          rcases complete_lookup_of_current (S := S) (σ := σ) havailable h.timeToLive hheard
            (by rw [h.time]; exact hexpired) with ⟨store, hend, havailable', httl, hcontents⟩
          rw [Book.find_of_current hs hexpired]
          refine ⟨_, hend, h.stored (havailable'.trans havailable.symm) httl ?_⟩
          rw [hcontents]
          exact h.mirrors

theorem complete_lookup_offline (h : Agrees S t.users.name t.window w d)
    (hd : d.available = false) (token : String) :
    exists w', ((Job.lookup token).proc t).complete S.around σ w = (.found none, σ, w') ∧
      Agrees S t.users.name t.window w' d := by
  rw [proc_lookup, complete_call (h.refused hd _)]
  exact ⟨_, rfl, h.same _ _⟩

/-!
# Pings
-/

variable {user : String}

theorem complete_ping (h : Agrees S t.users.name t.window w d) (hd : d.available = true)
    (htoken : Stored.Fits token) (huser : Stored.Fits user) (howner : Stored.Fits t.id.text)
    (hleap : (S.clock d.time).isLeapSecond = false) (f : Except RegistryError Bool → Proc α) :
    exists w', ((t.ping token user).bind f).complete S.around σ w =
        (f (.ok (d.book.lacks user (S.clock d.time) t.window token))).complete S.around σ w' ∧
      Agrees S t.users.name t.window w'
        { d with book := d.book.mark t user (S.clock d.time) [token] } := by
  have hclock : S.clock w.now = S.clock d.time := congrArg S.clock h.time
  have havailable : w.store.available = true := h.available.trans hd
  rw [ping_bind, complete_now, hclock]
  rcases complete_get (S := S) (σ := σ) havailable h.timeToLive
    fun answer : (Effect.call (.get t.users.name token)).Answer =>
      weigh t token user f (S.clock d.time) (heardSighting answer) with
    ⟨store, hget, havailable₁, httl₁, hcontents₁⟩
  rcases h.mirrors.heard token with ⟨current, hheard, hleaves⟩
  rw [hget, hheard]
  dsimp only [weigh]
  rw [hleaves.needsWrite_eq]
  cases hlacks : d.book.lacks user (S.clock d.time) t.window token with
  | false =>
      refine ⟨{ w with store }, rfl, ?_⟩
      rw [Book.mark_singleton_of_not_lacks hlacks]
      refine h.stored (havailable₁.trans havailable.symm) httl₁ ?_
      rw [hcontents₁]
      exact h.mirrors
  | true =>
      rw [if_pos rfl]
      rcases Store.answers_of_available havailable₁ httl₁ w.now (.put t.users.name token
        (written t token user (S.clock d.time)).encode) with
        ⟨previous, store', hanswer, havailable₂, httl₂, hcall⟩
      rcases hcall.put_ok with ⟨rfl, hcontents₂⟩
      rw [hcontents₁] at hanswer hcontents₂
      refine ⟨{ w with store := store' }, (complete_call (w := { w with store }) hanswer).trans ?_,
        ?_⟩
      · rw [hheard]
      · rw [Book.mark_singleton_of_lacks hlacks]
        refine h.stored (havailable₂.trans havailable.symm) httl₂ ?_
        rw [hcontents₂]
        exact h.mirrors.write htoken huser howner hleap

theorem complete_ping_offline (h : Agrees S t.users.name t.window w d) (hd : d.available = false)
    (token user : String) (f : Except RegistryError Bool → Proc α) :
    exists e, ((t.ping token user).bind f).complete S.around σ w =
      (f (.error e)).complete S.around σ w := by
  rw [ping_bind, complete_now, complete_call (h.refused hd _)]
  exact ⟨_, rfl⟩

/-!
# Requests
-/

def proceed (t : Tracker) (user : String) (outcome : Tracker.Outcome) (token : String)
    (rest : List String) : Except RegistryError Bool → Proc Tracker.Outcome
  | .ok written => t.pingAll user (Tracker.advance outcome written) rest
  | .error e =>
      .ask (.report (.token token (.updateFailed e))) fun _ => t.pingAll user outcome rest

theorem pingAll_cons (outcome : Tracker.Outcome) (rest : List String) :
    t.pingAll user outcome (token :: rest) =
      (t.ping token user).bind (proceed t user outcome token rest) := by
  refine congrArg (Proc.bind _) (funext fun written => ?_)
  cases written with
  | ok _ | error _ => rfl

theorem complete_pingAll {tokens : List String} (h : Agrees S t.users.name t.window w d)
    (hd : d.available = true) (htokens : forall token, token ∈ tokens -> Stored.Fits token)
    (huser : Stored.Fits user) (howner : Stored.Fits t.id.text)
    (hleap : (S.clock d.time).isLeapSecond = false) (outcome : Tracker.Outcome) :
    exists w', (t.pingAll user outcome tokens).complete S.around σ w =
        (tally outcome (d.book.lacks user (S.clock d.time) t.window) tokens, σ, w') ∧
      Agrees S t.users.name t.window w'
        { d with book := d.book.mark t user (S.clock d.time) tokens } := by
  induction tokens generalizing w d outcome with
  | nil =>
      refine ⟨w, rfl, ?_⟩
      rw [Book.mark_nil]
      exact h
  | cons token rest ih =>
      rw [pingAll_cons]
      rcases complete_ping (σ := σ) h hd (htokens token List.mem_cons_self) huser howner hleap
        (proceed t user outcome token rest) with ⟨w₁, hping, h₁⟩
      rcases ih h₁ hd (fun k hk => htokens k (List.mem_cons_of_mem token hk)) hleap
        (Tracker.advance outcome (d.book.lacks user (S.clock d.time) t.window token)) with
        ⟨w₂, hrest, h₂⟩
      rw [tally_mark] at hrest
      rw [Book.mark_mark] at h₂
      exact ⟨w₂, hping.trans hrest, h₂⟩

theorem complete_pingAll_offline (h : Agrees S t.users.name t.window w d)
    (hd : d.available = false) (user : String) (outcome : Tracker.Outcome) (tokens : List String) :
    exists w', (t.pingAll user outcome tokens).complete S.around σ w = (outcome, σ, w') ∧
      Agrees S t.users.name t.window w' d := by
  induction tokens generalizing w with
  | nil => exact ⟨w, rfl, h⟩
  | cons token rest ih =>
      rw [pingAll_cons]
      rcases complete_ping_offline (σ := σ) h hd token user (proceed t user outcome token rest) with
        ⟨e, hping⟩
      rcases ih (h.same (.token token (.updateFailed e) :: w.events) w.rest) with ⟨w', hrest, h'⟩
      exact ⟨w', hping.trans hrest, h'⟩

theorem proc_track_of_tokens {request : Web.Request} {response : Web.Response}
    {rest : List String} (hvalues : request.cookieValues t.cookieName = token :: rest) :
    (Job.track request response).proc t =
      (t.pingAll (request.user.getD "") .untracked (token :: rest)).bind fun outcome =>
        .done (.tracked outcome) := by
  dsimp only [Job.proc]
  unfold Tracker.track
  rw [hvalues]
  exact Proc.bind_assoc _ _ _

theorem complete_track (h : Agrees S t.users.name t.window w d) (howner : Stored.Fits t.id.text)
    (hleap : (S.clock d.time).isLeapSecond = false) {request : Web.Request}
    (response : Web.Response) (hfitting : Fitting t (.track request response)) :
    exists result w',
      ((Job.track request response).proc t).complete S.around σ w = (result, σ, w') ∧
        replyOfResult result = (d.track (S.clock d.time) t request response).1 ∧
        Agrees S t.users.name t.window w' (d.track (S.clock d.time) t request response).2 := by
  rcases hfitting with ⟨huser, htokens⟩
  unfold Diary.track
  cases hvalues : request.cookieValues t.cookieName with
  | nil =>
      dsimp only [Job.proc]
      unfold Tracker.track
      rw [hvalues]
      dsimp only
      by_cases hcommitted : response.committed = true
      · rw [if_pos hcommitted, if_pos hcommitted]
        exact ⟨_, w, rfl, rfl, h⟩
      · rw [if_neg hcommitted, if_neg hcommitted]
        -- Minting asks for the thread and a ticket and reports the token, and makes no call.
        exact ⟨_, _, rfl, rfl, h.same _ _⟩
  | cons token rest =>
      rw [hvalues] at htokens
      rw [proc_track_of_tokens hvalues, Proc.complete_bind]
      dsimp only
      cases hd : d.available with
      | true =>
          rcases complete_pingAll (σ := σ) h hd htokens huser howner hleap .untracked with
            ⟨w', hend, h'⟩
          rw [hd] at h'
          rw [hend, if_pos rfl]
          refine ⟨_, w', rfl, ?_, h'⟩
          unfold tally
          rw [if_neg (List.cons_ne_nil token rest)]
          exact apply_ite replyOfOutcome _ _ _
      | false =>
          rcases complete_pingAll_offline (σ := σ) h hd (request.user.getD "") .untracked
            (token :: rest) with ⟨w', hend, h'⟩
          rw [hend]
          exact ⟨_, w', rfl, rfl, h'⟩

theorem complete_job (h : Agrees S t.users.name t.window w d) (howner : Stored.Fits t.id.text)
    (hleap : (S.clock d.time).isLeapSecond = false) {job : Job} (hfitting : Fitting t job) :
    exists result w', (job.proc t).complete S.around σ w = (result, σ, w') ∧
      replyOfResult result = (d.serve (S.clock d.time) t job).1 ∧
      Agrees S t.users.name t.window w' (d.serve (S.clock d.time) t job).2 := by
  cases job with
  | track request response => exact complete_track h howner hleap response hfitting
  | lookup token =>
      dsimp only [Diary.serve, Diary.lookup]
      cases hd : d.available with
      | true =>
          rcases complete_lookup (σ := σ) h hd token with ⟨w', hend, h'⟩
          exact ⟨_, w', hend, rfl, h'⟩
      | false =>
          rcases complete_lookup_offline (σ := σ) h hd token with ⟨w', hend, h'⟩
          exact ⟨_, w', hend, rfl, h'⟩

end

/-!
# Turns
-/

section

variable {ι ρ : Type} {S : Clocked ρ} {T : ι → Tracker} {region : String} {window : Int}

theorem agrees_turn (hT : Alike T region window)
    (hclock : forall s t, s ≤ t -> S.clock s ≤ S.clock t)
    (hleap : forall t, (S.clock t).isLeapSecond = false) {w : VirtualTime.World ρ} {d : Diary}
    (h : Agrees S region window w d) (turn : Turn ι)
    (hfitting : forall i job, turn = .serve i job -> Fitting (T i) job) :
    (S.turn T turn w).1 = (d.turn S.clock T turn).1 ∧
      Agrees S region window (S.turn T turn w).2 (d.turn S.clock T turn).2 := by
  cases turn with
  | serve i job =>
      rw [← hT.region_eq i, ← hT.window_eq i] at h ⊢
      rcases complete_job (σ := {}) h (hT.fits i) (hleap _) (hfitting i job rfl) with
        ⟨result, w', hend, hreply, hagrees⟩
      dsimp only [Clocked.turn, Diary.turn]
      rw [hend]
      exact ⟨congrArg some hreply, hagrees⟩
  | switch available => exact ⟨rfl, h.time, rfl, h.timeToLive, h.mirrors⟩
  | pass time =>
      refine ⟨rfl, congrArg (· + time) h.time, h.available, h.timeToLive, ?_⟩
      exact h.mirrors.later (hclock _ _ (Nat.le_add_right _ _)) (hleap _) (hleap _)

theorem replies_eq_of_agrees (hT : Alike T region window)
    (hclock : forall s t, s ≤ t -> S.clock s ≤ S.clock t)
    (hleap : forall t, (S.clock t).isLeapSecond = false) {w : VirtualTime.World ρ} {d : Diary}
    (h : Agrees S region window w d) {turns : List (Turn ι)}
    (hfitting : forall i job, Turn.serve i job ∈ turns -> Fitting (T i) job) :
    replies (S.turn T) turns w = replies (Diary.turn S.clock T) turns d := by
  induction turns generalizing w d with
  | nil => rfl
  | cons turn rest ih =>
      rcases agrees_turn hT hclock hleap h turn fun i job hturn =>
        hfitting i job (by rw [hturn]; exact List.mem_cons_self) with ⟨hreply, hagrees⟩
      have hrest := ih hagrees fun i job hjob => hfitting i job (List.mem_cons_of_mem turn hjob)
      exact congrArg₂ List.cons hreply hrest

/-- Nobody can tell that expired sightings are removed: trackers that take turns over one store
reply as if nothing ever was. -/
theorem evictions_unobservable (hT : Alike T region window)
    (hclock : forall s t, s ≤ t -> S.clock s ≤ S.clock t)
    (hleap : forall t, (S.clock t).isLeapSecond = false) {w : VirtualTime.World ρ} {book : Book}
    (httl : w.store.timeToLive = none) (hw : Records w.store.contents region book)
    (turns : List (Turn ι))
    (hfitting : forall i job, Turn.serve i job ∈ turns -> Fitting (T i) job) :
    replies (S.turn T) turns w =
      replies (Diary.turn S.clock T) turns ⟨book, w.now, w.store.available⟩ :=
  replies_eq_of_agrees hT hclock hleap ⟨rfl, rfl, httl, hw.mirrors window _⟩ hfitting

end

/-!
# Two trackers
-/

def both (second : Bool) : Tracker :=
  { lone with id := ⟨if second then "b" else "a"⟩ }

theorem both_alike : Alike both lone.users.name lone.window where
  region_eq := fun _ => rfl
  window_eq := fun _ => rfl
  fits := fun second => Stored.fits_of_size (by
    cases second with
    | false | true => decide)

theorem records_empty (region : String) : Records (Store.contents {}) region fun _ => none where
  legible := ⟨fun _ _ h => (nomatch h), fun _ _ h => nomatch h⟩
  entry := Store.contents_of_empty rfl region

def again : Web.Request := { cookies := [(lone.cookieName, stale.token)], user := stale.user }

theorem fitting_again (i : Bool) : Fitting (both i) (.track again {}) := by
  refine ⟨Stored.fits_of_size (by decide), fun token htoken => ?_⟩
  have hvalues : again.cookieValues lone.cookieName = [stale.token] := by decide
  change token ∈ again.cookieValues lone.cookieName at htoken
  rw [hvalues, List.mem_singleton] at htoken
  rw [htoken]
  exact Stored.fits_of_size (by decide)

/-- The user is seen by the first tracker and looked up by the second, a day passes, and both happen
again, the first time while the registry is offline. -/
def visits : List (Turn Bool) :=
  [.serve false (.track again {}), .serve true (.lookup stale.token), .pass 1, .switch false,
    .serve true (.lookup stale.token), .serve false (.track again {}), .switch true,
    .serve true (.lookup stale.token), .serve false (.track again {})]

def nextDay (time : Nat) : Instant :=
  if time = 0 then stale.refreshedAt else outset.clock

theorem both_evictions_unobservable :
    replies (Clocked.turn (.plain nextDay) both) visits ⟨0, {}, [], ()⟩ =
      [some .refreshed,
        some (.found (some (written (both false) stale.token stale.user (nextDay 0)))),
        none, none, some (.found none), some .untracked, none, some (.found none),
        some .refreshed] := by
  have hclock (s t : Nat) (hle : s ≤ t) : nextDay s ≤ nextDay t := by
    unfold nextDay
    by_cases ht : t = 0
    · rw [if_pos ht, if_pos (by omega)]
      exact Instant.le_refl _
    · rw [if_neg ht]
      split
      · decide
      · exact Instant.le_refl _
  have hleap (t : Nat) : (nextDay t).isLeapSecond = false := by
    unfold nextDay
    split
    · rfl
    · rfl
  refine (evictions_unobservable both_alike hclock hleap rfl (records_empty _) visits ?_).trans
    (by decide)
  intro i job hjob
  simp only [visits, List.mem_cons, Turn.serve.injEq, reduceCtorEq, List.not_mem_nil, false_or,
    or_false] at hjob
  rcases hjob with ⟨rfl, rfl⟩ | ⟨rfl, rfl⟩ | ⟨rfl, rfl⟩ | ⟨rfl, rfl⟩ | ⟨rfl, rfl⟩ | ⟨rfl, rfl⟩
  exacts [fitting_again _, trivial, trivial, fitting_again _, trivial, fitting_again _]

/-!
# A leap second
-/

def halfPastEleven : Instant :=
  { Instant.epoch with
    day := 17166
    second := 84600
    firstDay_le := by decide
    le_lastDay := by decide
    second_lt := by decide }

def leapSecond : Instant where
  day := 17166
  second := 86399
  nano := 1500000000
  firstDay_le := by decide
  le_lastDay := by decide
  second_lt := by decide
  nano_lt := by decide

def newYear : Instant :=
  { Instant.epoch with
    day := 17167
    firstDay_le := by decide
    le_lastDay := by decide }

def yearsEnd : Nat → Instant
  | 0 => halfPastEleven
  | 1 => leapSecond
  | _ => newYear

theorem yearsEnd_le (s t : Nat) (h : s ≤ t) : yearsEnd s ≤ yearsEnd t := by
  match s, t with
  | 0, 0 | 1, 1 | _ + 2, _ + 2 => exact Instant.le_refl _
  | 0, 1 => exact (by decide : halfPastEleven ≤ leapSecond)
  | 0, _ + 2 => exact (by decide : halfPastEleven ≤ newYear)
  | 1, _ + 2 => exact (by decide : leapSecond ≤ newYear)
  | 1, 0 | _ + 2, 0 | _ + 2, 1 => omega

/-- The user is seen, and looked up in the leap second and after it. -/
def celebration : List (Turn Bool) :=
  [.serve false (.track again {}), .pass 1, .serve true (.lookup stale.token), .pass 1,
    .serve true (.lookup stale.token)]

/-- A lookup in a leap second may remove a sighting that is not too old any more once the leap second
is over. -/
theorem leap_second_observable : ¬ forall (S : Clocked Unit) (T : Bool → Tracker)
    (region : String) (window : Int), Alike T region window ->
      (forall s t, s ≤ t -> S.clock s ≤ S.clock t) -> forall (w : VirtualTime.World Unit) (book : Book),
        w.store.timeToLive = none -> Records w.store.contents region book ->
          forall turns, (forall i job, Turn.serve i job ∈ turns -> Fitting (T i) job) ->
            replies (S.turn T) turns w =
              replies (Diary.turn S.clock T) turns ⟨book, w.now, w.store.available⟩ := by
  intro hclaim
  let S : Clocked Unit := .plain yearsEnd
  let w : VirtualTime.World Unit := ⟨0, {}, [], ()⟩
  let alice : Sighting := written (both false) stale.token stale.user (yearsEnd 0)
  have hreplies := hclaim S both _ _ both_alike yearsEnd_le w _ rfl (records_empty _) celebration
    (by
      intro i job hjob
      simp only [celebration, List.mem_cons, Turn.serve.injEq, reduceCtorEq, List.not_mem_nil,
        false_or, or_false] at hjob
      rcases hjob with ⟨rfl, rfl⟩ | ⟨rfl, rfl⟩ | ⟨rfl, rfl⟩
      exacts [fitting_again _, trivial, trivial])
  have hbook : replies (Diary.turn yearsEnd both) celebration ⟨fun _ => none, 0, true⟩ =
      [some .refreshed, none, some (.found none), none, some (.found (some alice))] := by decide
  rcases complete_job (S := S) (w := w) (d := ⟨fun _ => none, 0, true⟩) (σ := {}) (t := both false)
    ⟨rfl, rfl, rfl, (records_empty _).mirrors _ _⟩ (both_alike.fits false) rfl (fitting_again false)
    with ⟨result, w₁, hseen, -, h₁⟩
  rcases h₁.mirrors.heard stale.token with ⟨current, hheard, hleaves⟩
  have halice : current = some alice := by
    cases hleaves with
    | kept hcurrent => exact hcurrent
    | removed hs hexpired =>
        cases hs
        exact absurd hexpired (by decide)
  rw [halice] at hheard
  have hexpired : alice.isExpired (S.clock (w₁.now + 1)) lone.window = true := by
    rw [h₁.time]
    decide
  rcases complete_lookup_of_expired (S := S) (w := w₁.later 1) (σ := {})
    (t := both true) h₁.available h₁.timeToLive hheard hexpired with
    ⟨store, hremoved, havailable, httl, hcontents⟩
  have hgone : heardSighting (.ok (store.contents lone.users.name stale.token)) = .ok none := by
    rw [hcontents]
    exact congrArg (fun value => heardSighting (.ok value)) (Contents.assign_self _ _ _ _)
  rcases complete_lookup_of_none (S := S) (w := { w₁.later 1 with store }.later 1)
    (σ := {}) (t := both true) havailable httl hgone with ⟨store', hmissing, -⟩
  have hlast : (replies (S.turn both) celebration w)[4]? = some (some (.found none)) := by
    dsimp only [celebration, replies, Clocked.turn]
    rw [hseen]
    dsimp only
    rw [hremoved]
    dsimp only
    rw [hmissing]
    rfl
  rw [hreplies] at hlast
  have hbooked := congrArg (·[4]?) hbook
  cases hlast.symm.trans hbooked

end Bookkeeping
end Roster
