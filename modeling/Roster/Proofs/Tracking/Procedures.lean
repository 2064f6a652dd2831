import Roster.Proofs.Effects
import Roster.Tracker

/-!
# Procedures of trackers

What trackers ask the registry for, and in which order: a lookup gets its token and may remove it,
tracking gets every token of its request and may put it.
-/

namespace Roster
namespace Tracking

inductive Job where
  | lookup (token : String)
  | track (request : Web.Request) (response : Web.Response)

inductive Result where
  | found (sighting : Option Sighting)
  | tracked (outcome : Tracker.Outcome)

def Job.proc (t : Tracker) : Job → Proc Result
  | lookup token => (t.lookup token).bind fun sighting => .done (.found sighting)
  | track request response =>
      (t.track request response).bind fun result => .done (.tracked result.1)

def heardSighting (answer : Except RegistryError (Option Bytes)) :
    Except RegistryError (Option Sighting) :=
  answer.bind Region.decodeOption

section

variable {α : Type} (t : Tracker) (token : String)
  (f : Except RegistryError (Option Sighting) → Proc α)

theorem get_bind : (t.users.get token).bind f =
    .ask (.call (.get t.users.name token)) fun answer => f (heardSighting answer) :=
  Region.get_bind f

theorem put_bind (s : Sighting) : (t.users.put token s).bind f =
    .ask (.call (.put t.users.name token s.encode)) fun answer => f (heardSighting answer) :=
  Region.put_bind s f

theorem remove_bind : (t.users.remove token).bind f =
    .ask (.call (.remove t.users.name token)) fun answer => f (heardSighting answer) :=
  Region.remove_bind f

end

/-!
# What tracking asks for
-/

section

variable {P : Effect → Prop} {t : Tracker} {user : String}

theorem always_mint (hlocal : forall e, (forall c, e ≠ .call c) -> P e) : t.mint.Always P :=
  ⟨hlocal _ fun _ h => (nomatch h), fun _ => ⟨hlocal _ fun _ h => (nomatch h), fun _ =>
    ⟨hlocal _ fun _ h => (nomatch h), fun _ => trivial⟩⟩⟩

theorem always_ping (hroutine : forall e, e.isRoutine = true -> P e) {token : String}
    (hget : P (.call (.get t.users.name token)))
    (hput : forall bytes, P (.call (.put t.users.name token bytes))) :
    (t.ping token user).Always P := by
  refine ⟨hroutine _ rfl, fun now => ?_⟩
  refine (Region.always_get hget).bind fun current => ?_
  cases current with
  | error e => exact trivial
  | ok current =>
      refine Proc.Always.ite ((Region.always_put (hput _)).bind fun previous => ?_) trivial
      cases previous with
      | error e => exact trivial
      | ok before => exact trivial

theorem always_pingAll (hroutine : forall e, e.isRoutine = true -> P e)
    (outcome : Tracker.Outcome) {tokens : List String}
    (htokens : forall token, token ∈ tokens -> P (.call (.get t.users.name token)) ∧
      forall bytes, P (.call (.put t.users.name token bytes))) :
    (t.pingAll user outcome tokens).Always P := by
  induction tokens generalizing outcome with
  | nil => exact trivial
  | cons token rest ih =>
      rcases htokens token List.mem_cons_self with ⟨hget, hput⟩
      have hrest (outcome : Tracker.Outcome) :=
        ih outcome fun token htoken => htokens token (List.mem_cons_of_mem _ htoken)
      refine (always_ping hroutine hget hput).bind fun written => ?_
      cases written with
      | error e => exact ⟨hroutine _ rfl, fun _ => hrest outcome⟩
      | ok written => exact hrest _

theorem always_track_of_tokens (hroutine : forall e, e.isRoutine = true -> P e)
    {request : Web.Request} {response : Web.Response}
    (hvalues : request.cookieValues t.cookieName ≠ [])
    (htokens : forall token, token ∈ request.cookieValues t.cookieName ->
      P (.call (.get t.users.name token)) ∧
        forall bytes, P (.call (.put t.users.name token bytes))) :
    (t.track request response).Always P := by
  unfold Tracker.track
  cases h : request.cookieValues t.cookieName with
  | nil => exact absurd h hvalues
  | cons token rest =>
      rw [h] at htokens
      exact (always_pingAll hroutine .untracked htokens).bind fun outcome => trivial

theorem always_track (hlocal : forall e, (forall c, e ≠ .call c) -> P e) {request : Web.Request}
    {response : Web.Response}
    (htokens : forall token, token ∈ request.cookieValues t.cookieName ->
      P (.call (.get t.users.name token)) ∧
        forall bytes, P (.call (.put t.users.name token bytes))) :
    (t.track request response).Always P := by
  by_cases hvalues : request.cookieValues t.cookieName = []
  · unfold Tracker.track
    rw [hvalues]
    dsimp only
    split
    · exact trivial
    · exact (always_mint hlocal).bind fun token =>
        ⟨hlocal _ fun _ h => (nomatch h), fun _ => trivial⟩
  · exact always_track_of_tokens (fun e he => hlocal e (Effect.ne_call_of_isRoutine he)) hvalues
      htokens

theorem always_lookup (hroutine : forall e, e.isRoutine = true -> P e) {token : String}
    (hget : P (.call (.get t.users.name token)))
    (hremove : P (.call (.remove t.users.name token))) : (t.lookup token).Always P := by
  refine (Region.always_get hget).bind fun found => ?_
  cases found with
  | error e => exact ⟨hroutine _ rfl, fun _ => trivial⟩
  | ok found =>
      cases found with
      | none => exact trivial
      | some s =>
          refine ⟨hroutine _ rfl, fun now => ?_⟩
          refine Proc.Always.ite ((Region.always_remove hremove).bind fun removed => ?_) trivial
          cases removed with
          | error e => exact ⟨hroutine _ rfl, fun _ => trivial⟩
          | ok before => exact trivial

/-!
# What tracking comes to
-/

theorem pingAll_unminted (tokens : List String) {outcome : Tracker.Outcome}
    (hold : forall token, outcome ≠ .minted token) :
    (t.pingAll user outcome tokens).Gives fun result => forall token, result ≠ .minted token := by
  induction tokens generalizing outcome with
  | nil => exact hold
  | cons token rest ih =>
      refine (Proc.gives_true _).bind fun written _ => ?_
      cases written with
      | error e => exact fun _ => ih hold
      | ok written =>
          apply ih
          intro minted
          unfold Tracker.advance
          split
          · exact fun heq => nomatch heq
          · split
            · exact fun heq => nomatch heq
            · exact hold minted

theorem track_unminted {request : Web.Request} (response : Web.Response)
    (h : request.cookieValues t.cookieName ≠ []) :
    (t.track request response).Gives fun result => forall token, result.1 ≠ .minted token := by
  unfold Tracker.track
  cases hvalues : request.cookieValues t.cookieName with
  | nil => exact absurd hvalues h
  | cons token rest =>
      have hold : forall token, Tracker.Outcome.untracked ≠ .minted token :=
        fun _ heq => nomatch heq
      refine (pingAll_unminted _ hold).bind ?_
      intro outcome houtcome
      exact houtcome

theorem proc_track_unminted {request : Web.Request} (response : Web.Response)
    (h : request.cookieValues t.cookieName ≠ []) :
    ((Job.track request response).proc t).Gives fun result =>
      forall token, result ≠ .tracked (.minted token) := by
  refine (track_unminted response h).bind ?_
  intro result hresult token heq
  cases result
  cases heq
  exact hresult token rfl

theorem proc_lookup_unminted (key : String) : ((Job.lookup key).proc t).Gives fun result =>
    forall token, result ≠ .tracked (.minted token) :=
  (Proc.gives_true _).bind fun _ _ _ heq => nomatch heq

end

/-!
# Lookups
-/

section

variable (t : Tracker) (token : String)

def evict : Proc Result :=
  .ask (.call (.remove t.users.name token)) fun answer =>
    match heardSighting answer with
    | .ok _ => .done (.found none)
    | .error e => .ask (.report (.token token (.evictionFailed e))) fun _ => .done (.found none)

def judge (s : Sighting) : Proc Result :=
  .ask .now fun now => if s.isExpired now t.window then evict t token else .done (.found (some s))

def heed : Except RegistryError (Option Sighting) → Proc Result
  | .error e => .ask (.report (.token token (.lookupFailed e))) fun _ => .done (.found none)
  | .ok none => .done (.found none)
  | .ok (some s) => judge t token s

theorem remove_bind_eq_evict :
    (t.users.remove token).bind (fun removed => Proc.bind (match removed with
      | .ok _ => .done none
      | .error e => do
          Proc.report (.token token (.evictionFailed e))
          return none) fun sighting => .done (.found sighting)) = evict t token := by
  rw [remove_bind]
  refine congrArg (Proc.ask _) (funext fun answer => ?_)
  cases heardSighting answer with
  | error e => rfl
  | ok before => rfl

theorem proc_lookup : (Job.lookup token).proc t =
    .ask (.call (.get t.users.name token)) fun answer => heed t token (heardSighting answer) := by
  change Proc.bind (Proc.bind (t.users.get token) _) _ = _
  rw [Proc.bind_assoc, get_bind]
  refine congrArg (Proc.ask _) (funext fun answer => ?_)
  cases heardSighting answer with
  | error e => rfl
  | ok value =>
      cases value with
      | none => rfl
      | some s =>
          refine congrArg (Proc.ask .now) (funext fun now => ?_)
          rw [← remove_bind_eq_evict, ← Proc.bind_assoc]
          exact apply_ite (Proc.bind · _) _ _ _

end

/-!
# Pings
-/

section

variable {α : Type} (t : Tracker) (token user : String) (f : Except RegistryError Bool → Proc α)

def needsWrite (current : Option Sighting) (user : String) (now : Instant) (window : Int) : Bool :=
  match current with
  | none => true
  | some s => s.needsRefresh user now window

/-- What a ping does with a sighting that has to be written anew. -/
def write (now : Instant) : Proc α :=
  .ask (.call (.put t.users.name token (Sighting.encode
      { token, user, owner := t.id.text, refreshedAt := now }))) fun answer =>
    match heardSighting answer with
    | .error e => f (.error e)
    | .ok _ => f (.ok true)

def weigh (now : Instant) : Except RegistryError (Option Sighting) → Proc α
  | .error e => f (.error e)
  | .ok current =>
      if needsWrite current user now t.window then write t token user f now else f (.ok false)

theorem put_bind_eq_write (now : Instant) :
    (t.users.put token { token, user, owner := t.id.text, refreshedAt := now }).bind
      (fun previous =>
      Proc.bind (match previous with
        | .error e => .done (.error e)
        | .ok _ => .done (.ok true)) f) = write t token user f now := by
  rw [put_bind]
  refine congrArg (Proc.ask _) (funext fun answer => ?_)
  cases heardSighting answer with
  | error e => rfl
  | ok before => rfl

theorem ping_bind : (t.ping token user).bind f = .ask .now fun now =>
    .ask (.call (.get t.users.name token)) fun answer =>
      weigh t token user f now (heardSighting answer) := by
  refine congrArg (Proc.ask .now) (funext fun now => ?_)
  change Proc.bind (Proc.bind (t.users.get token) _) _ = _
  rw [Proc.bind_assoc, get_bind]
  refine congrArg (Proc.ask _) (funext fun answer => ?_)
  cases heardSighting answer with
  | error e => rfl
  | ok current =>
      dsimp only [weigh]
      rw [← put_bind_eq_write, ← Proc.bind_assoc]
      exact apply_ite (Proc.bind · f) (needsWrite current user now t.window = true) _ _

end

def conclude (token : String) : Except RegistryError Bool → Proc Result
  | .ok written => .done (.tracked (Tracker.advance .untracked written))
  | .error e => .ask (.report (.token token (.updateFailed e))) fun _ => .done (.tracked .untracked)

theorem proc_track {t : Tracker} {request : Web.Request} {response : Web.Response} {token : String}
    (hvalues : request.cookieValues t.cookieName = [token]) :
    (Job.track request response).proc t =
      (t.ping token (request.user.getD "")).bind (conclude token) := by
  change Proc.bind (t.track request response) _ = _
  unfold Tracker.track
  rw [hvalues]
  change Proc.bind (Proc.bind (Proc.bind (t.ping token _) _) _) _ = _
  rw [Proc.bind_assoc, Proc.bind_assoc]
  refine congrArg (Proc.bind _) (funext fun written => ?_)
  cases written with
  | error e => rfl
  | ok written => rfl

end Tracking
end Roster
