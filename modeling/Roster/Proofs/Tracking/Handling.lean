import Roster.Proofs.Config
import Roster.Proofs.Tracking.Bookkeeping

/-!
# How the tokens of a request are handled

A request is tracked token by token, in order.  For each token the clock is read and the token is
fetched; unless its sighting is current, it is put anew.  Either call may fail, and then has no
effect; the failure is reported and the next token is handled.

The surroundings are arbitrary but for the registry, and everything that they are asked is
recorded with the answer, so that what a request comes to can be read off the record.
-/

namespace Roster

def Effect.outer : Effect → Bool
  | .look | .store _ => false
  | _ => true

namespace Tracking

open Bookkeeping

/-!
# Recorded surroundings
-/

section

variable {α ρ : Type} {around : (e : Effect) → ρ → e.Answer × ρ} {contents : ρ → Contents}
  {σ : Standing} {r r' : ρ} {log : List Asked}

def recorded (around : (e : Effect) → ρ → e.Answer × ρ) (e : Effect) (state : ρ × List Asked) :
    e.Answer × ρ × List Asked :=
  let reply := around e state.1
  (reply.1, reply.2, state.2 ++ [⟨e, reply.1⟩])

/-- Calls are answered by a registry with these contents, or fail, and nothing else changes them. -/
structure Serving (around : (e : Effect) → ρ → e.Answer × ρ) (contents : ρ → Contents) : Prop where
  call : forall c r,
    (contents r).Answers c (around (.call c) r).1 (contents (around (.call c) r).2)
  other : forall e r, (forall c, e ≠ .call c) -> contents (around e r).2 = contents r

theorem Serving.answers (h : Serving around contents) {c : Call}
    {answer : Except RegistryError c.Answer} (heq : around (.call c) r = (answer, r')) :
    (contents r).Answers c answer (contents r') := by
  have hcall := h.call c r
  rwa [heq] at hcall

theorem Serving.contents_eq (h : Serving around contents) {e : Effect} {answer : e.Answer}
    (heq : around e r = (answer, r')) (hcall : forall c, e ≠ .call c) :
    contents r' = contents r := by
  have hother := h.other e r hcall
  rwa [heq] at hother

theorem complete_recorded {e : Effect} {next : e.Answer → Proc α} {answer : e.Answer}
    (heq : around e r = (answer, r')) (houter : e.outer = true) :
    (Proc.ask e next).complete (recorded around) σ (r, log) =
      (next answer).complete (recorded around) σ (r', log ++ [⟨e, answer⟩]) := by
  have hanswer : answer = (around e r).1 := (congrArg Prod.fst heq).symm
  have hstate : r' = (around e r).2 := (congrArg Prod.snd heq).symm
  subst hanswer hstate
  cases e with
  | look | store σ' => cases houter
  | call c | pause time | now | readingPast previous | ticket | threadName | entropy
  | report event => rfl

end

/-!
# Handlings
-/

inductive Ending where
  | unread (e : RegistryError)
  | current (found : Bytes)
  | unwritten (found : Option Bytes) (e : RegistryError)
  | written (found previous : Option Bytes)

structure Handling where
  token : String
  now : Instant
  ending : Ending

namespace Handling

def failed (h : Handling) : Bool :=
  match h.ending with
  | .unread _ | .unwritten _ _ => true
  | .current _ | .written _ _ => false

def wrote (h : Handling) : Bool :=
  match h.ending with
  | .written _ _ => true
  | .unread _ | .current _ | .unwritten _ _ => false

def foundCurrent (h : Handling) : Bool :=
  match h.ending with
  | .current _ => true
  | .unread _ | .unwritten _ _ | .written _ _ => false

theorem failed_iff {h : Handling} :
    h.failed = true ↔ h.wrote = false ∧ h.foundCurrent = false := by
  rcases h with ⟨token, now, ending⟩
  cases ending with
  | unread | unwritten => exact ⟨fun _ => ⟨rfl, rfl⟩, fun _ => rfl⟩
  | current => exact ⟨nofun, fun h => nomatch h.2⟩
  | written => exact ⟨nofun, fun h => nomatch h.1⟩

def asked (t : Tracker) (user : String) (h : Handling) : List Asked :=
  let get : Call := .get t.users.name h.token
  let put : Call := .put t.users.name h.token (written t h.token user h.now).encode
  let failure (e : RegistryError) : Asked := ⟨.report (.token h.token (.updateFailed e)), ()⟩
  ⟨.now, h.now⟩ ::
    match h.ending with
    | .unread e => [⟨.call get, .error e⟩, failure e]
    | .current found => [⟨.call get, .ok (some found)⟩]
    | .unwritten found e => [⟨.call get, .ok found⟩, ⟨.call put, .error e⟩, failure e]
    | .written found previous => [⟨.call get, .ok found⟩, ⟨.call put, .ok previous⟩]

def advance (h : Handling) (outcome : Tracker.Outcome) : Tracker.Outcome :=
  match h.ending with
  | .unread _ | .unwritten _ _ => outcome
  | .current _ => Tracker.advance outcome false
  | .written _ _ => Tracker.advance outcome true

end Handling

/-- How a handling may end over these contents, and which contents it leaves. -/
inductive Takes (t : Tracker) (user : String) (c : Contents) : Handling → Contents → Prop where
  | unread {token now} (e : RegistryError) : Takes t user c ⟨token, now, .unread e⟩ c
  | current {token now found s} (hfound : c t.users.name token = some found)
      (hs : Sighting.decode found = .ok s) (hcurrent : s.needsRefresh user now t.window = false) :
      Takes t user c ⟨token, now, .current found⟩ c
  | unwritten {token now current} (e : RegistryError)
      (hheard : heardSighting (.ok (c t.users.name token)) = .ok current)
      (hstale : needsWrite current user now t.window = true) :
      Takes t user c ⟨token, now, .unwritten (c t.users.name token) e⟩ c
  | rewritten {token now current}
      (hheard : heardSighting (.ok (c t.users.name token)) = .ok current)
      (hstale : needsWrite current user now t.window = true) :
      Takes t user c ⟨token, now, .written (c t.users.name token) (c t.users.name token)⟩
        (c.assign t.users.name token (some (written t token user now).encode))

inductive Handled (t : Tracker) (user : String) : Contents → List Handling → Contents → Prop where
  | nil {c} : Handled t user c [] c
  | cons {c c₁ c' h handlings} (htakes : Takes t user c h c₁)
      (hrest : Handled t user c₁ handlings c') : Handled t user c (h :: handlings) c'

def Readable (c : Contents) (region : String) : Prop :=
  forall token bytes, c region token = some bytes -> exists s, Sighting.decode bytes = .ok s

section

variable {ρ : Type} {around : (e : Effect) → ρ → e.Answer × ρ} {contents : ρ → Contents}
  {σ : Standing} {r r' : ρ} {log : List Asked} {t : Tracker} {user token : String} {c c' : Contents}
  {h : Handling} {handlings : List Handling}

theorem Readable.heard (h : Readable c t.users.name) (token : String) :
    exists current, heardSighting (.ok (c t.users.name token)) = .ok current := by
  cases hbytes : c t.users.name token with
  | none => exact ⟨none, rfl⟩
  | some bytes =>
      rcases h token bytes hbytes with ⟨s, hs⟩
      refine ⟨some s, heardSighting_eq_some.mpr ?_⟩
      rw [Option.bind_some, hs]
      rfl

theorem exists_current {current : Option Sighting} {now : Instant}
    (hheard : heardSighting (.ok (c t.users.name token)) = .ok current)
    (hcurrent : needsWrite current user now t.window = false) :
    exists found s, c t.users.name token = some found ∧ Sighting.decode found = .ok s ∧
      s.needsRefresh user now t.window = false := by
  cases current with
  | none => cases hcurrent
  | some s =>
      have hfound := heardSighting_eq_some.mp hheard
      cases hbytes : c t.users.name token with
      | none =>
          rw [hbytes] at hfound
          cases hfound
      | some found =>
          rw [hbytes, Option.bind_some] at hfound
          cases hs : Sighting.decode found with
          | error fault =>
              rw [hs] at hfound
              cases hfound
          | ok s' =>
              rw [hs] at hfound
              cases hfound
              exact ⟨found, s, rfl, hs, hcurrent⟩

theorem complete_proceed_error (hserving : Serving around contents) (user : String)
    (outcome : Tracker.Outcome) (token : String) (rest : List String) (e : RegistryError)
    (log : List Asked) :
    exists r', contents r' = contents r ∧
      (proceed t user outcome token rest (.error e)).complete (recorded around) σ (r, log) =
        (t.pingAll user outcome rest).complete (recorded around) σ
          (r', log ++ [⟨.report (.token token (.updateFailed e)), ()⟩]) := by
  rcases hreport : around (.report (.token token (.updateFailed e))) r with ⟨⟨⟩, r'⟩
  exact ⟨r', hserving.contents_eq hreport nofun, complete_recorded hreport rfl⟩

theorem complete_write (hserving : Serving around contents) {current : Option Sighting}
    {now : Instant} (hheard : heardSighting (.ok (contents r t.users.name token)) = .ok current)
    (hstale : needsWrite current user now t.window = true) (outcome : Tracker.Outcome)
    (rest : List String) (log : List Asked) :
    exists (h : Handling) (r' : ρ), h.token = token ∧ Takes t user (contents r) h (contents r') ∧
      (write t token user (proceed t user outcome token rest) now).complete (recorded around) σ
          (r, log ++ [⟨.now, now⟩] ++
            [⟨.call (.get t.users.name token), .ok (contents r t.users.name token)⟩]) =
        (t.pingAll user (h.advance outcome) rest).complete (recorded around) σ
          (r', log ++ h.asked t user) := by
  rcases hput : around (.call (.put t.users.name token (written t token user now).encode)) r with
    ⟨answer, r₁⟩
  have hanswers := hserving.answers hput
  rw [show write t token user (proceed t user outcome token rest) now = .ask (.call
    (.put t.users.name token (written t token user now).encode)) _ from rfl,
    complete_recorded hput rfl]
  cases answer with
  | error e =>
      rcases complete_proceed_error (σ := σ) (t := t) (r := r₁) hserving user outcome token rest e
        (log ++ [⟨.now, now⟩] ++
          [⟨.call (.get t.users.name token), .ok (contents r t.users.name token)⟩] ++
          [⟨.call (.put t.users.name token (written t token user now).encode), .error e⟩]) with
        ⟨r₂, hr₂, hreported⟩
      refine ⟨⟨token, now, .unwritten (contents r t.users.name token) e⟩, r₂, rfl, ?_, ?_⟩
      · rw [hr₂, hanswers.eq_of_error]
        exact .unwritten e hheard hstale
      · refine hreported.trans ?_
        rw [List.append_assoc, List.append_assoc, List.append_assoc]
        rfl
  | ok previous =>
      rcases hanswers.put_ok with ⟨rfl, hcontents⟩
      refine ⟨⟨token, now, .written (contents r t.users.name token)
        (contents r t.users.name token)⟩, r₁, rfl, ?_, ?_⟩
      · rw [hcontents]
        exact .rewritten hheard hstale
      · rw [hheard, List.append_assoc, List.append_assoc]
        rfl

theorem complete_pingAll_cons (hserving : Serving around contents)
    (hreadable : Readable (contents r) t.users.name) (outcome : Tracker.Outcome) (token : String)
    (rest : List String) (log : List Asked) :
    exists (h : Handling) (r' : ρ), h.token = token ∧ Takes t user (contents r) h (contents r') ∧
      (t.pingAll user outcome (token :: rest)).complete (recorded around) σ (r, log) =
        (t.pingAll user (h.advance outcome) rest).complete (recorded around) σ
          (r', log ++ h.asked t user) := by
  rcases hnow : around .now r with ⟨now, r₁⟩
  have hsame : contents r₁ = contents r := hserving.contents_eq hnow nofun
  rcases hget : around (.call (.get t.users.name token)) r₁ with ⟨answer, r₂⟩
  have hanswers := hserving.answers hget
  rw [hsame] at hanswers
  rw [pingAll_cons, ping_bind, complete_recorded hnow rfl, complete_recorded hget rfl]
  cases answer with
  | error e =>
      rcases complete_proceed_error (σ := σ) (t := t) (r := r₂) hserving user outcome token rest e
        (log ++ [⟨.now, now⟩] ++ [⟨.call (.get t.users.name token), .error e⟩]) with
        ⟨r₃, hr₃, hreported⟩
      refine ⟨⟨token, now, .unread e⟩, r₃, rfl, ?_, ?_⟩
      · rw [hr₃, hanswers.eq_of_error]
        exact .unread e
      · refine hreported.trans ?_
        rw [List.append_assoc, List.append_assoc]
        rfl
  | ok value =>
      rcases hanswers.get_ok with ⟨rfl, hcontents⟩
      rcases hreadable.heard token with ⟨current, hheard⟩
      rw [hheard]
      dsimp only [weigh]
      cases hstale : needsWrite current user now t.window with
      | false =>
          rw [if_neg Bool.false_ne_true]
          rcases exists_current hheard hstale with ⟨found, s, hfound, hs, hcurrent⟩
          refine ⟨⟨token, now, .current found⟩, r₂, rfl, ?_, ?_⟩
          · rw [hcontents]
            exact .current hfound hs hcurrent
          · rw [hfound, List.append_assoc]
            rfl
      | true => 
          rw [if_pos rfl]
          rw [← hcontents] at hheard ⊢
          exact complete_write hserving hheard hstale outcome rest log

theorem Takes.of_failed (htakes : Takes t user c h c') (hfailed : h.failed = true) : c' = c := by
  cases htakes with
  | unread | unwritten => rfl
  | current | rewritten => cases hfailed

theorem Takes.entry (htakes : Takes t user c h c') (key : String) :
    (h.token = key ∧ h.wrote = true ∧
        c' t.users.name key = some (written t key user h.now).encode) ∨
      ((h.token = key -> h.wrote = false) ∧ c' t.users.name key = c t.users.name key) := by
  cases htakes with
  | unread | current | unwritten => exact Or.inr ⟨fun _ => rfl, rfl⟩
  | @rewritten token now current hheard hstale =>
      by_cases hkey : token = key
      · subst hkey
        exact Or.inl ⟨rfl, rfl, Contents.assign_self ..⟩
      · exact Or.inr ⟨fun h => absurd h hkey, Contents.assign_of_ne _ _ (Ne.symm hkey)⟩

theorem Takes.readable (htakes : Takes t user c h c') (hreadable : Readable c t.users.name)
    (hfits : forall now, (written t h.token user now).Fits) : Readable c' t.users.name := by
  intro key bytes hbytes
  rcases htakes.entry key with ⟨rfl, _, hentry⟩ | ⟨_, hentry⟩
  · cases hentry.symm.trans hbytes
    exact ⟨_, Sighting.decode_encode (hfits h.now)⟩
  · exact hreadable key bytes (hentry.symm.trans hbytes)

theorem complete_pingAll (hserving : Serving around contents) {tokens : List String}
    (hreadable : Readable (contents r) t.users.name)
    (hfits : forall token, token ∈ tokens -> forall now, (written t token user now).Fits)
    (outcome : Tracker.Outcome) (log : List Asked) :
    exists (handlings : List Handling) (r' : ρ), handlings.map (·.token) = tokens ∧
      Handled t user (contents r) handlings (contents r') ∧
      (t.pingAll user outcome tokens).complete (recorded around) σ (r, log) =
        (handlings.foldl (fun outcome h => h.advance outcome) outcome, σ, r',
          log ++ handlings.flatMap (·.asked t user)) := by
  induction tokens generalizing r log outcome with
  | nil => exact ⟨[], r, rfl, .nil, by rw [List.flatMap_nil, List.append_nil]; rfl⟩
  | cons token rest ih =>
      rcases complete_pingAll_cons (σ := σ) hserving hreadable outcome token rest log with
        ⟨h, r₁, rfl, htakes, hhead⟩
      have hreadable₁ := htakes.readable hreadable (hfits h.token List.mem_cons_self)
      rcases ih hreadable₁ (fun token htoken => hfits token (List.mem_cons_of_mem _ htoken))
        (h.advance outcome) (log ++ h.asked t user) with ⟨handlings, r', rfl, hhandled, hrest⟩
      refine ⟨h :: handlings, r', rfl, .cons htakes hhandled, hhead.trans (hrest.trans ?_)⟩
      rw [List.flatMap_cons, List.append_assoc]
      rfl

end

/-!
# What a request comes to
-/

section

variable {ρ : Type} {t : Tracker} {user : String} {c c' : Contents} {handlings : List Handling}

theorem foldl_advance_refreshed (handlings : List Handling) :
    handlings.foldl (fun outcome h => h.advance outcome) .refreshed = .refreshed := by
  induction handlings with
  | nil => rfl
  | cons h rest ih =>
      rcases h with ⟨token, now, ending⟩
      cases ending with
      | unread | current | unwritten | written => exact ih

/-- The outcome tells of a write if there was one, else of a current sighting if one was found. -/
theorem foldl_advance (handlings : List Handling) (outcome : Tracker.Outcome) :
    handlings.foldl (fun outcome h => h.advance outcome) outcome =
      if handlings.any (·.wrote) then .refreshed
      else if handlings.any (·.foundCurrent) then Tracker.advance outcome false
      else outcome := by
  induction handlings generalizing outcome with
  | nil => rfl
  | cons h rest ih =>
      rcases h with ⟨token, now, ending⟩
      rw [List.foldl_cons, List.any_cons, List.any_cons]
      cases ending with
      | unread | unwritten => exact ih outcome
      | written found previous => exact foldl_advance_refreshed rest
      | current found =>
          refine (ih (Tracker.advance outcome false)).trans ?_
          change (if rest.any (·.wrote) then _ else _) = if rest.any (·.wrote) then _ else _
          split
          · rfl
          · refine Eq.trans ?_ (if_pos rfl).symm
            split
            · cases outcome with
              | refreshed | fresh | minted | untracked => rfl
            · rfl

def outcome (handlings : List Handling) : Tracker.Outcome :=
  handlings.foldl (fun outcome h => h.advance outcome) .untracked

theorem outcome_eq (handlings : List Handling) :
    outcome handlings =
      if handlings.any (·.wrote) then .refreshed
      else if handlings.any (·.foundCurrent) then .fresh
      else .untracked :=
  foldl_advance handlings .untracked

theorem outcome_eq_refreshed :
    outcome handlings = .refreshed ↔ exists h, h ∈ handlings ∧ h.wrote = true := by
  rw [outcome_eq, ← List.any_eq_true]
  cases handlings.any (·.wrote) with
  | true => simp
  | false => cases handlings.any (·.foundCurrent) with
    | true | false => simp

theorem outcome_eq_fresh :
    outcome handlings = .fresh ↔ (forall h, h ∈ handlings -> h.wrote = false) ∧
      exists h, h ∈ handlings ∧ h.foundCurrent = true := by
  have hnone : (forall h, h ∈ handlings -> h.wrote = false) ↔ handlings.any (·.wrote) = false := by
    simp only [List.any_eq_false, Bool.not_eq_true]
  rw [outcome_eq, ← List.any_eq_true, hnone]
  cases handlings.any (·.wrote) with
  | true => simp
  | false => cases handlings.any (·.foundCurrent) with
    | true | false => simp

theorem outcome_eq_untracked :
    outcome handlings = .untracked ↔ forall h, h ∈ handlings -> h.failed = true := by
  have hnone : (forall h, h ∈ handlings -> h.failed = true) ↔
      handlings.any (·.wrote) = false ∧ handlings.any (·.foundCurrent) = false := by
    simp only [List.any_eq_false, Bool.not_eq_true, Handling.failed_iff, forall_and]
  rw [outcome_eq, hnone]
  cases handlings.any (·.wrote) with
  | true => simp
  | false => cases handlings.any (·.foundCurrent) with
    | true | false => simp

theorem Handled.entry (h : Handled t user c handlings c') (key : String) :
    (exists writer, writer ∈ handlings ∧ writer.token = key ∧ writer.wrote = true ∧
        c' t.users.name key = some (written t key user writer.now).encode) ∨
      ((forall h, h ∈ handlings -> h.token = key -> h.wrote = false) ∧
        c' t.users.name key = c t.users.name key) := by
  induction h with
  | nil => exact Or.inr ⟨fun h hmem => (nomatch hmem), rfl⟩
  | @cons c c₁ c' first rest htakes hrest ih =>
      rcases ih with ⟨writer, hmem, hkey, hwrote, hentry⟩ | ⟨hrests, hsame⟩
      · exact Or.inl ⟨writer, List.mem_cons_of_mem first hmem, hkey, hwrote, hentry⟩
      · rcases htakes.entry key with ⟨hkey, hwrote, hentry⟩ | ⟨hfirst, hentry⟩
        · exact Or.inl ⟨first, List.mem_cons_self, hkey, hwrote, hsame.trans hentry⟩
        · refine Or.inr ⟨fun h hmem => ?_, hsame.trans hentry⟩
          rcases List.mem_cons.mp hmem with rfl | hmem
          · exact hfirst
          · exact hrests h hmem

theorem Handled.split {before after : List Handling} {h : Handling}
    (hhandled : Handled t user c (before ++ h :: after) c') :
    exists c₁ c₂, Handled t user c before c₁ ∧ Takes t user c₁ h c₂ ∧
      Handled t user c₂ after c' := by
  induction before generalizing c with
  | nil =>
      cases hhandled with
      | cons htakes hrest => exact ⟨_, _, .nil, htakes, hrest⟩
  | cons first before ih =>
      cases hhandled with
      | cons htakes hrest =>
          rcases ih hrest with ⟨c₁, c₂, hbefore, hh, hafter⟩
          exact ⟨c₁, c₂, .cons htakes hbefore, hh, hafter⟩

/-- What is stored for a token whose last handling has not failed. -/
structure Holds (t : Tracker) (user : String) (handlings : List Handling) (h : Handling)
    (c c' : Contents) (s : Sighting) : Prop where
  stored : exists bytes, c' t.users.name h.token = some bytes ∧ Sighting.decode bytes = .ok s
  user_eq : s.user = user
  unexpired : 0 ≤ t.window -> s.isExpired h.now t.window = false
  rewritten : h.wrote = true -> s = (written t h.token user h.now).written ∧
    c' t.users.name h.token = some (written t h.token user h.now).encode
  untouched : h.wrote = false -> c' t.users.name h.token = c t.users.name h.token
  owner : (exists writer, writer ∈ handlings ∧ writer.token = h.token ∧ writer.wrote = true) ->
    s.owner = t.id.text

theorem Holds.unexpired_of_valid {h : Handling} {s : Sighting} {config : Config}
    (hholds : Holds t user handlings h c c' s) (hvalid : config.Valid)
    (hwindow : config.window? = some t.window) : s.isExpired h.now t.window = false :=
  hholds.unexpired (hvalid.window_nonneg hwindow)

theorem exists_holds {before after : List Handling} {h : Handling} {start c c₁ : Contents}
    (hhandled : Handled t user start (before ++ h :: after) c')
    (htakes : Takes t user c h c₁) (hafter : Handled t user c₁ after c')
    (hlast : forall h', h' ∈ after -> h'.token ≠ h.token) (hfailed : h.failed = false)
    (hfits : forall now, (written t h.token user now).Fits) :
    exists s, Holds t user (before ++ h :: after) h c c' s := by
  have hsame : c' t.users.name h.token = c₁ t.users.name h.token := by
    rcases hafter.entry h.token with ⟨writer, hmem, hkey, _⟩ | ⟨_, hsame⟩
    · exact absurd hkey (hlast writer hmem)
    · exact hsame
  have howner (s : Sighting)
      (hstored : exists bytes, c' t.users.name h.token = some bytes ∧ Sighting.decode bytes = .ok s)
      (hwriter : exists writer, writer ∈ before ++ h :: after ∧ writer.token = h.token ∧
        writer.wrote = true) : s.owner = t.id.text := by
    rcases hstored with ⟨bytes, hbytes, hdecode⟩
    rcases hhandled.entry h.token with ⟨last, _, _, _, hentry⟩ | ⟨hnone, _⟩
    · cases hentry.symm.trans hbytes
      cases (Sighting.decode_encode (hfits last.now)).symm.trans hdecode
      rfl
    · rcases hwriter with ⟨writer, hmem, hkey, hwrote⟩
      exact nomatch (hnone writer hmem hkey).symm.trans hwrote
  cases htakes with
  | unread | unwritten => cases hfailed
  | @current token now found s hfound hs hcurrent =>
      have hstored : exists bytes, c' t.users.name token = some bytes ∧
          Sighting.decode bytes = .ok s := ⟨found, hsame.trans hfound, hs⟩
      unfold Sighting.needsRefresh at hcurrent
      rw [Bool.or_eq_false_iff] at hcurrent
      exact ⟨s, hstored, by simpa using hcurrent.2, fun _ => hcurrent.1, nofun, fun _ => hsame,
        howner s hstored⟩
  | @rewritten token now current hheard hstale =>
      have hbytes : c' t.users.name token = some (written t token user now).encode :=
        hsame.trans (Contents.assign_self ..)
      have hstored : exists bytes, c' t.users.name token = some bytes ∧
          Sighting.decode bytes = .ok (written t token user now).written :=
        ⟨_, hbytes, Sighting.decode_encode (hfits now)⟩
      refine ⟨_, hstored, rfl, fun hwindow => ?_, fun _ => ⟨rfl, hbytes⟩, nofun, howner _ hstored⟩
      have hsince := now.since_written_le
      unfold Sighting.isExpired
      rw [decide_eq_false_iff_not]
      change ¬ t.window < now.since now.written
      omega

end

theorem complete_track {ρ : Type} {around : (e : Effect) → ρ → e.Answer × ρ} {t : Tracker}
    {request : Web.Request} (htokens : request.cookieValues t.cookieName ≠ [])
    (response : Web.Response) {σ σ' : Standing} {r r' : ρ × List Asked} {outcome : Tracker.Outcome}
    (h : (t.pingAll (request.user.getD "") .untracked (request.cookieValues t.cookieName)).complete
      (recorded around) σ r = (outcome, σ', r')) :
    (t.track request response).complete (recorded around) σ r = ((outcome, response), σ', r') := by
  unfold Tracker.track
  cases hvalues : request.cookieValues t.cookieName with
  | nil => exact absurd hvalues htokens
  | cons token rest =>
      rw [hvalues] at h
      refine (Proc.complete_bind _ _).trans ?_
      rw [h]
      rfl

/-- Every token of a request is handled, in order and also when others fail.  The outcome tells
whether a sighting was written, a current one found, or every handling failed.  A handling that fails
changes nothing, and the last one of a token that does not leaves a current sighting of the user.  No
cookie is added. -/
theorem tokens_handled {ρ : Type} {around : (e : Effect) → ρ → e.Answer × ρ}
    {contents : ρ → Contents} (hserving : Serving around contents) {t : Tracker}
    {request : Web.Request} (htokens : request.cookieValues t.cookieName ≠ []) {r : ρ}
    (hreadable : Readable (contents r) t.users.name) (response : Web.Response)
    (hfitting : Fitting t (.track request response)) (howner : Stored.Fits t.id.text)
    (σ : Standing) :
    exists (outcome : Tracker.Outcome) (handlings : List Handling) (r' : ρ),
      (t.track request response).complete (recorded around) σ (r, []) =
        ((outcome, response), σ, r', handlings.flatMap (·.asked t (request.user.getD ""))) ∧
      handlings.map (·.token) = request.cookieValues t.cookieName ∧
      (outcome = .refreshed ↔ exists h, h ∈ handlings ∧ h.wrote = true) ∧
      (outcome = .fresh ↔ (forall h, h ∈ handlings -> h.wrote = false) ∧
        exists h, h ∈ handlings ∧ h.foundCurrent = true) ∧
      (outcome = .untracked ↔ forall h, h ∈ handlings -> h.failed = true) ∧
      (forall token, (forall h, h ∈ handlings -> h.token = token -> h.wrote = false) ->
        contents r' t.users.name token = contents r t.users.name token) ∧
      forall before h after, handlings = before ++ h :: after ->
        exists c c', Handled t (request.user.getD "") (contents r) before c ∧
          Takes t (request.user.getD "") c h c' ∧
          Handled t (request.user.getD "") c' after (contents r') ∧
          (h.failed = true -> c' = c) ∧
          (h.failed = false -> (forall h', h' ∈ after -> h'.token ≠ h.token) ->
            exists s, Holds t (request.user.getD "") handlings h c (contents r') s) := by
  rcases hfitting with ⟨huser, hfits⟩
  have hwritten (token : String) (htoken : token ∈ request.cookieValues t.cookieName)
      (now : Instant) : (written t token (request.user.getD "") now).Fits :=
    ⟨hfits token htoken, huser, howner⟩
  rcases complete_pingAll (σ := σ) hserving hreadable hwritten .untracked [] with
    ⟨handlings, r', hmap, hhandled, hcomplete⟩
  refine ⟨outcome handlings, handlings, r', complete_track htokens response hcomplete, hmap,
    outcome_eq_refreshed, outcome_eq_fresh, outcome_eq_untracked, ?_, ?_⟩
  · intro token hnone
    rcases hhandled.entry token with ⟨writer, hmem, hkey, hwrote, _⟩ | ⟨_, hsame⟩
    · exact nomatch (hnone writer hmem hkey).symm.trans hwrote
    · exact hsame
  · rintro before h after rfl
    rcases hhandled.split with ⟨c, c', hbefore, htakes, hafter⟩
    have hmem : h.token ∈ request.cookieValues t.cookieName := by
      rw [← hmap]
      exact List.mem_map_of_mem (List.mem_append_right before List.mem_cons_self)
    exact ⟨c, c', hbefore, htakes, hafter, htakes.of_failed, fun hfailed hlast =>
      exists_holds hhandled htakes hafter hlast hfailed (hwritten h.token hmem)⟩

def isReport (asked : Asked) : Bool :=
  match asked.effect with
  | .report _ => true
  | _ => false

/-- A registry that fails some of its calls, which are counted, and all listings. -/
def flaky (fails : Nat → Bool) : (e : Effect) → Contents × Nat → e.Answer × Contents × Nat
  | .call c, (contents, n) =>
      if fails n then (.error (.unavailable c.region "flaky"), contents, n + 1)
      else
        match c with
        | .get region key => (.ok (contents region key), contents, n + 1)
        | .put region key value =>
            (.ok (contents region key), contents.assign region key (some value), n + 1)
        | .remove region key =>
            (.ok (contents region key), contents.assign region key none, n + 1)
        | .list region => (.error (.unavailable region "flaky"), contents, n + 1)
  | e, state => (e.plain, state)

theorem serving_flaky (fails : Nat → Bool) : Serving (flaky fails) Prod.fst where
  call := by
    rintro c ⟨contents, n⟩
    unfold flaky
    by_cases hfails : fails n = true
    · simp only [if_pos hfails]
      exact .failed _
    · simp only [if_neg hfails]
      cases c with
      | get region key => exact .get
      | put region key value => exact .put
      | remove region key => exact .remove
      | list region => exact .failed _
  other := by
    intro e r hcall
    cases e with
    | call c => exact absurd rfl (hcall c)
    | pause | now | readingPast | look | store | ticket | threadName | entropy | report => rfl

/-- Of a request with two equal tokens, the first handling fails and the second one writes. -/
theorem flaky_tokens_handled :
    let request : Web.Request := ⟨[(lone.cookieName, "t"), (lone.cookieName, "t")], some "u"⟩
    let nothing : Contents := fun _ _ => none
    request.cookieValues lone.cookieName ≠ [] ∧ Readable nothing lone.users.name ∧
      Fitting lone (.track request {}) ∧ Stored.Fits lone.id.text ∧
      exists (first second : Handling) (contents' : Contents),
        (lone.track request {}).complete (recorded (flaky (· == 1))) {} ((nothing, 0), []) =
          ((.refreshed, {}), {}, (contents', 4), first.asked lone "u" ++ second.asked lone "u") ∧
        first.failed = true ∧
        exists c s, Holds lone "u" [first, second] second c contents' s ∧
          s.isExpired second.now lone.window = false := by
  intro request nothing
  have htokens : request.cookieValues lone.cookieName ≠ [] := by decide
  have hreadable : Readable nothing lone.users.name := fun _ _ h => nomatch h
  have hfitting : Fitting lone (.track request {}) := by
    refine ⟨Stored.fits_of_size (by decide), fun token htoken => ?_⟩
    have ht : token = "t" := by
      have hmem : token ∈ ["t", "t"] := htoken
      simpa using hmem
    exact ht ▸ Stored.fits_of_size (by decide)
  have howner : Stored.Fits lone.id.text := Stored.fits_of_size (by decide)
  rcases tokens_handled (serving_flaky (· == 1)) htokens (r := (nothing, 0)) hreadable {} hfitting
    howner {} with ⟨outcome, handlings, r', hcomplete, hmap, hrefreshed, _, _, _, heach⟩
  refine ⟨htokens, hreadable, hfitting, howner, ?_⟩
  change handlings.map (·.token) = ["t", "t"] at hmap
  rcases handlings with _ | ⟨first, _ | ⟨second, _ | ⟨third, rest⟩⟩⟩
  · simp at hmap
  · simp at hmap
  · have houtcome : .refreshed = outcome := congrArg (·.1.1) hcomplete
    have hcount : 4 = r'.2 := congrArg (·.2.2.1.2) hcomplete
    have hreports : [false, false, false, true, false, false, false] =
        (first.asked lone "u" ++ (second.asked lone "u" ++ [])).map isReport :=
      congrArg (·.2.2.2.map isReport) hcomplete
    rcases r' with ⟨contents', n⟩
    subst houtcome hcount
    rcases heach [first] second [] rfl with ⟨c, c', _, _, _, _, hholds⟩
    have hfailed : first.failed = true ∧ second.failed = false := by
      rcases first with ⟨token, now, ending⟩
      rcases second with ⟨token', now', ending'⟩
      cases ending with
      | unread | current | written => cases ending' with
        | unread | current | unwritten | written =>
            simp [Handling.asked, isReport] at hreports
      | unwritten => cases ending' with
        | written => exact ⟨rfl, rfl⟩
        | unread | current | unwritten => simp [Handling.asked, isReport] at hreports
    have hwindow : Config.window? {} = some lone.window := by decide
    rcases hholds hfailed.2 fun h hmem => absurd hmem List.not_mem_nil with ⟨s, hs⟩
    refine ⟨first, second, contents', ?_, hfailed.1, c, s, hs,
      hs.unexpired_of_valid Config.valid_default hwindow⟩
    rw [hcomplete, List.flatMap_cons, List.flatMap_singleton]
    rfl
  · simp at hmap

end Tracking
end Roster
