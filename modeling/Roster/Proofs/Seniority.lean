import Roster.Proofs.Interleaving.Hearing
import Roster.Proofs.Interleaving.Issued
import Roster.Proofs.Interleaving.Pursuit
import Roster.Proofs.Numbering.Winner
import Roster.Proofs.Registry.Listing

/-!
# Earlier claims stand

A ready member gives up its number for one reason only: a heartbeat has written the claim again, has
been shown an earlier claim of another server to the same number, and has settled another claim.
Claims that come later change nothing, however many there are and whatever fails in between, and
what the member writes meanwhile is its claim as it was made.

The world is arbitrary: calls and clocks may answer anything, and the registry may change by itself
at any time.  Heartbeats do not overlap.
-/

namespace Roster
namespace Seniority

open Interleaving

variable {ω : Type}

/-!
# What a heartbeat has been told

The claim has been written again; a listing has shown an earlier one; the lowest free number of a
listing has been claimed; and that claim has stood.
-/

inductive Refreshed (m : Member) (claim : Registration) : List Heard → Prop where
  | put {previous : Option Bytes} {before : Option Registration}
      (hbefore : Region.decodeOption previous = .ok before) :
      Refreshed m claim
        [⟨.put m.servers.name m.id.text (Storable.encode claim), .ok previous⟩]

inductive Contested (m : Member) (claim : Registration) : List Heard → Prop where
  | list {told : List Heard} {values : List Bytes} {live : List Registration}
      {rival : Registration} (hrefreshed : Refreshed m claim told)
      (hlive : Region.decodeAll values = .ok live) (hrival : rival ∈ live)
      (hnumber : rival.number = claim.number) (hserver : rival.serverId ≠ claim.serverId)
      (hearlier : rival.outranks claim = true) (more : List Heard) :
      Contested m claim (told ++ ⟨.list m.servers.name, .ok values⟩ :: more)

inductive Staked (m : Member) (old new : Registration) : List Heard → Prop where
  | put {told : List Heard} {values : List Bytes} {live : List Registration}
      {previous : Option Bytes} {before : Option Registration} (hcontested : Contested m old told)
      (hlive : Region.decodeAll values = .ok live) (hserver : new.serverId = m.id.text)
      (hnumber : new.number = Numbering.lowestFree m.id.text live)
      (hbefore : Region.decodeOption previous = .ok before) :
      Staked m old new (told ++ [⟨.list m.servers.name, .ok values⟩,
        ⟨.put m.servers.name m.id.text (Storable.encode new), .ok previous⟩])

inductive Displaces (m : Member) (old new : Registration) : List Heard → Prop where
  | list {told : List Heard} {values : List Bytes} {live : List Registration}
      (hstaked : Staked m old new told) (hlive : Region.decodeAll values = .ok live)
      (hverdict : Numbering.verdict new live ≠ .lost) :
      Displaces m old new (told ++ [⟨.list m.servers.name, .ok values⟩])

section

variable {m : Member} {claim old new : Registration} {told : List Heard}

theorem Contested.append (h : Contested m claim told) (more : List Heard) :
    Contested m claim (told ++ more) := by
  cases h with
  | list hrefreshed hlive hrival hnumber hserver hearlier before =>
      rw [List.append_assoc, List.cons_append]
      exact .list hrefreshed hlive hrival hnumber hserver hearlier (before ++ more)

theorem Staked.contested (h : Staked m old new told) : Contested m old told := by
  cases h with
  | put hcontested _ _ _ _ => exact hcontested.append _

theorem Displaces.contested (h : Displaces m old new told) : Contested m old told := by
  cases h with
  | list hstaked _ _ => exact hstaked.contested.append _

theorem Refreshed.contested (h : Refreshed m claim told) {values : List Bytes}
    {live : List Registration} (hlive : Region.decodeAll values = .ok live)
    (hlost : Numbering.verdict claim live = .lost) :
    Contested m claim (told ++ [⟨.list m.servers.name, .ok values⟩]) := by
  by_contra hnone
  refine Numbering.verdict_ne_lost_iff.mpr (fun rival hrival hnumber hserver => ?_) hlost
  rcases Registration.outranks_or hserver with hearlier | hlater
  · exact absurd (.list h hlive hrival hnumber hserver hearlier []) hnone
  · exact hlater

end

/-- What a heartbeat for the claim has been told when it comes to a spot. -/
inductive Leads (m : Member) (claim : Registration) : List Heard → Spot → Prop where
  | refreshing : Leads m claim [] (.refreshing claim)
  | checking {told} (h : Refreshed m claim told) : Leads m claim told (.checking claim)
  | listing {told round} (h : Contested m claim told) :
      Leads m claim told (.listing (.renumber claim) round)
  | staking {told values live round new} (h : Contested m claim told)
      (hlive : Region.decodeAll values = .ok live) (hserver : new.serverId = m.id.text)
      (hnumber : new.number = Numbering.lowestFree m.id.text live) :
      Leads m claim (told ++ [⟨.list m.servers.name, .ok values⟩])
        (.staking (.renumber claim) round new)
  | spreading {told round new} (h : Staked m claim new told) :
      Leads m claim told (.spreading (.renumber claim) round new)
  | verifying {told round new} (h : Staked m claim new told) :
      Leads m claim told (.verifying (.renumber claim) round new)
  | backingOff {told round last time} (h : Contested m claim told) :
      Leads m claim told (.backingOff (.renumber claim) round last time)
  | restoring {told} (h : Contested m claim told) : Leads m claim told (.restoring claim)
  | withdrawing {told} : Leads m claim told (.withdrawing .quiet)
  | removing {told} : Leads m claim told .removing

def Recounts (m : Member) (claim : Registration) (told : List Heard) : Stage → Prop
  | .waiting s => Leads m claim told s
  | .due s reply => exists before answer, Leads m claim before s ∧
      told = before ++ (heard? (s.effect m) answer).toList ∧ s.reply m answer = reply
  | .finished _ => True

/-!
# Turns
-/

section

variable {ι : Type} {S : Setting ι ω} {i : ι} {σ σ' : Standing} {w w' : ω} {stage : Stage}
  {s : Spot} {claim : Registration} {told : List Heard}

theorem recounts_of_quits (htold : Contested (S.member i) claim told) {e : Error}
    (h : Quits S i σ w (.renumber claim) e stage w') :
    Recounts (S.member i) claim told stage := by
  cases h with
  | restore _ => exact Leads.restoring htold
  | interrupt _ => exact Leads.withdrawing

theorem recounts_of_tries (htold : Contested (S.member i) claim told) {attempt remaining : Nat}
    {last : Option RegistryError}
    (h : Tries S i σ w (.renumber claim) attempt last remaining stage w') :
    Recounts (S.member i) claim told stage := by
  cases h with
  | list _ => exact Leads.listing htold
  | barred _ hquit | exhausted hquit => exact recounts_of_quits htold hquit

theorem recounts_of_retries (htold : Contested (S.member i) claim told) {round : Round}
    {last : Option RegistryError} (h : Retries S i σ w (.renumber claim) round last stage w') :
    Recounts (S.member i) claim told stage := by
  cases h with
  | backOff _ _ => exact Leads.backingOff htold
  | exhausted _ hquit => exact recounts_of_quits htold hquit

/-- How a thread goes on from a spot: the member relies on its claim still, or on another one that
has displaced it. -/
inductive Goes (m : Member) (claim : Registration) (told : List Heard) (s : Spot) (σ : Standing) :
    Stage → Standing → Prop where
  | on {stage : Stage} (h : Recounts m claim told stage) : Goes m claim told s σ stage σ
  | renumber {settled : Settled} (hs : s.operation = .heartbeat)
      (hready : σ.status.isReady = true) (hdisplaces : Displaces m claim settled.claim told)
      (hsettled : Settled.ofClaim? settled.claim = some settled) :
      Goes m claim told s σ (.finished .beaten)
        { status := .ready settled.claim.number, settled := some settled }

theorem ok_of_heardListing {answer : Except RegistryError (List Bytes)} {live : List Registration}
    (h : heardListing answer = .ok live) :
    exists values, answer = .ok values ∧ Region.decodeAll values = .ok live := by
  cases answer with
  | error e => cases h
  | ok values => exact ⟨values, rfl, h⟩

theorem ok_of_heardPrevious {answer : Except RegistryError (Option Bytes)}
    {before : Option Registration} (h : heardPrevious answer = .ok before) :
    exists previous, answer = .ok previous ∧ Region.decodeOption previous = .ok before := by
  cases answer with
  | error e => cases h
  | ok previous => exact ⟨previous, rfl, h⟩

theorem goes_of_resumes {reply : s.Reply} (h : Resumes S i σ w s reply stage σ' w')
    (hs : Recounts (S.member i) claim told (.due s reply)) :
    Goes (S.member i) claim told s σ stage σ' := by
  rcases hs with ⟨before, answer, hleads, rfl, hreply⟩
  cases h with
  | listed _ =>
      cases hleads with
      | listing htold =>
          rcases ok_of_heardListing hreply with ⟨values, rfl, hlive⟩
          exact .on (Leads.staking htold hlive rfl rfl)
  | listingFailed hretry =>
      cases hleads with
      | listing htold => exact .on (recounts_of_retries (htold.append _) hretry)
  | staked =>
      cases hleads with
      | staking htold hlive hserver hnumber =>
          rcases ok_of_heardPrevious hreply with ⟨previous, rfl, hbefore⟩
          rw [List.append_assoc]
          exact .on (Leads.spreading (.put htold hlive hserver hnumber hbefore))
  | stakingFailed hretry =>
      cases hleads with
      | staking htold _ _ _ =>
          exact .on (recounts_of_retries ((htold.append _).append _) hretry)
  | spread _ =>
      cases hleads with
      | spreading htold =>
          rw [heard?_of_pause rfl, Option.toList_none, List.append_nil]
          exact .on (Leads.verifying htold)
  | spreadBarred _ hquit =>
      cases hleads with
      | spreading htold => exact .on (recounts_of_quits (htold.contested.append _) hquit)
  | upheld hverdict hsettled hwin =>
      cases hleads with
      | verifying htold =>
          have hclaim := (Settled.proper_of_ofClaim? hsettled rfl).1
          rcases ok_of_heardListing hreply with ⟨values, rfl, hlive⟩
          cases hwin with
          | renumber hready =>
              subst hclaim
              exact .renumber rfl hready (.list htold hlive hverdict) hsettled
          | interrupt _ => exact .on Leads.withdrawing
  | overflow _ _ hquit =>
      cases hleads with
      | verifying htold => exact .on (recounts_of_quits (htold.contested.append _) hquit)
  | lost _ hretry | verifyingFailed hretry =>
      cases hleads with
      | verifying htold => exact .on (recounts_of_retries (htold.contested.append _) hretry)
  | backedOff htry =>
      cases hleads with
      | backingOff htold => exact .on (recounts_of_tries (htold.append _) htry)
  | relinquished _ => cases hleads
  | refreshed _ =>
      cases hleads with
      | refreshing =>
          rcases ok_of_heardPrevious hreply with ⟨previous, rfl, hbefore⟩
          exact .on (Leads.checking (.put hbefore))
  | contested hlost htry =>
      cases hleads with
      | checking htold =>
          rcases ok_of_heardListing hreply with ⟨values, rfl, hlive⟩
          exact .on (recounts_of_tries (htold.contested hlive hlost) htry)
  | refreshedLate _ | restoredLate _ => exact .on Leads.withdrawing
  | left _ | refreshingFailed | uncontested _ | checkingFailed | restored _ | restoringFailed
  | removed | removingFailed => exact .on trivial

end

/-!
# The member and its threads
-/

def Successive (c : Cluster Unit ω Task) : Prop :=
  forall n k t u, c.threads n = some t -> c.threads k = some u -> t.task.Pursues .heartbeat ->
    u.task.Pursues .heartbeat -> n = k

def established {τ : Type} (settled : Settled) (w : ω) : Cluster Unit ω τ :=
  { Cluster.initial w with
    standing := fun _ => { status := .ready settled.claim.number, settled := some settled } }

/-- A ready member relies on the claim, and has been deactivated otherwise. -/
inductive Relies (claim : Registration) : Standing → Prop where
  | ready {settled : Settled} (hclaim : settled.claim = claim) :
      Relies claim { status := .ready claim.number, settled := some settled }
  | deactivated : Relies claim { status := .deactivated, settled := none }

inductive Opens (m : Member) (claim : Registration) (σ : Standing) :
    Operation → Stage → Standing → Prop where
  | keep {op : Operation} {stage : Stage} (h : Recounts m claim [] stage) :
      Opens m claim σ op stage σ
  | issue {settled : Settled} {reading : Int} (hsettled : σ.settled = some settled) :
      Opens m claim σ .uniqueId
        (.finished (.issued (.ok (settled.issuer.issue (UniqueId.elapsedAt reading)).1)))
        { σ with settled := some (settled.afterIssue reading) }
  | deactivate :
      Opens m claim σ .deactivate (.waiting .removing) { status := .deactivated, settled := none }

section

variable {S : Setting Unit ω} {σ σ' : Standing} {w w' : ω} {stage : Stage} {claim : Registration}

theorem opens_of_begins {op : Operation} (h : Begins S () σ w op stage σ' w')
    (hσ : Relies claim σ) : Opens (S.member ()) claim σ op stage σ' := by
  cases h with
  | activate hinactive _ => cases hσ <;> cases hinactive
  | heartbeat _ hsettled =>
      cases hσ with
      | ready hclaim =>
          cases hsettled
          subst hclaim
          exact .keep Leads.refreshing
      | deactivated => cases hsettled
  | deactivate _ => exact .deactivate
  | deactivateAgain hstatus =>
      cases hσ with
      | ready _ => cases hstatus
      | deactivated => exact .keep trivial
  | uniqueId hsettled _ => exact .issue hsettled
  | activateRefused _ | heartbeatIdle _ | uniqueIdRefused _ => exact .keep trivial

theorem Opens.relies {op : Operation} (h : Opens (S.member ()) claim σ op stage σ')
    (hσ : Relies claim σ) : Relies claim σ' := by
  cases h with
  | keep _ => exact hσ
  | issue hsettled =>
      cases hσ with
      | ready hclaim =>
          cases hsettled
          exact .ready hclaim
      | deactivated => cases hsettled
  | deactivate => exact .deactivated

theorem Opens.recounts {op : Operation} (h : Opens (S.member ()) claim σ op stage σ') :
    Recounts (S.member ()) claim [] stage := by
  cases h with
  | keep h => exact h
  | issue _ => trivial
  | deactivate => exact Leads.removing

theorem Recounts.released {m : Member} {told : List Heard} (h : Recounts m claim told stage)
    (hother : forall s, stage.spot? = some s -> s.operation ≠ .heartbeat) (claim' : Registration) :
    Recounts m claim' told stage := by
  have hleads {told : List Heard} {s : Spot} (h : Leads m claim told s)
      (hs : s.operation ≠ .heartbeat) : Leads m claim' told s := by
    cases h with
    | removing => exact .removing
    | refreshing | checking _ | listing _ | staking _ _ _ _ | spreading _ | verifying _
    | backingOff _ | restoring _ | withdrawing => exact absurd rfl hs
  cases stage with
  | waiting s => exact hleads h (hother s rfl)
  | due s reply =>
      rcases h with ⟨before, answer, h, hrest⟩
      exact ⟨before, answer, hleads h (hother s rfl), hrest⟩
  | finished outcome => trivial

end

structure Accounts (S : Setting Unit ω) (told : Nat → List Heard) (claim : Registration)
    (c : Cluster Unit ω Stage) : Prop where
  relies : Relies claim (c.standing ())
  fresh : forall n, c.threads n = none -> told n = []
  recounts : forall n t, c.threads n = some t ->
    Recounts (S.member ()) claim (told n) t.task

/-!
# What a step does to the standing
-/

inductive Alters (m : Member) (told : Nat → List Heard) (c c' : Cluster Unit ω Task) : Prop where
  | keep (hstanding : c'.standing () = c.standing ())
  | issue {n : Nat} {t : Thread Unit ω Task} {settled : Settled} {reading : Int}
      (hfresh : c.threads n = none) (ht : c'.threads n = some t)
      (htask : t.task =
        .finished (.issued (.ok (settled.issuer.issue (UniqueId.elapsedAt reading)).1)))
      (hsettled : (c.standing ()).settled = some settled)
      (hstanding : c'.standing () =
        { c.standing () with settled := some (settled.afterIssue reading) })
  | deactivate {n : Nat} {t : Thread Unit ω Task} (hfresh : c.threads n = none)
      (ht : c'.threads n = some t) (htask : t.task.Pursues .deactivate)
      (hstanding : c'.standing () = { status := .deactivated, settled := none })
  | renumber {n : Nat} {t t' : Thread Unit ω Task} {old new : Settled}
      (ht : c.threads n = some t) (htask : t.task.Pursues .heartbeat)
      (ht' : c'.threads n = some t') (htask' : t'.task = .finished .beaten)
      (hold : (c.standing ()).settled = some old)
      (hdisplaces : Displaces m old.claim new.claim (told n))
      (hnew : Settled.ofClaim? new.claim = some new)
      (hstanding : c'.standing () = { status := .ready new.claim.number, settled := some new })

section

variable {S : Setting Unit ω} {told : Nat → List Heard} {claim : Registration}
  {c c' : Cluster Unit ω Stage}

theorem Accounts.goes (h : Accounts S told claim c) {n : Nat} {t : Thread Unit ω Stage} {s : Spot}
    {reply : s.Reply} {stage : Stage} {σ : Standing} {w : ω} (ht : c.threads n = some t)
    (htask : t.task = .due s reply)
    (hresume : Resumes S () (c.standing ()) c.world s reply stage σ w) :
    Goes (S.member ()) claim (told n) s (c.standing ()) stage σ := by
  have hrecounts := h.recounts n t ht
  rw [htask] at hrecounts
  exact goes_of_resumes hresume hrecounts

theorem Accounts.alters (h : Accounts S told claim c) (hmove : Moves S c c') :
    Alters (S.member ()) told (c.enacted S) (c'.enacted S) := by
  cases stands_of_moves hmove () with
  | keep hkept => exact .keep hkept
  | start hfresh ht hbegin =>
      have hfresh := fresh_enacted (S := S) hfresh
      have hthread := threads_enacted (S := S) ht
      generalize hstanding : c'.standing () = σ at hbegin
      cases opens_of_begins hbegin h.relies with
      | keep _ => exact .keep hstanding
      | issue hsettled => exact .issue hfresh hthread rfl hsettled hstanding
      | deactivate =>
          have hpursues : ((Stage.waiting .removing).task (S.member ())).Pursues .deactivate :=
            pursues_task.mpr ⟨_, rfl, rfl⟩
          exact .deactivate hfresh hthread hpursues hstanding
  | @turn _ _ s _ _ ht _ htask ht' hresume =>
      generalize hstanding : c'.standing () = σ at hresume
      cases h.goes ht htask hresume with
      | on _ => exact .keep hstanding
      | renumber hs hready hdisplaces hsettled =>
          have hrelies := h.relies
          generalize hσ : c.standing () = σ at hrelies hready
          cases hrelies with
          | ready hclaim =>
              subst hclaim
              exact .renumber (threads_enacted ht)
                (pursues_task.mpr ⟨s, spot?_of_due htask, hs⟩) (threads_enacted ht') rfl
                (congrArg Standing.settled hσ) hdisplaces hsettled hstanding
          | deactivated => cases hready

/-!
# What steps preserve
-/

theorem Accounts.moved (h : Accounts S told claim c) {told' : Nat → List Heard}
    {claim' : Registration} {n : Nat} {t : Thread Unit ω Stage} {σ : Standing} {w : ω}
    (hσ : Relies claim' σ) (htold : forall k, k ≠ n -> told' k = told k)
    (hothers : forall k u, k ≠ n -> c.threads k = some u ->
      Recounts (S.member ()) claim' (told k) u.task)
    (ht : Recounts (S.member ()) claim' (told' n) t.task) :
    Accounts S told' claim' (c.moved n t σ w) where
  relies := by
    rw [show (c.moved n t σ w).standing () = σ from standing_moved_self t]
    exact hσ
  fresh := by
    intro k hk
    by_cases hkn : k = n
    · subst hkn
      cases (thread_moved_self t).symm.trans hk
    · rw [htold k hkn]
      exact h.fresh k ((Function.update_of_ne hkn ..).symm.trans hk)
  recounts := by
    intro k u hu
    rcases Cluster.thread_moved hu with ⟨rfl, rfl⟩ | ⟨hkn, hu⟩
    · exact ht
    · rw [htold k hkn]
      exact hothers k u hkn hu

theorem Accounts.move (h : Accounts S told claim c) (hone : Successive (c.enacted S))
    (hmove : Moves S c c') (hsilent : Silent (c.enacted S) (c'.enacted S)) :
    exists claim', Accounts S told claim' c' ∧
      (claim' = claim ∨ exists n, Contested (S.member ()) claim (told n)) := by
  have hothers (n : Nat) : forall k u, k ≠ n -> c.threads k = some u ->
      Recounts (S.member ()) claim (told k) u.task :=
    fun k u _ hu => h.recounts k u hu
  cases hmove with
  | @start n i op stage σ w hfresh hpermits hbegin =>
      have hopens := opens_of_begins hbegin h.relies
      refine ⟨claim, h.moved (hopens.relies h.relies) (fun _ _ => rfl) (hothers n) ?_, Or.inl rfl⟩
      rw [h.fresh n hfresh]
      exact hopens.recounts
  | call ht htask hcall _ _ _ => exact absurd hsilent (not_silent_of_call ht htask hcall)
  | @wake n t s ht htask hpermits hpause reply =>
      have hleads := h.recounts n t ht
      rw [htask] at hleads
      rcases exists_answer_of_pause (m := S.member ()) hpause reply with ⟨answer, hreply⟩
      refine ⟨claim, h.moved h.relies (fun _ _ => rfl) (hothers n)
        ⟨told n, answer, hleads, ?_, hreply⟩, Or.inl rfl⟩
      rw [heard?_of_pause hpause, Option.toList_none, List.append_nil]
  | @turn n t s reply stage σ w ht htask hpermits hresume =>
      cases h.goes ht htask hresume with
      | on hstage =>
          exact ⟨claim, h.moved h.relies (fun _ _ => rfl) (hothers n) hstage, Or.inl rfl⟩
      | @renumber settled hs hready hdisplaces hsettled =>
          refine ⟨settled.claim, h.moved (.ready rfl) (fun _ _ => rfl) (fun k u hkn hu => ?_)
            trivial, Or.inr ⟨n, hdisplaces.contested⟩⟩
          -- another heartbeat would overlap
          refine (h.recounts k u hu).released (fun s' hs' hop => hkn ?_) settled.claim
          exact hone k n _ _ (threads_enacted hu) (threads_enacted ht)
            (pursues_task.mpr ⟨s', hs', hop⟩) (pursues_task.mpr ⟨s, spot?_of_due htask, hs⟩)
  | drift hpermits hdrift => exact ⟨claim, ⟨h.relies, h.fresh, h.recounts⟩, Or.inl rfl⟩

theorem Accounts.replied (h : Accounts S told claim c) {n : Nat} {t : Thread Unit ω Stage}
    {s : Spot} {answer : (s.effect (S.member t.owner)).Answer} {heard : Heard} {w : ω}
    (ht : c.threads n = some t) (htask : t.task = .waiting s)
    (hheard : heard? (s.effect (S.member t.owner)) answer = some heard) :
    Accounts S (Function.update told n (told n ++ [heard])) claim
      (c.moved n ⟨t.owner, .due s (s.reply (S.member t.owner) answer), w⟩
        (c.standing t.owner) w) := by
  have hleads := h.recounts n t ht
  rw [htask] at hleads
  refine h.moved h.relies (fun k hk => Function.update_of_ne hk ..)
    (fun k u _ hu => h.recounts k u hu) ⟨told n, answer, hleads, ?_, rfl⟩
  rw [Function.update_self, hheard]
  rfl

/-!
# A member without earlier rivals
-/

/-- In no listing so far has another server an earlier claim to the number. -/
def Unrivalled (m : Member) (claim : Registration) (told : Nat → List Heard) : Prop :=
  forall n values live, ⟨.list m.servers.name, .ok values⟩ ∈ told n ->
    Region.decodeAll values = .ok live ->
      forall e, e ∈ live -> e.number = claim.number -> e.serverId ≠ claim.serverId ->
        claim.outranks e = true

/-- The member relies on the claim that it was established with.  It may have issued ids for it, or
have been deactivated; while there are only heartbeats it is just as it was. -/
structure Keeps (settled : Settled) (c : Cluster Unit ω Task) : Prop where
  relies : c.standing () = { status := .deactivated, settled := none } ∨
    exists issuer, issuer.server = settled.issuer.server ∧
      c.standing () =
        { status := .ready settled.claim.number, settled := some { settled with issuer } }
  undisturbed :
    (forall n t, c.threads n = some t ->
      t.task.Pursues .heartbeat ∨ t.task = .finished .beaten) ->
    c.standing () = { status := .ready settled.claim.number, settled := some settled }

def Writes (m : Member) (claim : Registration) (told : Nat → List Heard) : Prop :=
  forall n region key value answer, ⟨.put region key value, answer⟩ ∈ told n ->
    region = m.servers.name ∧ key = m.id.text ∧ value = Storable.encode claim

theorem Unrivalled.not_contested {m : Member} (h : Unrivalled m claim told) (n : Nat) :
    ¬ Contested m claim (told n) := by
  intro hcontested
  generalize htold : told n = heard at hcontested
  cases hcontested with
  | list _ hlive hrival hnumber hserver hearlier more =>
      have hlater := h n _ _ (by rw [htold]; simp) hlive _ hrival hnumber hserver
      cases (Numbering.outranks_asymm hearlier).symm.trans hlater

theorem mem_told {n k : Nat} {more : List Heard} {heard : Heard} :
    heard ∈ Function.update told n (told n ++ more) k ↔ heard ∈ told k ∨ k = n ∧ heard ∈ more := by
  by_cases hk : k = n
  · subst hk
    rw [Function.update_self, List.mem_append]
    simp
  · rw [Function.update_of_ne hk]
    simp [hk]

theorem Unrivalled.before {m : Member} {n : Nat} {more : List Heard}
    (h : Unrivalled m claim (Function.update told n (told n ++ more))) :
    Unrivalled m claim told :=
  fun k values live hmem => h k values live (mem_told.mpr (Or.inl hmem))

/-- A heartbeat that has been shown no earlier claim writes the claim, and nothing else. -/
theorem Leads.put {m : Member} {heard : List Heard} {s : Spot} (h : Leads m claim heard s)
    (hnone : ¬ Contested m claim heard) {answer : (s.effect m).Answer} {region key : String}
    {value : Bytes} {answer' : Except RegistryError (Option Bytes)}
    (hheard : heard? (s.effect m) answer = some ⟨.put region key value, answer'⟩) :
    region = m.servers.name ∧ key = m.id.text ∧ value = Storable.encode claim := by
  cases h with
  | refreshing =>
      cases hheard
      exact ⟨rfl, rfl, rfl⟩
  | staking hcontested _ _ _ => exact absurd (hcontested.append _) hnone
  | restoring hcontested => exact absurd hcontested hnone
  | checking _ | listing _ | spreading _ | verifying _ | backingOff _ | withdrawing | removing =>
      cases hheard

theorem beats_of_moves (hmove : Moves S c c')
    (hbeats : forall n t, (c'.enacted S).threads n = some t ->
      t.task.Pursues .heartbeat ∨ t.task = .finished .beaten) {n : Nat} {t : Thread Unit ω Task}
    (ht : (c.enacted S).threads n = some t) :
    t.task.Pursues .heartbeat ∨ t.task = .finished .beaten := by
  rcases thread_of_enacted ht with ⟨u, hu, rfl⟩
  rcases operation_of_moves hmove hu with ⟨u', hu', hop⟩
  refine Stage.operation_eq_heartbeat.mp (hop.symm.trans ?_)
  exact Stage.operation_eq_heartbeat.mpr (hbeats n _ (threads_enacted hu'))

theorem Keeps.move {settled : Settled} (h : Keeps settled (c.enacted S)) (hmove : Moves S c c')
    (hnone : forall n, ¬ Contested (S.member ()) settled.claim (told n))
    (halters : Alters (S.member ()) told (c.enacted S) (c'.enacted S)) :
    Keeps settled (c'.enacted S) := by
  cases halters with
  | keep hstanding =>
      constructor
      · rw [hstanding]
        exact h.relies
      · intro hbeats
        rw [hstanding]
        exact h.undisturbed fun n t ht => beats_of_moves hmove hbeats ht
  | @issue n t before reading hfresh ht htask hsettled hstanding =>
      constructor
      · rcases h.relies with hgone | ⟨issuer, hserver, hready⟩
        · rw [hgone] at hsettled
          cases hsettled
        · rw [hready] at hsettled hstanding
          cases hsettled
          exact Or.inr
            ⟨(issuer.issue (UniqueId.elapsedAt reading)).2, hserver, hstanding⟩
      · intro hbeats
        rcases hbeats _ _ ht with hpursues | hbeaten
        · rw [htask] at hpursues
          exact hpursues.elim
        · cases htask.symm.trans hbeaten
  | deactivate hfresh ht htask hstanding =>
      refine ⟨Or.inl hstanding, fun hbeats => ?_⟩
      rcases thread_of_enacted ht with ⟨t, _, rfl⟩
      rcases pursues_task.mp htask with ⟨s, hs, hop⟩
      rcases hbeats _ _ ht with hpursues | hbeaten
      · rcases pursues_task.mp hpursues with ⟨s', hs', hop'⟩
        cases hs.symm.trans hs'
        cases hop.symm.trans hop'
      · rw [hbeaten] at htask
        exact htask.elim
  | @renumber n t t' old new ht _ _ _ hold hdisplaces _ _ =>
      rcases h.relies with hgone | ⟨issuer, hserver, hready⟩
      · rw [hgone] at hold
        cases hold
      · rw [hready] at hold
        cases hold
        exact absurd hdisplaces.contested (hnone n)

def Lasts (S : Setting Unit ω) (settled : Settled) (told : Nat → List Heard)
    (c : Cluster Unit ω Stage) : Prop :=
  exists claim, Accounts S told claim c ∧ (Unrivalled (S.member ()) settled.claim told ->
    claim = settled.claim ∧ Keeps settled (c.enacted S) ∧ Writes (S.member ()) settled.claim told)

theorem Lasts.established (settled : Settled) (w : ω) :
    Lasts S settled (fun _ => []) (established settled w) := by
  refine ⟨settled.claim, ⟨.ready rfl, fun _ _ => rfl, fun _ _ h => nomatch h⟩, fun _ => ?_⟩
  exact ⟨rfl, ⟨Or.inr ⟨settled.issuer, rfl, rfl⟩, fun _ => rfl⟩, fun _ _ _ _ _ h => nomatch h⟩

theorem Lasts.move {settled : Settled} (h : Lasts S settled told c)
    (hone : Successive (c.enacted S)) (hmove : Moves S c c')
    (hsilent : Silent (c.enacted S) (c'.enacted S)) : Lasts S settled told c' := by
  rcases h with ⟨claim, haccounts, hlasts⟩
  rcases haccounts.move hone hmove hsilent with ⟨claim', haccounts', hclaim⟩
  refine ⟨claim', haccounts', fun hunrivalled => ?_⟩
  rcases hlasts hunrivalled with ⟨rfl, hkeeps, hwrites⟩
  refine ⟨?_, hkeeps.move hmove hunrivalled.not_contested (haccounts.alters hmove), hwrites⟩
  rcases hclaim with rfl | ⟨n, hcontested⟩
  · rfl
  · exact absurd hcontested (hunrivalled.not_contested n)

theorem Lasts.replied {settled : Settled} (h : Lasts S settled told c) {n : Nat}
    {t : Thread Unit ω Stage} {s : Spot} {answer : (s.effect (S.member t.owner)).Answer}
    {heard : Heard} {w : ω} (ht : c.threads n = some t) (htask : t.task = .waiting s)
    (hheard : heard? (s.effect (S.member t.owner)) answer = some heard)
    (hmove : Moves S c (c.moved n ⟨t.owner, .due s (s.reply (S.member t.owner) answer), w⟩
      (c.standing t.owner) w)) :
    Lasts S settled (Function.update told n (told n ++ [heard]))
      (c.moved n ⟨t.owner, .due s (s.reply (S.member t.owner) answer), w⟩
        (c.standing t.owner) w) := by
  rcases h with ⟨claim, haccounts, hlasts⟩
  refine ⟨claim, haccounts.replied ht htask hheard, fun hunrivalled => ?_⟩
  rcases hlasts hunrivalled.before with ⟨rfl, hkeeps, hwrites⟩
  refine ⟨rfl, hkeeps.move hmove hunrivalled.before.not_contested (haccounts.alters hmove), ?_⟩
  intro k region key value answer' hmem
  rcases mem_told.mp hmem with hmem | ⟨_, hnew⟩
  · exact hwrites k region key value answer' hmem
  · cases List.mem_singleton.mp hnew
    have hleads := haccounts.recounts n t ht
    rw [htask] at hleads
    exact Leads.put hleads (hunrivalled.before.not_contested n) hheard

end

/-- While all that others claim of its number is later, a member keeps its number, its claim and its
issuer, and writes nothing but the claim.  Its standing changes, apart from ids issued and from a
deactivation, only at the end of a heartbeat that has been shown an earlier claim and has settled
another one. -/
theorem displaced_by_earlier_only {S : Setting Unit ω}
    (hone : forall c move, S.permits c move -> Successive c) {settled : Settled} {w : ω}
    {told : Nat → List Heard} {c : Cluster Unit ω Task}
    (hrun : Hears S (established settled w) told c) :
    (Unrivalled (S.member ()) settled.claim told ->
      Keeps settled c ∧ Writes (S.member ()) settled.claim told) ∧
    forall c', Step S c c' -> Alters (S.member ()) told c c' := by
  have hsuccessive {c c' : Cluster Unit ω Stage} (hmove : Moves S c c') :
      Successive (c.enacted S) := by
    cases hmove with
    | start _ hpermits _ | call _ _ _ _ hpermits _ | wake _ _ hpermits _ _ | turn _ _ hpermits _
    | drift hpermits _ => exact hone _ _ hpermits
  rcases holds_of_hears (P := Lasts S settled)
    (fun _ _ _ hmove hsilent h => h.move (hsuccessive hmove) hmove hsilent)
    (fun _ _ _ _ _ _ _ _ ht htask hheard hmove h => h.replied ht htask hheard hmove)
    (Lasts.established settled w) hrun with ⟨c, rfl, claim, haccounts, hlasts⟩
  constructor
  · exact fun hunrivalled => (hlasts hunrivalled).2
  · intro d hstep
    rcases moves_of_step hstep with ⟨c', hmove, rfl⟩
    exact haccounts.alters hmove

/-!
# A member and one other
-/

section

def member : Member := ⟨⟨"b"⟩, {}⟩

def held : Settled := ⟨⟨member.id.text, 0, .epoch⟩, ⟨0, 0⟩⟩

def showing (other : Registration) : Setting Unit Unit where
  member := fun _ => member
  answers := fun _ _ e answer _ => match e, answer with
    | .call (.list _), answer => answer = .ok [Storable.encode other]
    | .call (.put _ _ _), answer => answer = .ok none
    | .now, _ => True
    | _, _ => False
  notes := fun w _ => w
  drifts := fun _ _ => True
  permits := fun c _ => Successive c

variable {other : Registration}

theorem successive_alone {n : Nat} {t : Thread Unit Unit Stage} {σ : Standing} {w : Unit} :
    Successive (((established held w).moved n t σ w).enacted (showing other)) := by
  have hn {k : Nat} {u : Thread Unit Unit Task}
      (hu : (((established held w).moved n t σ w).enacted (showing other)).threads k = some u) :
      k = n := by
    rcases thread_of_enacted hu with ⟨u', hu', rfl⟩
    rcases Cluster.thread_moved hu' with ⟨hk, _⟩ | ⟨_, hnone⟩
    · exact hk
    · cases hnone
  intro k k' u u' hu hu' _ _
  rw [hn hu, hn hu']

def afterwards : Instant :=
  { Instant.epoch with second := 1, second_lt := by decide }

def rival (late : Bool) : Registration :=
  ⟨"a", 0, cond late afterwards .epoch⟩

theorem hears_rival (late : Bool) :
    heardListing (.ok [Storable.encode (rival late)]) = .ok [rival late] := by
  have hlegible : forall r, r ∈ [rival late] -> r.Legible := by
    intro r hr
    rw [List.mem_singleton.mp hr]
    refine ⟨Stored.fits_of_size (s := "a") (by decide), ?_⟩
    apply Instant.hasText_of_not_leap
    cases late with
    | false | true => rfl
  have hheard := Contents.heardListing_encode hlegible
  rw [List.map_singleton] at hheard
  exact hheard

theorem hears_heartbeat {late : Bool} {stage : Stage} {σ : Standing}
    (hresume : Resumes (showing (rival late)) () ⟨.ready 0, some held⟩ () (.checking held.claim)
      (.ok [rival late]) stage σ ()) :
    exists told, told 0 = [⟨.put member.servers.name member.id.text (Storable.encode held.claim),
        .ok none⟩, ⟨.list member.servers.name, .ok [Storable.encode (rival late)]⟩] ∧
      (forall n, n ≠ 0 -> told n = []) ∧
      Hears (showing (rival late)) (established held ()) told
        (((established held ()).moved 0 ⟨(), stage, ()⟩ σ ()).enacted (showing (rival late))) := by
  have hbegin : Begins (showing (rival late)) () ⟨.ready 0, some held⟩ () .heartbeat
      (.waiting (.refreshing held.claim)) ⟨.ready 0, some held⟩ () := .heartbeat rfl rfl
  have hnone : Hears (showing (rival late)) (established held ()) (fun _ => [])
      ((established held ()).enacted (showing (rival late))) := .start
  have hstart := hears_start (n := 0) hnone rfl (fun _ _ _ _ ht => nomatch ht) hbegin
  have hrefreshed := hears_reply hstart ⟨successive_alone, rfl⟩ rfl rfl successive_alone
    (.refreshed rfl)
  have hchecked := hears_reply hrefreshed ⟨successive_alone, rfl⟩ rfl (hears_rival late)
    successive_alone hresume
  refine ⟨_, rfl, fun n hn => ?_, hchecked⟩
  rw [Function.update_of_ne hn, Function.update_of_ne hn]

theorem hears_settling : exists told, Hears (showing (rival false)) (established held ()) told
    (((established held ()).moved 0 ⟨(), .waiting (.verifying (.renumber held.claim) ⟨1, 9⟩
      ⟨member.id.text, 1, .epoch⟩), ()⟩ ⟨.ready 0, some held⟩ ()).enacted
        (showing (rival false))) := by
  have hlost : Numbering.verdict held.claim [rival false] = .lost := by decide
  have htry : Tries (showing (rival false)) () ⟨.ready 0, some held⟩ () (.renumber held.claim) 1
      none (9 + 1) _ () := .list rfl
  have hnumber : Numbering.lowestFree ((showing (rival false)).member ()).id.text [rival false] =
      1 := by
    rw [Numbering.lowestFree_eq (by decide)]
    rfl
  have hread : (showing (rival false)).answers () () .now Instant.epoch () := trivial
  rcases hears_heartbeat (.contested hlost htry) with ⟨told, _, _, hcontested⟩
  have hlisted := hears_reply hcontested ⟨successive_alone, rfl⟩ rfl (hears_rival false)
    successive_alone (.listed hread)
  rw [hnumber] at hlisted
  have hstaked := hears_reply hlisted ⟨successive_alone, rfl⟩ rfl rfl successive_alone .staked
  exact ⟨_, hears_turn (hears_wake () rfl hstaked successive_alone) successive_alone
    (.spread rfl)⟩

theorem unrivalled_heartbeat {told : Nat → List Heard}
    (hfirst : told 0 = [⟨.put member.servers.name member.id.text (Storable.encode held.claim),
      .ok none⟩, ⟨.list member.servers.name, .ok [Storable.encode (rival true)]⟩])
    (hrest : forall n, n ≠ 0 -> told n = []) : Unrivalled member held.claim told := by
  intro n values live hmem hlive e he hnumber hserver
  by_cases hn : n = 0
  · subst hn
    rw [hfirst] at hmem
    rcases List.mem_pair.mp hmem with hput | hlist
    · cases hput
    · cases hlist
      cases hlive.symm.trans (hears_rival true)
      cases List.mem_singleton.mp he
      decide
  · rw [hrest n hn] at hmem
    cases hmem

/-- A later claim to the number changes nothing, and an earlier one displaces the member. -/
theorem displaced_by_rival :
    (exists told c, Hears (showing (rival true)) (established held ()) told c ∧
      (exists t, c.threads 0 = some t ∧ t.task = .finished .beaten) ∧
      Unrivalled member held.claim told ∧ c.standing () = ⟨.ready 0, some held⟩) ∧
    exists told c c', Hears (showing (rival false)) (established held ()) told c ∧
      Step (showing (rival false)) c c' ∧ (c.standing ()).status = .ready 0 ∧
      (c'.standing ()).status = .ready 1 ∧ Alters member told c c' := by
  constructor
  · have hverdict : Numbering.verdict held.claim [rival true] ≠ .lost := by decide
    rcases hears_heartbeat (.uncontested hverdict) with ⟨told, hfirst, hrest, hears⟩
    have hunrivalled := unrivalled_heartbeat hfirst hrest
    have hkeeps := ((displaced_by_earlier_only (fun _ _ h => h) hears).1 hunrivalled).1
    refine ⟨told, _, hears, ⟨_, rfl, rfl⟩, hunrivalled, hkeeps.undisturbed fun n t ht => ?_⟩
    rcases thread_of_enacted ht with ⟨u, hu, rfl⟩
    rcases Cluster.thread_moved hu with ⟨_, rfl⟩ | ⟨_, hnone⟩
    · exact Or.inr rfl
    · cases hnone
  · let new : Registration := ⟨member.id.text, 1, .epoch⟩
    have hresume : Resumes (showing (rival false)) () ⟨.ready 0, some held⟩ ()
        (.verifying (.renumber held.claim) ⟨1, 9⟩ new)
        (heardListing (.ok [Storable.encode (rival false)])) (.finished .beaten)
        ⟨.ready 1, some ⟨new, ⟨1, 0⟩⟩⟩ () := by
      have hverdict : Numbering.verdict new [rival false] ≠ .lost := by decide
      rw [hears_rival]
      exact .upheld hverdict rfl (.renumber rfl)
    have hlist : (showing (rival false)).answers () () (.call (.list member.servers.name))
        (.ok [Storable.encode (rival false)]) () := rfl
    rcases hears_settling with ⟨told, hsettling⟩
    have hcalled := hears_call hsettling ⟨successive_alone, hlist⟩ rfl
    have hmove : Moves (showing (rival false))
        ((established held ()).moved 0 ⟨(), .due _ _, ()⟩ _ _) _ :=
      moves_turn successive_alone hresume
    have hstep := step_of_moves hmove
    exact ⟨_, _, _, hcalled, hstep, rfl, rfl,
      (displaced_by_earlier_only (fun _ _ h => h) hcalled).2 _ hstep⟩

end

end Seniority
end Roster
