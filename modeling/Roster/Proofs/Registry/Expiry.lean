import Mathlib.Data.Finmap
import Roster.Proofs.Registry.Shelf

/-!
# Expiry

A store keeps expired values until their region is next used, and counts values without sweeping any
out.  Beside it stands a plain map from regions and keys to what was last put there, and when.  Nothing
is swept out of the map: an entry can be seen as long as it is not older than the time to live, and
that is all that there is to expiry.

A store answers every history of requests as the map does.  The two are kept together by what can be
seen in them, which as time passes shrinks in both alike.
-/

namespace Roster
namespace Expiry

inductive Request where
  | call (c : Call)
  | count (region : String)
  | isEmpty (region : String)
  | setAvailable (on : Bool)
  | pass (time : Nat)

/-- What is answered; the values of a region come in no particular order. -/
inductive Reply where
  | refused (e : RegistryError)
  | value (bytes : Option Bytes)
  | values (all : Multiset Bytes)
  | count (n : Nat)
  | isEmpty (b : Bool)
  | done
deriving DecidableEq

def Request.Writes (region key : String) : Request → Prop
  | call (.put r k _) | call (.remove r k) => r = region ∧ k = key
  | _ => False

def Reply.ofAnswer : (c : Call) → Except RegistryError c.Answer → Reply
  | _, .error e => refused e
  | .get _ _, .ok bytes | .put _ _ _, .ok bytes | .remove _ _, .ok bytes => value bytes
  | .list _, .ok all => values all

section

variable {σ : Type} (serve : Request → σ → Reply × σ)

def replies : List Request → σ → List Reply
  | [], _ => []
  | request :: rest, s => (serve request s).1 :: replies rest (serve request s).2

def after (history : List Request) (s : σ) : σ :=
  history.foldl (fun s request => (serve request s).2) s

end

/-!
# Stores in time
-/

structure Timed where
  store : Store
  now : Nat

namespace Timed

def new (timeToLive : Option Nat) (now : Nat) : Timed :=
  ⟨{ timeToLive }, now⟩

def answer (c : Call) (s : Timed) : Reply × Timed :=
  (.ofAnswer c (s.store.answer s.now c).1, { s with store := (s.store.answer s.now c).2 })

def serve (request : Request) (s : Timed) : Reply × Timed :=
  match request with
  | .call c => s.answer c
  | .count region => (.count (s.store.count s.now region), s)
  | .isEmpty region => (.isEmpty (s.store.isEmpty s.now region), s)
  | .setAvailable on => (.done, { s with store := { s.store with available := on } })
  | .pass time => (.done, { s with now := s.now + time })

end Timed

/-!
# Expiring maps
-/

/-- What was last put under a region and a key, and when. -/
structure Plain where
  entries : Finmap fun _ : String × String => Stored.Value
  timeToLive : Option Nat
  available : Bool
  now : Nat

namespace Plain

def new (timeToLive : Option Nat) (now : Nat) : Plain :=
  ⟨∅, timeToLive, true, now⟩

def atTime (p : Plain) (now : Nat) : Plain :=
  { p with now }

def shows (p : Plain) (value : Stored.Value) : Bool :=
  match p.timeToLive with
  | none => true
  | some ttl => p.now - value.writtenAt ≤ ttl

def seen (p : Plain) (region key : String) : Option Stored.Value :=
  (p.entries.lookup (region, key)).filter p.shows

def find (p : Plain) (region key : String) : Option Bytes :=
  (p.seen region key).map (·.bytes)

def values (p : Plain) (region : String) : Multiset Bytes :=
  (p.entries.entries.filter fun e => e.1.1 = region ∧ p.shows e.2).map (·.2.bytes)

def answer (c : Call) (p : Plain) : Reply × Plain :=
  if p.available then
    match c with
    | .get region key => (.value (p.find region key), p)
    | .put region key bytes =>
        (.value (p.find region key),
          { p with entries := p.entries.insert (region, key) ⟨bytes, p.now⟩ })
    | .remove region key =>
        (.value (p.find region key), { p with entries := p.entries.erase (region, key) })
    | .list region => (.values (p.values region), p)
  else (.refused (.unavailable c.region Store.offline), p)

def serve (request : Request) (p : Plain) : Reply × Plain :=
  match request with
  | .call c => p.answer c
  | .count region => (.count (p.values region).card, p)
  | .isEmpty region => (.isEmpty (p.values region = 0), p)
  | .setAvailable on => (.done, { p with available := on })
  | .pass time => (.done, p.atTime (p.now + time))

theorem shows_of_later {p : Plain} {later : Nat} (h : p.now ≤ later) {value : Stored.Value}
    (hshows : (p.atTime later).shows value = true) : p.shows value = true := by
  unfold shows at hshows ⊢
  cases httl : p.timeToLive with
  | none => rfl
  | some ttl =>
      change (p.atTime later).timeToLive = some ttl at httl
      rw [httl] at hshows
      simp only [decide_eq_true_eq] at hshows ⊢
      exact Nat.le_trans (Nat.sub_le_sub_right h _) hshows

theorem seen_later (p : Plain) {later : Nat} (h : p.now ≤ later) (region key : String) :
    (p.atTime later).seen region key =
      (p.seen region key).filter (p.atTime later).shows := by
  unfold seen
  rw [Option.filter_filter]
  congr 1
  funext value
  cases hshows : (p.atTime later).shows value with
  | false => simp
  | true => simp [shows_of_later h hshows]

theorem seen_insert (p : Plain) (region key : String) (bytes : Bytes) (r k : String) :
    ({ p with entries := p.entries.insert (region, key) ⟨bytes, p.now⟩ } : Plain).seen r k =
      if r = region ∧ k = key then some ⟨bytes, p.now⟩ else p.seen r k := by
  unfold seen
  by_cases h : r = region ∧ k = key
  · rcases h with ⟨rfl, rfl⟩
    rw [if_pos ⟨rfl, rfl⟩, Finmap.lookup_insert]
    apply Option.filter_eq_some_iff.mpr
    constructor
    · rfl
    · unfold shows
      cases p.timeToLive with
      | none => rfl
      | some ttl => simp
  · have hne : (r, k) ≠ (region, key) := by
      intro heq
      exact h (Prod.mk.inj heq)
    rw [if_neg h, Finmap.lookup_insert_of_ne _ hne]
    rfl

theorem seen_erase (p : Plain) (region key : String) (r k : String) :
    ({ p with entries := p.entries.erase (region, key) } : Plain).seen r k =
      if r = region ∧ k = key then none else p.seen r k := by
  unfold seen
  by_cases h : r = region ∧ k = key
  · rcases h with ⟨rfl, rfl⟩
    rw [if_pos ⟨rfl, rfl⟩, Finmap.lookup_erase]
    rfl
  · have hne : (r, k) ≠ (region, key) := by
      intro heq
      exact h (Prod.mk.inj heq)
    rw [if_neg h, Finmap.lookup_erase_ne hne]
    rfl

theorem exists_answer (p : Plain) (c : Call) :
    exists entries, (p.answer c).2 = { p with entries } ∧
      forall region key, ¬ Request.Writes region key (.call c) ->
        entries.lookup (region, key) = p.entries.lookup (region, key) := by
  unfold answer
  by_cases havailable : p.available = true
  · rw [if_pos havailable]
    cases c with
    | get r k | list r => exact ⟨p.entries, rfl, fun _ _ _ => rfl⟩
    | put r k bytes =>
        refine ⟨_, rfl, ?_⟩
        intro region key h
        apply Finmap.lookup_insert_of_ne
        intro heq
        cases heq
        exact h ⟨rfl, rfl⟩
    | remove r k =>
        refine ⟨_, rfl, ?_⟩
        intro region key h
        apply Finmap.lookup_erase_ne
        intro heq
        cases heq
        exact h ⟨rfl, rfl⟩
  · rw [if_neg havailable]
    exact ⟨p.entries, rfl, fun _ _ _ => rfl⟩

theorem seen_serve (p : Plain) {request : Request} {region key : String}
    (h : ¬ request.Writes region key) (now : Nat) :
    ((p.serve request).2.atTime now).seen region key =
      (p.atTime now).seen region key := by
  cases request with
  | call c =>
      rcases p.exists_answer c with ⟨entries, hanswer, hentries⟩
      change ((p.answer c).2.atTime now).seen region key = _
      rw [hanswer]
      exact congrArg (Option.filter (p.atTime now).shows) (hentries region key h)
  | count r | isEmpty r | setAvailable on | pass time => rfl

theorem now_le_serve (p : Plain) (request : Request) : p.now ≤ (p.serve request).2.now := by
  cases request with
  | call c =>
      rcases p.exists_answer c with ⟨entries, hanswer, -⟩
      change p.now ≤ (p.answer c).2.now
      rw [hanswer]
  | count r | isEmpty r | setAvailable on => exact Nat.le_refl _
  | pass time => exact Nat.le_add_right _ _

end Plain

/-!
# Stores beside maps
-/

/-- The same can be seen in a store and in a map. -/
structure Alike (s : Timed) (p : Plain) : Prop where
  now : s.now = p.now
  timeToLive : s.store.timeToLive = p.timeToLive
  available : s.store.available = p.available
  seen : forall region key, s.store.shelf s.now region key = p.seen region key

section

variable {s : Timed} {p : Plain}

theorem alike_new (timeToLive : Option Nat) (now : Nat) :
    Alike (.new timeToLive now) (.new timeToLive now) where
  now := rfl
  timeToLive := rfl
  available := rfl
  seen := by
    intro region key
    unfold Timed.new Plain.new Plain.seen
    rw [Store.shelf_eq, Std.TreeMap.getD_emptyc, Std.TreeMap.getElem?_emptyc, Finmap.lookup_empty]
    rfl

theorem Alike.lives_eq (h : Alike s p) (now : Nat) :
    s.store.lives now = (p.atTime now).shows := by
  funext value
  unfold Store.lives Plain.shows
  rw [h.timeToLive]
  rfl

theorem Alike.seen_later (h : Alike s p) {later : Nat} (hlater : s.now ≤ later)
    (region key : String) :
    s.store.shelf later region key = (p.atTime later).seen region key := by
  rw [Store.shelf_later s.store hlater, h.seen, h.lives_eq]
  rw [h.now] at hlater
  exact (p.seen_later hlater region key).symm

theorem Alike.values_eq (h : Alike s p) (region : String) :
    (((s.store.live s.now region).toList.map (·.2.bytes) : List Bytes) : Multiset Bytes) =
      p.values region := by
  let shown : Multiset (String × Stored.Value) :=
    (p.entries.entries.filter fun e => e.1.1 = region ∧ p.shows e.2).map fun e => (e.1.2, e.2)
  have hkeys : ((s.store.live s.now region).toList.map Prod.fst).Nodup := by
    rw [Std.TreeMap.map_fst_toList_eq_keys]
    exact Std.TreeMap.nodup_keys
  have hshown : shown.Nodup := by
    apply Multiset.Nodup.map_on
    · rintro ⟨⟨r, k⟩, v⟩ he ⟨⟨r', k'⟩, v'⟩ he' heq
      have hr := (Multiset.mem_filter.mp he).2.1
      have hr' := (Multiset.mem_filter.mp he').2.1
      cases hr
      cases hr'
      cases heq
      rfl
    · exact p.entries.nodupKeys.nodup.filter _
  have hpairs : (((s.store.live s.now region).toList : List _) : Multiset _) = shown := by
    apply (Multiset.Nodup.ext (Multiset.coe_nodup.mpr hkeys.of_map) hshown).mpr
    rintro ⟨key, value⟩
    have hseen := h.seen region key
    rw [Multiset.mem_coe, Std.TreeMap.mem_toList_iff_getElem?_eq_some]
    change s.store.shelf s.now region key = some value ↔ _
    rw [hseen]
    unfold Plain.seen
    rw [Option.filter_eq_some_iff, Finmap.lookup_eq_some_iff, Multiset.mem_map]
    constructor
    · rintro ⟨hmem, hshows⟩
      exact ⟨⟨(region, key), value⟩, Multiset.mem_filter.mpr ⟨hmem, rfl, hshows⟩, rfl⟩
    · rintro ⟨⟨⟨r, k⟩, v⟩, hmem, heq⟩
      rcases Multiset.mem_filter.mp hmem with ⟨hentry, hr, hshows⟩
      cases hr
      cases heq
      exact ⟨hentry, hshows⟩
  calc (((s.store.live s.now region).toList.map (·.2.bytes) : List Bytes) : Multiset Bytes)
      = ((s.store.live s.now region).toList : Multiset (String × Stored.Value)).map (·.2.bytes) :=
        (Multiset.map_coe _ _).symm
    _ = shown.map (·.2.bytes) := by rw [hpairs]
    _ = p.values region := Multiset.map_map _ _ _

theorem Alike.count_eq (h : Alike s p) (region : String) :
    s.store.count s.now region = (p.values region).card := by
  rw [← h.values_eq region, Multiset.coe_card, List.length_map, Std.TreeMap.length_toList]
  rfl

theorem Alike.kept (h : Alike s p) {region : String} {store' : Store}
    (hkept : Store.Kept region s.store store')
    {entries : Finmap fun _ : String × String => Stored.Value}
    (hregion : forall key, store'.shelf s.now region key =
      ({ p with entries } : Plain).seen region key)
    (helsewhere : forall r, r ≠ region -> forall key,
      ({ p with entries } : Plain).seen r key = p.seen r key) :
    Alike { s with store := store' } { p with entries } where
  now := h.now
  timeToLive := hkept.timeToLive.trans h.timeToLive
  available := hkept.available.trans h.available
  seen := by
    intro r key
    by_cases hr : r = region
    · rw [hr]
      exact hregion key
    · rw [helsewhere r hr key, ← h.seen r key]
      exact congrFun (Store.shelf_congr hkept.timeToLive (hkept.elsewhere r hr) s.now) key

theorem Alike.answer (h : Alike s p) (c : Call) :
    (s.answer c).1 = (p.answer c).1 ∧ Alike (s.answer c).2 (p.answer c).2 := by
  have hfind (region key : String) : (s.store.shelf s.now region key).map (·.bytes) =
      p.find region key := by
    unfold Plain.find
    rw [h.seen]
  unfold Timed.answer Plain.answer
  by_cases havailable : p.available = true
  · have hstore : s.store.available = true := h.available.trans havailable
    rw [if_pos havailable]
    cases c with
    | get region key =>
        rcases Store.answer_get hstore s.now region key with ⟨store', hanswer, hkept, hshelf⟩
        simp only [hanswer, hfind]
        constructor
        · rfl
        · apply h.kept hkept
          · intro k
            rw [hshelf]
            exact h.seen region k
          · exact fun _ _ _ => rfl
    | put region key bytes =>
        rcases Store.answer_put hstore s.now region key bytes with ⟨store', hanswer, hkept, hshelf⟩
        simp only [hanswer, hfind]
        constructor
        · rfl
        · apply h.kept hkept
          · intro k
            rw [hshelf, p.seen_insert]
            by_cases hk : k = key
            · rw [hk, Function.update_self, if_pos ⟨rfl, rfl⟩, h.now]
            · rw [Function.update_of_ne hk, if_neg fun heq => hk heq.2]
              exact h.seen region k
          · intro r hr k
            rw [p.seen_insert, if_neg fun heq => hr heq.1]
    | remove region key =>
        rcases Store.answer_remove hstore s.now region key with ⟨store', hanswer, hkept, hshelf⟩
        simp only [hanswer, hfind]
        constructor
        · rfl
        · apply h.kept hkept
          · intro k
            rw [hshelf, p.seen_erase]
            by_cases hk : k = key
            · rw [hk, Function.update_self, if_pos ⟨rfl, rfl⟩]
            · rw [Function.update_of_ne hk, if_neg fun heq => hk heq.2]
              exact h.seen region k
          · intro r hr k
            rw [p.seen_erase, if_neg fun heq => hr heq.1]
    | list region =>
        constructor
        · have hlive := h.values_eq region
          unfold Store.answer
          rw [if_neg (by rw [hstore]; exact Bool.false_ne_true)]
          exact congrArg Reply.values hlive
        · rcases Store.answer_list hstore s.now region with
            ⟨keys, store', hanswer, -, -, hkept, hshelf⟩
          simp only [hanswer]
          apply h.kept hkept
          · intro k
            rw [hshelf]
            exact h.seen region k
          · exact fun _ _ _ => rfl
  · have hoffline : s.store.available = false := by
      rw [h.available]
      exact Bool.eq_false_iff.mpr havailable
    rw [if_neg havailable, Store.answer_of_offline hoffline]
    exact ⟨rfl, h⟩

theorem Alike.serve (h : Alike s p) (request : Request) :
    (s.serve request).1 = (p.serve request).1 ∧ Alike (s.serve request).2 (p.serve request).2 := by
  cases request with
  | call c => exact h.answer c
  | count region => exact ⟨congrArg Reply.count (h.count_eq region), h⟩
  | isEmpty region =>
      constructor
      · have hempty : s.store.isEmpty s.now region = decide (p.values region = 0) := by
          unfold Store.isEmpty
          rw [h.count_eq, Bool.eq_iff_iff, beq_iff_eq, decide_eq_true_eq, Multiset.card_eq_zero]
        exact congrArg Reply.isEmpty hempty
      · exact h
  | setAvailable on => exact ⟨rfl, h.now, h.timeToLive, rfl, h.seen⟩
  | pass time =>
      constructor
      · rfl
      · constructor
        · exact congrArg (· + time) h.now
        · exact h.timeToLive
        · exact h.available
        · intro region key
          have hseen := h.seen_later (Nat.le_add_right s.now time) region key
          rw [h.now] at hseen
          exact (congrArg (s.store.shelf · region key) (congrArg (· + time) h.now)).trans hseen

theorem Alike.replies_eq (h : Alike s p) (history : List Request) :
    replies Timed.serve history s = replies Plain.serve history p := by
  induction history generalizing s p with
  | nil => rfl
  | cons request rest ih =>
      rcases h.serve request with ⟨hreply, hnext⟩
      exact congrArg₂ List.cons hreply (ih hnext)

theorem Alike.after (h : Alike s p) (history : List Request) :
    Alike (after Timed.serve history s) (after Plain.serve history p) := by
  induction history generalizing s p with
  | nil => exact h
  | cons request rest ih => exact ih (h.serve request).2

theorem Alike.visible_eq (h : Alike s p) {later : Nat} (hlater : s.now ≤ later)
    (region key : String) :
    s.store.visible later region key = (p.atTime later).find region key := by
  unfold Store.visible Plain.find
  rw [h.seen_later hlater]

theorem Alike.visible_serve (h : Alike s p) {request : Request} {region key : String}
    (hwrites : ¬ request.Writes region key) {later : Nat}
    (hlater : (s.serve request).2.now ≤ later) :
    (s.serve request).2.store.visible later region key = s.store.visible later region key := by
  have hnext := (h.serve request).2
  have hnow : s.now ≤ later := by
    have hle := p.now_le_serve request
    rw [← h.now, ← hnext.now] at hle
    exact Nat.le_trans hle hlater
  rw [hnext.visible_eq hlater, h.visible_eq hnow]
  exact congrArg (Option.map (·.bytes)) (p.seen_serve hwrites later)

end

/-- Whatever the history of requests to a new store, every answer is that of the expiring map.  A
request never changes what is seen under other keys, now or later, and a store that is switched off
refuses every call and stays as it is. -/
theorem answers_as_expiring_map (timeToLive : Option Nat) (start : Nat) (history : List Request) :
    replies Timed.serve history (.new timeToLive start) =
        replies Plain.serve history (.new timeToLive start) ∧
      let s := after Timed.serve history (.new timeToLive start)
      (forall (request : Request) (region key : String), ¬ request.Writes region key ->
        forall later, (s.serve request).2.now ≤ later ->
          (s.serve request).2.store.visible later region key =
            s.store.visible later region key) ∧
      (s.store.available = false -> forall c : Call,
        s.serve (.call c) = (.refused (.unavailable c.region Store.offline), s)) := by
  have hnew := alike_new timeToLive start
  refine ⟨hnew.replies_eq history, ?_, ?_⟩
  · intro request region key hwrites later hlater
    exact (hnew.after history).visible_serve hwrites hlater
  · intro hoffline c
    change Timed.answer c _ = _
    unfold Timed.answer
    rw [Store.answer_of_offline hoffline]
    rfl

/-- Of two values one is written again in time, and then the store is switched off. -/
def upkeep : List Request :=
  [.call (.put "r" "kept" [1]), .call (.put "r" "dropped" [2]), .pass 6, .call (.put "r" "kept" [3]),
    .pass 6, .count "r", .call (.get "r" "kept"), .call (.get "r" "dropped"), .call (.list "r"),
    .setAvailable false, .call (.remove "r" "kept"), .isEmpty "r"]

theorem upkeep_answered :
    replies Timed.serve upkeep (.new (some 10) 0) =
        [.value none, .value none, .done, .value (some [1]), .done, .count 1, .value (some [3]),
          .value none, .values {[3]}, .done, .refused (.unavailable "r" Store.offline),
          .isEmpty false] ∧
      let s := after Timed.serve upkeep (.new (some 10) 0)
      (Timed.serve (.call (.remove "r" "dropped")) s).2.store.visible s.now "r" "kept" =
          s.store.visible s.now "r" "kept" ∧
        s.serve (.call (.list "r")) = (.refused (.unavailable "r" Store.offline), s) := by
  rcases answers_as_expiring_map (some 10) 0 upkeep with ⟨hreplies, hkept, hrefused⟩
  refine ⟨hreplies.trans (by decide +kernel), ?_, hrefused rfl (.list "r")⟩
  exact hkept (.call (.remove "r" "dropped")) "r" "kept" (fun h => absurd h.2 (by decide)) _
    (Nat.le_refl _)

end Expiry
end Roster
