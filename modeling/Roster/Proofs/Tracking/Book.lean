import Roster.Proofs.Tracking.Eviction

/-!
# The book of sightings

What trackers would answer if they kept a book of the last sighting of every token and never struck
anything out.  A lookup tells what the book says unless that is too old, and a request writes an
entry anew when it is missing, too old, or of another user.  While the registry is offline nothing is
found and nothing changes.  No store appears here.
-/

namespace Roster
namespace Bookkeeping

open Tracking

abbrev Book := String → Option Sighting

namespace Book

/-- What the book tells of a token: its sighting, unless that is older than the window. -/
def find (book : Book) (now : Instant) (window : Int) (token : String) : Option Sighting :=
  (book token).filter fun s => now.since s.refreshedAt ≤ window

/-- Whether the entry of a token is missing, older than the window, or of another user. -/
def lacks (book : Book) (user : String) (now : Instant) (window : Int) (token : String) : Bool :=
  match book token with
  | none => true
  | some s => window < now.since s.refreshedAt || s.user != user

def mark (book : Book) (t : Tracker) (user : String) (now : Instant) (tokens : List String) : Book :=
  fun token =>
    if token ∈ tokens ∧ book.lacks user now t.window token then some (written t token user now)
    else book token

/-- What may be left of the entry of a token: all of it, or nothing when it is expired. -/
inductive Leaves (book : Book) (now : Instant) (window : Int) (token : String) :
    Option Sighting → Prop where
  | kept {current} (hcurrent : current = book token) : Leaves book now window token current
  | removed {s} (hs : book token = some s) (hexpired : s.isExpired now window = true) :
      Leaves book now window token none

section

variable {book : Book} {user : String} {now : Instant} {window : Int} {token : String}
  {current : Option Sighting} {s : Sighting}

theorem lacks_of_expired (hs : book token = some s) (hexpired : s.isExpired now window = true) :
    book.lacks user now window token = true := by
  unfold lacks
  rw [hs]
  change (s.isExpired now window || s.user != user) = true
  rw [hexpired]
  rfl

theorem find_of_expired (hs : book token = some s) (hexpired : s.isExpired now window = true) :
    book.find now window token = none := by
  unfold Sighting.isExpired at hexpired
  unfold find
  rw [hs, Option.filter_some, if_neg (by simpa using hexpired)]

theorem find_of_current (hs : book token = some s) (hcurrent : s.isExpired now window = false) :
    book.find now window token = some s := by
  unfold Sighting.isExpired at hcurrent
  unfold find
  rw [hs, Option.filter_some, if_pos (by simpa using hcurrent)]

theorem Leaves.of_eq {book' : Book} (h : book.Leaves now window token current)
    (hbook : book' token = book token) : book'.Leaves now window token current := by
  cases h with
  | kept hcurrent => exact .kept (hcurrent.trans hbook.symm)
  | removed hs hexpired => exact .removed (hbook.trans hs) hexpired

theorem Leaves.eq_of_some (h : book.Leaves now window token (some s)) : book token = some s := by
  cases h with
  | kept hcurrent => exact hcurrent.symm

theorem Leaves.find_eq_none (h : book.Leaves now window token none) :
    book.find now window token = none := by
  cases h with
  | kept hcurrent =>
      unfold find
      rw [← hcurrent]
      rfl
  | removed hs hexpired => exact find_of_expired hs hexpired

theorem Leaves.needsWrite_eq (h : book.Leaves now window token current) :
    needsWrite current user now window = book.lacks user now window token := by
  cases h with
  | kept hcurrent =>
      unfold lacks
      rw [← hcurrent]
      cases current with
      | none | some s => rfl
  | removed hs hexpired =>
      rw [lacks_of_expired hs hexpired]
      rfl

end

variable {book : Book} {t : Tracker} {user : String} {now : Instant} {token : String}
  {rest : List String}

theorem mark_nil : book.mark t user now [] = book := by
  funext k
  unfold mark
  rw [if_neg fun h => (nomatch h.1)]

theorem mark_cons_of_lacks (h : book.lacks user now t.window token = true) :
    mark (Function.update book token (some (written t token user now))) t user now rest =
      book.mark t user now (token :: rest) := by
  funext k
  unfold mark
  by_cases hk : k = token
  · subst hk
    rw [Function.update_self, ite_self, if_pos ⟨List.mem_cons_self, h⟩]
  · have hlacks : (lacks (Function.update book token (some (written t token user now))) user now
        t.window k) = book.lacks user now t.window k := by
      unfold lacks
      rw [Function.update_of_ne hk]
    rw [hlacks, Function.update_of_ne hk]
    simp only [List.mem_cons, hk, false_or]

theorem mark_cons_of_not_lacks (h : book.lacks user now t.window token = false) :
    book.mark t user now rest = book.mark t user now (token :: rest) := by
  funext k
  unfold mark
  by_cases hk : k = token
  · subst hk
    rw [h, if_neg fun h => (nomatch h.2), if_neg fun h => (nomatch h.2)]
  · simp only [List.mem_cons, hk, false_or]

theorem mark_singleton_of_lacks (h : book.lacks user now t.window token = true) :
    book.mark t user now [token] = Function.update book token (some (written t token user now)) := by
  rw [← mark_cons_of_lacks h, mark_nil]

theorem mark_singleton_of_not_lacks (h : book.lacks user now t.window token = false) :
    book.mark t user now [token] = book := by
  rw [← mark_cons_of_not_lacks h, mark_nil]

theorem mark_mark (book : Book) (t : Tracker) (user : String) (now : Instant) (token : String)
    (rest : List String) :
    mark (book.mark t user now [token]) t user now rest = book.mark t user now (token :: rest) := by
  cases h : book.lacks user now t.window token with
  | true => rw [mark_singleton_of_lacks h, mark_cons_of_lacks h]
  | false => rw [mark_singleton_of_not_lacks h, mark_cons_of_not_lacks h]

end Book

/-!
# Outcomes
-/

def tally (outcome : Tracker.Outcome) (lacks : String → Bool) (tokens : List String) :
    Tracker.Outcome :=
  if tokens.any lacks then .refreshed
  else if tokens = [] then outcome else Tracker.advance outcome false

theorem tally_refreshed (lacks : String → Bool) (tokens : List String) :
    tally .refreshed lacks tokens = .refreshed := by
  unfold tally
  split
  · rfl
  · split
    · rfl
    · rfl

theorem tally_cons_of_lacks {outcome : Tracker.Outcome} {lacks : String → Bool} {token : String}
    (h : lacks token = true) (rest : List String) :
    tally outcome lacks (token :: rest) = .refreshed := by
  unfold tally
  rw [List.any_cons, h, Bool.true_or, if_pos rfl]

theorem tally_cons_of_not_lacks {outcome : Tracker.Outcome} {lacks : String → Bool}
    {token : String} (h : lacks token = false) (rest : List String) :
    tally outcome lacks (token :: rest) = tally (Tracker.advance outcome false) lacks rest := by
  have hagain : Tracker.advance (Tracker.advance outcome false) false =
      Tracker.advance outcome false := by
    cases outcome with
    | refreshed | fresh | minted _ | untracked => rfl
  unfold tally
  rw [List.any_cons, h, Bool.false_or, if_neg (List.cons_ne_nil token rest), hagain, ite_self]

theorem tally_mark (outcome : Tracker.Outcome) (book : Book) (t : Tracker) (user : String)
    (now : Instant) (token : String) (rest : List String) :
    tally (Tracker.advance outcome (book.lacks user now t.window token))
        (Book.lacks (book.mark t user now [token]) user now t.window) rest =
      tally outcome (book.lacks user now t.window) (token :: rest) := by
  cases hlacks : book.lacks user now t.window token with
  | true => exact (tally_refreshed _ rest).trans (tally_cons_of_lacks hlacks rest).symm
  | false => rw [Book.mark_singleton_of_not_lacks hlacks, tally_cons_of_not_lacks hlacks]

/-!
# Replies
-/

/-- What can be told from a result: everything but the text of a new token. -/
inductive Reply where
  | found (sighting : Option Sighting)
  | refreshed
  | fresh
  | minted
  | untracked
deriving DecidableEq

def replyOfOutcome : Tracker.Outcome → Reply
  | .refreshed => .refreshed
  | .fresh => .fresh
  | .minted _ => .minted
  | .untracked => .untracked

def replyOfResult : Result → Reply
  | .found sighting => .found sighting
  | .tracked outcome => replyOfOutcome outcome

/-!
# Turns
-/

inductive Turn (ι : Type) where
  | serve (tracker : ι) (job : Job)
  | switch (available : Bool)
  | pass (time : Nat)

def replies {ι σ : Type} (turn : Turn ι → σ → Option Reply × σ) : List (Turn ι) → σ →
    List (Option Reply)
  | [], _ => []
  | t :: rest, s => (turn t s).1 :: replies turn rest (turn t s).2

/-- A book that is kept while time passes and the registry comes and goes. -/
structure Diary where
  book : Book
  time : Nat
  available : Bool

namespace Diary

def lookup (d : Diary) (now : Instant) (t : Tracker) (token : String) : Reply × Diary :=
  (.found (if d.available then d.book.find now t.window token else none), d)

def track (d : Diary) (now : Instant) (t : Tracker) (request : Web.Request)
    (response : Web.Response) : Reply × Diary :=
  let user := request.user.getD ""
  match request.cookieValues t.cookieName with
  | [] => (if response.committed then .untracked else .minted, d)
  | tokens =>
      if d.available then
        (if tokens.any (d.book.lacks user now t.window) then .refreshed else .fresh,
          { d with book := d.book.mark t user now tokens })
      else (.untracked, d)

def serve (d : Diary) (now : Instant) (t : Tracker) : Job → Reply × Diary
  | .lookup token => d.lookup now t token
  | .track request response => d.track now t request response

def turn {ι : Type} (clock : Nat → Instant) (T : ι → Tracker) (turn : Turn ι) (d : Diary) :
    Option Reply × Diary :=
  match turn with
  | .serve i job => (d.serve (clock d.time) (T i) job).map some id
  | .switch available => (none, { d with available })
  | .pass time => (none, { d with time := d.time + time })

end Diary

end Bookkeeping
end Roster
