import Roster.Bytes.Hex
import Roster.Digest.Sha1
import Roster.Region
import Roster.Web

/-!
# User tracking

A tracker maps the tokens that clients carry in a cookie to the user last seen with each and the
server that saw them.  A request without a token is handed one, which is stored only when it
comes back, so that clients that keep no cookies cannot fill the registry.  Tracking is best
effort: a failing registry makes a request look untracked.
-/

namespace Roster

structure Tracker where
  id : ServerId
  users : Region Sighting
  cookieName : String
  /-- Nanoseconds for which a sighting stays fresh. -/
  window : Int
  /-- Clock reading at which the tracker was made, in milliseconds. -/
  startedAt : Int
deriving DecidableEq

namespace Tracker

inductive Outcome where
  | refreshed
  | fresh
  | minted (token : String)
  | untracked
deriving Repr, DecidableEq

/-! # Minting tokens -/

/-- The text whose digest makes a token: no two mints of a tracker share their last part. -/
def seed (thread : Option String) (startedAt now : Int) (ticket : UInt64) : String :=
  let name := thread.getD "unnamed"
  s!"{name}:{startedAt}:{now}:{ticket}"

def token (id : ServerId) (seed : String) : String :=
  s!"{id.text}-{Bytes.toHex (Sha1.digest (Utf8.encode seed))}"

def mint (t : Tracker) : Proc String := do
  let thread ← Proc.threadName
  let now ← Proc.now
  let ticket ← Proc.ticket
  return token t.id (seed thread t.startedAt now.millis ticket)

/-! # Tracking a request -/

/-- Writes the sighting of a token anew when it is missing, stale, or of another user, and tells
whether it was written. -/
def ping (t : Tracker) (token user : String) : Proc (Except RegistryError Bool) := do
  let now ← Proc.now
  match ← t.users.get token with
  | .error e => return .error e
  | .ok current =>
      let stale :=
        match current with
        | none => true
        | some sighting => sighting.needsRefresh user now t.window
      if stale then
        match ← t.users.put token { token, user, owner := t.id.text, refreshedAt := now } with
        | .error e => return .error e
        | .ok _ => return .ok true
      else return .ok false

/-- The outcome of a request after one more of its tokens was handled. -/
def advance (outcome : Outcome) (written : Bool) : Outcome :=
  if written then .refreshed
  else
    match outcome with
    | .untracked => .fresh
    | outcome => outcome

def pingAll (t : Tracker) (user : String) : Outcome → List String → Proc Outcome
  | outcome, [] => return outcome
  | outcome, token :: rest => do
      match ← t.ping token user with
      | .ok written => t.pingAll user (advance outcome written) rest
      | .error e => do
          Proc.report (.token token (.updateFailed e))
          t.pingAll user outcome rest

/-- Tracks the user of a request by its tokens, or hands out a token when it has none and the
response can still take a cookie. -/
def track (t : Tracker) (request : Web.Request) (response : Web.Response) :
    Proc (Outcome × Web.Response) := do
  match request.cookieValues t.cookieName with
  | [] =>
      if response.committed then return (.untracked, response)
      let token ← t.mint
      let response := response.addCookie (.siteWide t.cookieName token)
      Proc.report (.token token .issued)
      return (.minted token, response)
  | tokens =>
      let outcome ← t.pingAll (request.user.getD "") .untracked tokens
      return (outcome, response)

/-! # Looking up a token -/

def lookup (t : Tracker) (token : String) : Proc (Option Sighting) := do
  match ← t.users.get token with
  | .error e =>
      Proc.report (.token token (.lookupFailed e))
      return none
  | .ok none => return none
  | .ok (some sighting) =>
      let now ← Proc.now
      if sighting.isExpired now t.window then
        match ← t.users.remove token with
        | .ok _ => return none
        | .error e =>
            Proc.report (.token token (.evictionFailed e))
            return none
      else return some sighting

end Tracker
end Roster
