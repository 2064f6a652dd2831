import Roster.Time.Instant

/-!
# Records of the registry

A registration says which number a server has claimed, and when; a sighting says which user was
last seen with a tracking token, when, and by which server.

Claims to one number are ranked by the time of the claim and then by the id of the server, ids
being ordered as texts by code point.
-/

namespace Roster

structure Registration where
  serverId : String
  number : UInt32
  claimedAt : Instant
deriving DecidableEq

namespace Registration

/-- Two registrations agree when the same server holds the same number; the time of the claim
serves only to rank collisions. -/
def agrees (a b : Registration) : Bool :=
  a.serverId == b.serverId && a.number == b.number

def compareRank (a b : Registration) : Ordering :=
  (compare a.claimedAt b.claimedAt).then (compare a.serverId b.serverId)

def outranks (a b : Registration) : Bool :=
  compareRank a b == .lt

end Registration

structure Sighting where
  token : String
  user : String
  owner : String
  refreshedAt : Instant
deriving DecidableEq

namespace Sighting

def isExpired (s : Sighting) (now : Instant) (window : Int) : Bool :=
  window < now.since s.refreshedAt

def needsRefresh (s : Sighting) (user : String) (now : Instant) (window : Int) : Bool :=
  s.isExpired now window || s.user != user

end Sighting
end Roster
