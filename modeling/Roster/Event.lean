import Roster.Error

/-!
# Log events

What members and trackers report while they work: each event has a level, a message and fields
that are texts or numbers.
-/

namespace Roster

inductive Level where
  | error
  | warn
  | info
  | debug
deriving Repr, DecidableEq

namespace Level

def name : Level → String
  | error => "ERROR"
  | warn => "WARN"
  | info => "INFO"
  | debug => "DEBUG"

end Level

inductive MemberEvent where
  | registering
  | registrationFailed (error : Error)
  | registered (number : UInt32)
  | refreshed (number : UInt32)
  | reappeared (number : UInt32)
  | heartbeatFailed (error : RegistryError)
  | collisionCheckFailed (error : RegistryError)
  | heartbeatStopped
  | deregistered
  | claimLost (attempt : Nat)
  | settlingFailed (attempt : Nat) (error : RegistryError)
  | collision (number : UInt32)
  | renumbered (old number : UInt32)
  | renumberingFailed (error : Error) (number : UInt32)
  | renumberingInterrupted (error : Error)
  | restoringFailed (error : RegistryError)
  | withdrawalFailed (error : RegistryError)

inductive TokenEvent where
  | issued
  | updateFailed (error : RegistryError)
  | lookupFailed (error : RegistryError)
  | evictionFailed (error : RegistryError)

inductive Event where
  | member (id : ServerId) (event : MemberEvent)
  | token (value : String) (event : TokenEvent)
  | heartbeatBroken

inductive Field where
  | text (value : String)
  | number (value : Nat)
deriving Repr, DecidableEq

namespace MemberEvent

def level : MemberEvent → Level
  | registering | registered _ | deregistered | renumbered _ _ => .info
  | registrationFailed _ => .error
  | refreshed _ | heartbeatStopped | claimLost _ | renumberingInterrupted _ => .debug
  | _ => .warn

def message : MemberEvent → String
  | registering => "registering server in cluster"
  | registrationFailed _ => "server registration failed"
  | registered _ => "server registered"
  | refreshed _ => "registration refreshed"
  | reappeared _ => "registration disappeared, re-registered"
  | heartbeatFailed _ => "heartbeat failed"
  | collisionCheckFailed _ => "heartbeat collision check failed"
  | heartbeatStopped => "heartbeat stopped"
  | deregistered => "server deregistered"
  | claimLost _ => "lost server number collision"
  | settlingFailed _ _ => "registry error while settling"
  | collision _ => "server number collision, settling again"
  | renumbered _ _ => "server renumbered"
  | renumberingFailed _ _ => "renumbering failed, restoring previous registration"
  | renumberingInterrupted _ => "renumbering interrupted"
  | restoringFailed _ => "failed to restore registration"
  | withdrawalFailed _ => "failed to withdraw registration"

def fields : MemberEvent → List (String × Field)
  | registering | heartbeatStopped | deregistered => []
  | registrationFailed error | renumberingInterrupted error => [("error", .text error.message)]
  | registered number | refreshed number | reappeared number | collision number =>
      [("server_number", .number number.toNat)]
  | heartbeatFailed error | collisionCheckFailed error | restoringFailed error
  | withdrawalFailed error => [("error", .text error.message)]
  | claimLost attempt => [("attempt", .number attempt)]
  | settlingFailed attempt error =>
      [("attempt", .number attempt), ("error", .text error.message)]
  | renumbered old number =>
      [("old", .number old.toNat), ("server_number", .number number.toNat)]
  | renumberingFailed error number =>
      [("error", .text error.message), ("server_number", .number number.toNat)]

end MemberEvent

namespace TokenEvent

def level : TokenEvent → Level
  | issued => .debug
  | _ => .warn

def message : TokenEvent → String
  | issued => "issued tracking token"
  | updateFailed _ => "user tracking update failed"
  | lookupFailed _ => "user tracking lookup failed"
  | evictionFailed _ => "failed to evict expired tracking entry"

def fields : TokenEvent → List (String × Field)
  | issued => []
  | updateFailed error | lookupFailed error | evictionFailed error =>
      [("error", .text error.message)]

end TokenEvent

namespace Event

def level : Event → Level
  | member _ event => event.level
  | token _ event => event.level
  | heartbeatBroken => .warn

def message : Event → String
  | member _ event => event.message
  | token _ event => event.message
  | heartbeatBroken => "heartbeat task ended abnormally"

def fields : Event → List (String × Field)
  | member id event => ("server_id", .text id.text) :: event.fields
  | token value event => ("token", .text value) :: event.fields
  | heartbeatBroken => [("error", .text "task crashed")]

end Event
end Roster
