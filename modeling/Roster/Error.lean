import Roster.Config
import Roster.Record.Stored
import Roster.ServerId
import Roster.Status

/-!
# Errors

What can go wrong when the registry is used, and when a cluster operation is asked for, with the
message of each.
-/

namespace Roster

inductive RegistryError where
  | unavailable (region reason : String)
  | undecodable (fault : Stored.Fault)
deriving Repr, DecidableEq

namespace RegistryError

def message : RegistryError → String
  | unavailable region reason => s!"region {region} unavailable: {reason}"
  | undecodable fault => s!"Serialization error: {fault.message}"

end RegistryError

inductive Error where
  | identity (fault : ServerId.Fault)
  | registry (error : RegistryError)
  | unsettled (attempts : UInt32)
  | invalidState (expected found : Phase)
  | notReady
  | numberOverflow (number : UInt32)
  | invalidId (fault : UniqueId.Fault)
  | config (fault : Config.Fault)
deriving Repr, DecidableEq

namespace Error

def message : Error → String
  | identity fault => s!"Identity error: {fault.message}"
  | registry error => s!"Registry unavailable: {error.message}"
  | unsettled attempts => s!"Server number did not settle after {attempts} attempts"
  | invalidState expected found =>
      s!"Invalid state: expected {expected.name}, found {found.name}"
  | notReady => "Server is not registered in the cluster yet"
  | numberOverflow number => s!"Server number {number} exceeds the unique id range"
  | invalidId fault => s!"Invalid unique id: {fault.message}"
  | config fault => s!"Configuration error: {fault.message}"

end Error
end Roster
