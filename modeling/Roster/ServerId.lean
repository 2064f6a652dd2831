import Roster.Text.Blank

/-!
# Server ids

A server is known by its runtime name, of the shape `process@host`, trimmed and with the
characters that could clash with registry keys or tracking tokens replaced by dashes.
-/

namespace Roster

structure ServerId where
  text : String
deriving Repr, DecidableEq, Hashable

namespace ServerId

inductive Fault where
  | hostName (reason : String)
  | empty
deriving Repr, DecidableEq

namespace Fault

def message : Fault → String
  | hostName reason => s!"Host name unavailable: {reason}"
  | empty => "Identity source returned an empty name"

end Fault

def isReserved (c : Char) : Bool :=
  c == '@' || c == ':' || c == '/' || Text.isBlank c

def normalize (name : List Char) : List Char :=
  (Text.trim name).map fun c => if isReserved c then '-' else c

def ofName (name : String) : Except Fault ServerId :=
  match normalize name.toList with
  | [] => .error .empty
  | cs => .ok ⟨String.ofList cs⟩

inductive Source where
  | name (text : String)
  | unavailable (reason : String)

def identify : Source → Except Fault ServerId
  | .name text => ofName text
  | .unavailable reason => .error (.hostName reason)

instance : ToString ServerId :=
  ⟨text⟩

end ServerId
end Roster
