import Roster.Proc

/-!
# Regions of records

A region of the registry holds records of one type.  Its operations encode what they write and
decode what they are given: also the bytes that a write or a removal replaces, so that these can
fail after they have taken effect.  A listing fails on the first bytes that hold no record.
-/

namespace Roster

structure Region (α : Type) where
  name : String
deriving Repr, DecidableEq

namespace Region

variable {α : Type} [Storable α]

def decode (bytes : Bytes) : Except RegistryError α :=
  match Storable.decode bytes with
  | .ok record => .ok record
  | .error fault => .error (.undecodable fault)

def decodeOption : Option Bytes → Except RegistryError (Option α)
  | none => .ok none
  | some bytes => (decode bytes).map some

def decodeAll : List Bytes → Except RegistryError (List α)
  | [] => .ok []
  | bytes :: rest =>
      match decode bytes with
      | .error e => .error e
      | .ok record => (decodeAll rest).map (record :: ·)

def get (region : Region α) (key : String) : Proc (Except RegistryError (Option α)) := do
  match ← Proc.call (.get region.name key) with
  | .error e => return .error e
  | .ok value => return decodeOption value

def put (region : Region α) (key : String) (record : α) :
    Proc (Except RegistryError (Option α)) := do
  match ← Proc.call (.put region.name key (Storable.encode record)) with
  | .error e => return .error e
  | .ok previous => return decodeOption previous

def remove (region : Region α) (key : String) : Proc (Except RegistryError (Option α)) := do
  match ← Proc.call (.remove region.name key) with
  | .error e => return .error e
  | .ok previous => return decodeOption previous

def list (region : Region α) : Proc (Except RegistryError (List α)) := do
  match ← Proc.call (.list region.name) with
  | .error e => return .error e
  | .ok values => return decodeAll values

end Region
end Roster
