import Roster.Bytes.Base64Url
import Roster.Bytes.Utf8
import Roster.Text.Blank
import Roster.Time.Instant

/-!
# Unique ids

An id is a 64-bit word: its high 48 bits count the milliseconds from 2009-09-22T00:00:00Z to
the moment of issue, its low 16 bits are the number of the server that issued it.  Ids therefore
sort by time of issue, and by server within a millisecond.

The text of an id is the URL-safe base64 of its eight big-endian bytes.
-/

namespace Roster

structure UniqueId where
  raw : UInt64
deriving Repr, DecidableEq

namespace UniqueId

/-! # Layout -/

/-- Zero point of the count, 2009-09-22T00:00:00Z, in milliseconds since the Unix epoch. -/
def epochMillis : Int := 1253577600000

def serverRange : Nat := 65536

def elapsedRange : Nat := 281474976710656

/-- The count is taken modulo its range. -/
def ofParts (server : UInt16) (elapsed : Nat) : UniqueId :=
  ⟨UInt64.ofNat (elapsed % elapsedRange * serverRange + server.toNat)⟩

def server (id : UniqueId) : UInt16 :=
  UInt16.ofNat (id.raw.toNat % serverRange)

def elapsed (id : UniqueId) : Nat :=
  id.raw.toNat / serverRange

def issuedAt? (id : UniqueId) : Option Instant :=
  Instant.ofMillis? (epochMillis + id.elapsed)

/-- Milliseconds from the zero point to a reading of the clock, zero before it. -/
def elapsedAt (millis : Int) : Nat :=
  (millis - epochMillis).toNat

instance : Ord UniqueId where
  compare a b := compare a.raw b.raw

instance : LT UniqueId where
  lt a b := a.raw < b.raw

instance : LE UniqueId where
  le a b := a.raw ≤ b.raw

instance (a b : UniqueId) : Decidable (a < b) :=
  inferInstanceAs (Decidable (a.raw < b.raw))

instance (a b : UniqueId) : Decidable (a ≤ b) :=
  inferInstanceAs (Decidable (a.raw ≤ b.raw))

/-! # Text -/

inductive Fault where
  | encoding (fault : Base64Url.Fault)
  | wrongLength (count : Nat)
deriving Repr, DecidableEq

namespace Fault

def message : Fault → String
  | encoding fault => fault.message
  | wrongLength count => s!"expected 8 bytes, got {count}"

end Fault

def encode (id : UniqueId) : List Char :=
  Base64Url.encode (Bytes.bigEndian 8 id.raw.toNat)

def text (id : UniqueId) : String :=
  String.ofList id.encode

def parse (s : String) : Except Fault UniqueId :=
  match Base64Url.decode (Utf8.encode (String.ofList (Text.trim s.toList))) with
  | .error fault => .error (.encoding fault)
  | .ok bytes =>
      if bytes.length = 8 then .ok ⟨UInt64.ofNat (Bytes.ofBigEndian bytes)⟩
      else .error (.wrongLength bytes.length)

instance : ToString UniqueId :=
  ⟨text⟩

end UniqueId
end Roster
