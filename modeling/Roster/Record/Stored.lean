import Roster.Bytes.Utf8
import Roster.Record
import Roster.Time.Timestamp

/-!
# The stored form of records

A record is stored as its fields in order.  A text is its byte length as a 64-bit little-endian
number and then its UTF-8 bytes; a server number is a 32-bit little-endian number; a time is the
text of its timestamp.

Reading takes a record from the front of the bytes and ignores what follows it.
-/

namespace Roster
namespace Stored

inductive Fault where
  | cutOff
  | overlong
  | notText (fault : Utf8.Fault)
  | notTime (fault : Timestamp.Fault)
deriving Repr, DecidableEq

namespace Fault

def message : Fault → String
  | cutOff => "io error: unexpected end of file"
  | overlong => "io error: "
  | notText fault => s!"string is not valid utf8: {fault.message}"
  | notTime fault => fault.message

end Fault

/-! # Writing -/

def text (s : String) : Bytes :=
  let bytes := Utf8.encode s
  Bytes.littleEndian 8 bytes.length ++ bytes

def number (n : UInt32) : Bytes :=
  Bytes.littleEndian 4 n.toNat

def time (t : Instant) : Bytes :=
  text t.text

/-! # Reading -/

def readNumber (w : Nat) (bs : Bytes) : Except Fault (Nat × Bytes) :=
  let front := bs.take w
  if front.length = w then .ok (Bytes.ofLittleEndian front, bs.drop w) else .error .cutOff

def readText (bs : Bytes) : Except Fault (String × Bytes) := do
  let (n, rest) ← readNumber 8 bs
  let front := rest.take n
  if front.length ≠ n then throw .overlong
  match Utf8.decode front with
  | .ok s => return (s, rest.drop n)
  | .error fault => throw (.notText fault)

def readTime (bs : Bytes) : Except Fault (Instant × Bytes) := do
  let (s, rest) ← readText bs
  match Timestamp.read s.toList with
  | .ok t => return (t, rest)
  | .error fault => throw (.notTime fault)

end Stored

class Storable (α : Type) where
  encode : α → Bytes
  decode : Bytes → Except Stored.Fault α

namespace Registration

def encode (r : Registration) : Bytes :=
  Stored.text r.serverId ++ (Stored.number r.number ++ Stored.time r.claimedAt)

def decode (bs : Bytes) : Except Stored.Fault Registration := do
  let (serverId, bs) ← Stored.readText bs
  let (number, bs) ← Stored.readNumber 4 bs
  let (claimedAt, _) ← Stored.readTime bs
  return { serverId, number := UInt32.ofNat number, claimedAt }

instance : Storable Registration where
  encode := encode
  decode := decode

end Registration

namespace Sighting

def encode (s : Sighting) : Bytes :=
  Stored.text s.token ++ (Stored.text s.user ++ (Stored.text s.owner ++
    Stored.time s.refreshedAt))

def decode (bs : Bytes) : Except Stored.Fault Sighting := do
  let (token, bs) ← Stored.readText bs
  let (user, bs) ← Stored.readText bs
  let (owner, bs) ← Stored.readText bs
  let (refreshedAt, _) ← Stored.readTime bs
  return { token, user, owner, refreshedAt }

instance : Storable Sighting where
  encode := encode
  decode := decode

end Sighting
end Roster
