/-!
# Fixed-width integers as bytes

`littleEndian w n` lists the `w` low bytes of `n`, least significant first, and
`ofLittleEndian` reads such a list back.  The big-endian forms are the reversed ones.
-/

namespace Roster

abbrev Bytes := List UInt8

namespace Bytes

def littleEndian : Nat → Nat → Bytes
  | 0, _ => []
  | w + 1, n => UInt8.ofNat n :: littleEndian w (n / 256)

def ofLittleEndian : Bytes → Nat
  | [] => 0
  | b :: bs => b.toNat + 256 * ofLittleEndian bs

def bigEndian (w n : Nat) : Bytes :=
  (littleEndian w n).reverse

def ofBigEndian (bs : Bytes) : Nat :=
  ofLittleEndian bs.reverse

end Bytes
end Roster
