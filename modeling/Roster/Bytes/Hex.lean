import Roster.Bytes.Endian

/-!
# Hexadecimal text of bytes

Two lower-case digits per byte.  Reading takes digits of either case and nothing else.
-/

namespace Roster
namespace Bytes

def hexDigit (n : Nat) : Char :=
  if n < 10 then Char.ofNat (48 + n) else Char.ofNat (87 + n)

def hexDigits (b : UInt8) : List Char :=
  [hexDigit (b.toNat / 16), hexDigit (b.toNat % 16)]

def toHex (bs : Bytes) : String :=
  String.ofList (bs.flatMap hexDigits)

def hexValue? (c : Char) : Option Nat :=
  if '0' ≤ c ∧ c ≤ '9' then some (c.toNat - 48)
  else if 'a' ≤ c ∧ c ≤ 'f' then some (c.toNat - 87)
  else if 'A' ≤ c ∧ c ≤ 'F' then some (c.toNat - 55)
  else none

def ofHexDigits? : List Char → Option Bytes
  | [] => some []
  | [_] => none
  | h :: l :: rest => do
      let high ← hexValue? h
      let low ← hexValue? l
      let bs ← ofHexDigits? rest
      return UInt8.ofNat (16 * high + low) :: bs

def ofHex? (s : String) : Option Bytes :=
  ofHexDigits? s.toList

end Bytes
end Roster
