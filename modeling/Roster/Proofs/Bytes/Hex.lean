import Mathlib.Init
import Roster.Bytes.Hex

/-!
# Reading hexadecimal text back

Bytes are read back from their digits, two for each byte, so no two byte strings have the same text.
-/

namespace Roster
namespace Bytes

theorem hexValue?_hexDigit {n : Nat} (h : n < 16) : hexValue? (hexDigit n) = some n := by
  revert n
  decide

theorem ofHexDigits?_hexDigits (b : UInt8) (rest : List Char) :
    ofHexDigits? (hexDigits b ++ rest) = (ofHexDigits? rest).map (b :: ·) := by
  have hb := b.toNat_lt
  have hhigh : hexValue? (hexDigit (b.toNat / 16)) = some (b.toNat / 16) :=
    hexValue?_hexDigit (by omega)
  have hlow : hexValue? (hexDigit (b.toNat % 16)) = some (b.toNat % 16) :=
    hexValue?_hexDigit (by omega)
  have hbyte : UInt8.ofNat (16 * (b.toNat / 16) + b.toNat % 16) = b := by
    rw [Nat.div_add_mod]
    exact UInt8.ofNat_toNat
  simp only [hexDigits, List.cons_append, List.nil_append, ofHexDigits?, hhigh, hlow]
  cases ofHexDigits? rest with
  | none => rfl
  | some bs => exact congrArg (fun c => some (c :: bs)) hbyte

theorem ofHex?_toHex (bs : Bytes) : ofHex? (toHex bs) = some bs := by
  rw [ofHex?, toHex, String.toList_ofList]
  induction bs with
  | nil => rfl
  | cons b bs ih =>
      rw [List.flatMap_cons, ofHexDigits?_hexDigits, ih]
      rfl

theorem toHex_inj {bs bs' : Bytes} (h : toHex bs = toHex bs') : bs = bs' := by
  have hread := ofHex?_toHex bs
  rw [h, ofHex?_toHex] at hread
  exact (Option.some.inj hread).symm

theorem length_toHex (bs : Bytes) : (toHex bs).toList.length = 2 * bs.length := by
  rw [toHex, String.toList_ofList]
  induction bs with
  | nil => rfl
  | cons b bs ih =>
      rw [List.flatMap_cons, List.length_append, ih, List.length_cons]
      change 2 + _ = _
      omega

end Bytes
end Roster
