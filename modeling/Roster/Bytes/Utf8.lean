import Roster.Bytes.Endian

/-!
# UTF-8 text as bytes

Texts are stored as their UTF-8 bytes.  Reading refuses bytes that are no UTF-8, and the
refusal names the first ill-formed sequence: where it begins, and how many bytes of it can be
skipped, unless the text merely breaks off inside a sequence.
-/

namespace Roster
namespace Utf8

def encode (s : String) : Bytes :=
  s.toUTF8.toList

/-- The first ill-formed sequence; without a length the text ends inside a sequence. -/
structure Fault where
  index : Nat
  length : Option Nat
deriving Repr, DecidableEq

namespace Fault

def message (f : Fault) : String :=
  match f.length with
  | some n => s!"invalid utf-8 sequence of {n} bytes from index {f.index}"
  | none => s!"incomplete utf-8 byte sequence from index {f.index}"

end Fault

/-! # Finding the fault -/

/-- Number of bytes in the sequence that `b` leads, with the range its second byte must lie in. -/
def lead? (b : UInt8) : Option (Nat × UInt8 × UInt8) :=
  if 0xC2 ≤ b ∧ b ≤ 0xDF then some (2, 0x80, 0xBF)
  else if b = 0xE0 then some (3, 0xA0, 0xBF)
  else if b = 0xED then some (3, 0x80, 0x9F)
  else if 0xE1 ≤ b ∧ b ≤ 0xEF then some (3, 0x80, 0xBF)
  else if b = 0xF0 then some (4, 0x90, 0xBF)
  else if 0xF1 ≤ b ∧ b ≤ 0xF3 then some (4, 0x80, 0xBF)
  else if b = 0xF4 then some (4, 0x80, 0x8F)
  else none

/-- The fault of a sequence whose first `seen` bytes are sound and which needs `n` more
continuation bytes, the first of them between `lo` and `hi`. -/
def tailFault? (index seen : Nat) : Nat → UInt8 → UInt8 → Bytes → Option Fault
  | 0, _, _, _ => none
  | _ + 1, _, _, [] => some ⟨index, none⟩
  | n + 1, lo, hi, b :: bs =>
      if lo ≤ b ∧ b ≤ hi then tailFault? index (seen + 1) n 0x80 0xBF bs
      else some ⟨index, some seen⟩

/-- The first fault at or after `skip` further bytes; `index` is the position of the head. -/
def fault? (index : Nat) : Nat → Bytes → Option Fault
  | _, [] => none
  | skip + 1, _ :: bs => fault? (index + 1) skip bs
  | 0, b :: bs =>
      if b < 0x80 then fault? (index + 1) 0 bs
      else
        match lead? b with
        | none => some ⟨index, some 1⟩
        | some (n, lo, hi) =>
            match tailFault? index 1 (n - 1) lo hi bs with
            | some f => some f
            | none => fault? (index + 1) (n - 1) bs

def decode (bs : Bytes) : Except Fault String :=
  match String.fromUTF8? ⟨bs.toArray⟩ with
  | some s => .ok s
  | none => .error ((fault? 0 0 bs).getD ⟨bs.length, none⟩)

end Utf8
end Roster
