import Roster.Bytes.Endian

/-!
# URL-safe base64 without padding

Three bytes are written as four symbols of six bits; a last group of one or two bytes takes two
or three symbols, whose spare low bits are zero.  Reading is strict: it refuses padding, symbols
outside the alphabet, impossible lengths, and spare bits that are set, so that each byte string
has one text.

A refusal names the first fault found, and the order of the search is part of the format: all
groups of eight bytes but the last are searched first, then the last group with its padding,
then the padding itself, then the spare bits.
-/

namespace Roster
namespace Base64Url

/-! # Symbols -/

def symbol (n : Nat) : Char :=
  if n < 26 then Char.ofNat (65 + n)
  else if n < 52 then Char.ofNat (71 + n)
  else if n < 62 then Char.ofNat (n - 4)
  else if n = 62 then '-'
  else '_'

def value? (b : UInt8) : Option Nat :=
  let n := b.toNat
  if 65 ≤ n ∧ n ≤ 90 then some (n - 65)
  else if 97 ≤ n ∧ n ≤ 122 then some (n - 71)
  else if 48 ≤ n ∧ n ≤ 57 then some (n + 4)
  else if n = 45 then some 62
  else if n = 95 then some 63
  else none

/-! # Writing -/

def sextets : Bytes → List Nat
  | a :: b :: c :: rest =>
      a.toNat / 4 :: (a.toNat % 4 * 16 + b.toNat / 16) ::
        (b.toNat % 16 * 4 + c.toNat / 64) :: c.toNat % 64 :: sextets rest
  | [a, b] => [a.toNat / 4, a.toNat % 4 * 16 + b.toNat / 16, b.toNat % 16 * 4]
  | [a] => [a.toNat / 4, a.toNat % 4 * 16]
  | [] => []

def encode (bs : Bytes) : List Char :=
  (sextets bs).map symbol

/-! # Reading -/

inductive Fault where
  | invalidByte (byte : UInt8) (offset : Nat)
  | leftover
  | padding
  | lastSymbol (byte : UInt8) (offset : Nat)
deriving Repr, DecidableEq

namespace Fault

def message : Fault → String
  | invalidByte b n => s!"Invalid byte {b.toNat}, offset {n}."
  | leftover => "Encoded text cannot have a 6-bit remainder."
  | padding => "Invalid padding"
  | lastSymbol b n => s!"Invalid last symbol {b.toNat}, offset {n}."

end Fault

def pad : UInt8 := 61

/-- Symbol values of the bytes from `offset` on, where padding is outside the alphabet too. -/
def plainValues (offset : Nat) : Bytes → Except Fault (List Nat)
  | [] => .ok []
  | b :: bs =>
      match value? b with
      | none => .error (.invalidByte b offset)
      | some v => (plainValues (offset + 1) bs).map (v :: ·)

/-- Symbol values of the last group.  `i` counts its bytes and `padAt` is the offset of its first
padding byte; padding may stand only in the second half of a quantum, and nothing may follow
it. -/
def lastValues (start i : Nat) (padAt : Option Nat) : Bytes → Except Fault (List Nat)
  | [] => if padAt.isSome then .error .padding else .ok []
  | b :: bs =>
      if b = pad then
        if i % 4 < 2 then .error (.invalidByte pad (padAt.getD (start + i)))
        else lastValues start (i + 1) (padAt <|> some (start + i)) bs
      else
        match padAt with
        | some n => .error (.invalidByte pad n)
        | none =>
            match value? b with
            | none => .error (.invalidByte b (start + i))
            | some v => (lastValues start (i + 1) none bs).map (v :: ·)

/-- The bytes that a list of six-bit values holds; spare bits are dropped. -/
def ofSextets : List Nat → Bytes
  | a :: b :: c :: d :: rest =>
      UInt8.ofNat (a * 4 + b / 16) :: UInt8.ofNat (b % 16 * 16 + c / 4) ::
        UInt8.ofNat (c % 4 * 64 + d) :: ofSextets rest
  | [a, b, c] => [UInt8.ofNat (a * 4 + b / 16), UInt8.ofNat (b % 16 * 16 + c / 4)]
  | [a, b] => [UInt8.ofNat (a * 4 + b / 16)]
  | _ => []

def spareBitsZero (vs : List Nat) : Bool :=
  match vs.length % 4, vs.getLast? with
  | 2, some v => v % 16 == 0
  | 3, some v => v % 4 == 0
  | _, _ => true

def decode (text : Bytes) : Except Fault Bytes := do
  let n := text.length
  let last := text.getLast?.getD 0
  if n % 4 = 1 then
    if last ≠ pad ∧ (value? last).isNone then throw (.invalidByte last (n - 1))
    else throw .leftover
  let body := (n - 1) / 8 * 8
  let front ← plainValues 0 (text.take body)
  let back ← lastValues body 0 none (text.drop body)
  let values := front ++ back
  if spareBitsZero values then return ofSextets values
  else throw (.lastSymbol last (n - 1))

end Base64Url
end Roster
