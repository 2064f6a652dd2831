import Roster.UniqueId

/-!
# Issuing unique ids

An issuer belongs to one server number and remembers the count of the last id it issued.  It
waits while the clock still shows that count; it takes a later count as it is; and when the
clock has stepped back it goes on counting from the last one.  So its ids strictly increase.
-/

namespace Roster

structure Issuer where
  server : UInt16
  previous : Nat
deriving Repr, DecidableEq

namespace Issuer

def start? (number : UInt32) : Option Issuer :=
  if number.toNat < UniqueId.serverRange then some ⟨UInt16.ofNat number.toNat, 0⟩ else none

def issue (issuer : Issuer) (elapsed : Nat) : UniqueId × Issuer :=
  let count := if issuer.previous < elapsed then elapsed else issuer.previous + 1
  (UniqueId.ofParts issuer.server count, { issuer with previous := count })

/-- Issues an id from a list of clock readings in milliseconds, passing over those that show the
previous count; gives the id, the issuer after it, and the readings not consumed. -/
def next? (issuer : Issuer) : List Int → Option (UniqueId × Issuer × List Int)
  | [] => none
  | reading :: rest =>
      let elapsed := UniqueId.elapsedAt reading
      if elapsed = issuer.previous then next? issuer rest
      else
        let (id, issuer) := issuer.issue elapsed
        some (id, issuer, rest)

/-- Issues `n` ids, each with the number of readings left after it. -/
def take? (issuer : Issuer) : Nat → List Int → Option (List (UniqueId × Nat))
  | 0, _ => some []
  | n + 1, readings => do
      let (id, issuer, rest) ← issuer.next? readings
      let ids ← issuer.take? n rest
      return (id, rest.length) :: ids

end Issuer
end Roster
