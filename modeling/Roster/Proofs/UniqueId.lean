import Roster.UniqueId.Issuer

/-!
# What an id is made of

An id is made of a server number and a count, and holds nothing else.  An issuer whose clock has
gone on takes the count from the clock.
-/

namespace Roster
namespace UniqueId

theorem raw_ofParts (server : UInt16) {count : Nat} (h : count < elapsedRange) :
    (ofParts server count).raw.toNat = count * serverRange + server.toNat := by
  have hserver := server.toNat_lt
  have hlt : count * serverRange + server.toNat < 2 ^ 64 := by
    unfold elapsedRange at h
    unfold serverRange
    omega
  unfold ofParts
  rw [Nat.mod_eq_of_lt h]
  exact UInt64.toNat_ofNat_of_lt' hlt

theorem server_ofParts (server : UInt16) {count : Nat} (h : count < elapsedRange) :
    (ofParts server count).server = server := by
  have hserver := server.toNat_lt
  unfold UniqueId.server
  rw [raw_ofParts server h]
  have hmod : (count * serverRange + server.toNat) % serverRange = server.toNat := by
    unfold serverRange
    omega
  rw [hmod]
  exact UInt16.ofNat_toNat

theorem elapsed_ofParts (server : UInt16) {count : Nat} (h : count < elapsedRange) :
    (ofParts server count).elapsed = count := by
  have hserver := server.toNat_lt
  unfold elapsed
  rw [raw_ofParts server h]
  unfold serverRange
  omega

theorem eq_of_parts {a b : UniqueId} (hserver : a.server = b.server)
    (helapsed : a.elapsed = b.elapsed) : a = b := by
  have hserver_toNat (id : UniqueId) : id.server.toNat = id.raw.toNat % serverRange :=
    UInt16.toNat_ofNat_of_lt' (Nat.mod_lt id.raw.toNat (by decide))
  have hmod : a.raw.toNat % serverRange = b.raw.toNat % serverRange := by
    rw [← hserver_toNat, ← hserver_toNat, hserver]
  have hraw : a.raw.toNat = b.raw.toNat := by
    rw [← Nat.div_add_mod a.raw.toNat serverRange, ← Nat.div_add_mod b.raw.toNat serverRange, hmod]
    exact congrArg (fun count => serverRange * count + _) helapsed
  rcases a with ⟨a⟩
  rcases b with ⟨b⟩
  exact congrArg UniqueId.mk (UInt64.toNat_inj.mp hraw)

def InRange (millis : Int) : Prop :=
  epochMillis ≤ millis ∧ millis < epochMillis + elapsedRange

instance (millis : Int) : Decidable (InRange millis) :=
  inferInstanceAs (Decidable (_ ∧ _))

theorem elapsedAt_lt {millis : Int} (h : InRange millis) : elapsedAt millis < elapsedRange := by
  unfold InRange at h
  unfold elapsedAt
  omega

theorem elapsedAt_mono {a b : Int} (h : a ≤ b) : elapsedAt a ≤ elapsedAt b := by
  unfold elapsedAt
  omega

theorem elapsedAt_strictMono {a b : Int} (ha : InRange a) (h : a < b) :
    elapsedAt a < elapsedAt b := by
  unfold InRange at ha
  unfold elapsedAt
  omega

theorem elapsedAt_inj {a b : Int} (ha : InRange a) (hb : InRange b)
    (h : elapsedAt a = elapsedAt b) : a = b := by
  unfold InRange at ha hb
  unfold elapsedAt at h
  omega

def stamp (seconds : Fin 60) : Instant :=
  { Instant.epoch with
    day := 14509
    second := seconds
    firstDay_le := by decide
    le_lastDay := by decide
    second_lt := Nat.lt_of_lt_of_le seconds.isLt (by decide) }

end UniqueId

namespace Issuer

theorem issue_of_lt {issuer : Issuer} {count : Nat} (h : issuer.previous < count) :
    issuer.issue count =
      (UniqueId.ofParts issuer.server count, { issuer with previous := count }) := by
  unfold issue
  rw [if_pos h]

theorem server_issue (issuer : Issuer) (count : Nat) :
    (issuer.issue count).1.server = issuer.server := by
  have hserver (count : Nat) : (UniqueId.ofParts issuer.server count).server = issuer.server := by
    have hmod := UniqueId.server_ofParts issuer.server
      (Nat.mod_lt count (by decide : 0 < UniqueId.elapsedRange))
    unfold UniqueId.ofParts at hmod ⊢
    rw [Nat.mod_mod] at hmod
    exact hmod
  exact hserver _

end Issuer
end Roster
