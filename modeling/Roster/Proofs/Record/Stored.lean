import Roster.Proofs.Bytes.Endian
import Roster.Proofs.Bytes.Utf8
import Roster.Proofs.Time.Timestamp
import Roster.Record.Stored

/-!
# Reading records back

A stored record is read back from the front of any bytes that begin with it, and when some of it is
missing at the end, nothing is read: a field says how long it is before its content, or is of a fixed
length, so a reader knows what it waits for.  Texts carry their length in eight bytes, so they must not
be longer than such a number can say.
-/

namespace Roster

/-!
# Readers
-/

namespace Stored

section

variable {α β : Type}

/-- The reader is content with these bytes at the front, and with nothing less of them.  Its result
may depend on what follows. -/
structure Reads (read : Bytes → Except Fault α) (bytes : Bytes) (result : Bytes → α) : Prop where
  whole : forall rest, read (bytes ++ rest) = .ok (result rest)
  cut : forall front, front <+: bytes -> front ≠ bytes -> exists fault, read front = .error fault

theorem Reads.exact {read : Bytes → Except Fault α} {bytes : Bytes} {result : Bytes → α}
    (h : Reads read bytes result) : read bytes = .ok (result []) := by
  have hwhole := h.whole []
  rwa [List.append_nil] at hwhole

theorem cut_append {front first second : Bytes} (h : front <+: first ++ second)
    (hne : front ≠ first ++ second) :
    (front <+: first ∧ front ≠ first) ∨
      exists rest, front = first ++ rest ∧ rest <+: second ∧ rest ≠ second := by
  rcases List.prefix_or_prefix_of_prefix h (List.prefix_append first second) with hfront | hfirst
  · by_cases heq : front = first
    · apply Or.inr
      refine ⟨[], by rw [heq, List.append_nil], List.nil_prefix, ?_⟩
      intro hnil
      rw [heq, ← hnil, List.append_nil] at hne
      exact hne rfl
    · exact Or.inl ⟨hfront, heq⟩
  · rcases hfirst with ⟨rest, rfl⟩
    apply Or.inr
    refine ⟨rest, rfl, (List.prefix_append_right_inj first).mp h, ?_⟩
    intro heq
    rw [heq] at hne
    exact hne rfl

variable {read : Bytes → Except Fault α} {bytes more : Bytes} {result : Bytes → α}
  {next : α → Except Fault β} {result' : Bytes → β}

theorem Reads.andThen (h : Reads read bytes result)
    (hnext : Reads (fun rest => next (result rest)) more result') :
    Reads (fun bs => read bs >>= next) (bytes ++ more) result' where
  whole := by
    intro rest
    rw [List.append_assoc]
    change (read (bytes ++ (more ++ rest))).bind next = _
    rw [h.whole]
    exact hnext.whole rest
  cut := by
    intro front hfront hne
    change exists fault, (read front).bind next = .error fault
    rcases cut_append hfront hne with ⟨hcut, hcut_ne⟩ | ⟨rest, rfl, hcut, hcut_ne⟩
    · rcases h.cut front hcut hcut_ne with ⟨fault, hfault⟩
      rw [hfault]
      exact ⟨fault, rfl⟩
    · rw [h.whole]
      exact hnext.cut rest hcut hcut_ne

theorem Reads.andYield (h : Reads read bytes result)
    (hnext : forall rest, next (result rest) = .ok (result' rest)) :
    Reads (fun bs => read bs >>= next) bytes result' := by
  have hnothing : Reads (fun rest => next (result rest)) [] result' := by
    constructor
    · exact hnext
    · intro front hfront hne
      exact absurd (List.prefix_nil.mp hfront) hne
  have hboth := h.andThen hnothing
  rwa [List.append_nil] at hboth

end

/-!
# Fields
-/

def Fits (s : String) : Prop :=
  (Utf8.encode s).length < 256 ^ 8

theorem fits_of_size {s : String} (h : s.utf8ByteSize < 2 ^ 64) : Fits s := by
  unfold Fits
  rw [Utf8.length_encode]
  exact h

theorem readNumber_littleEndian (w n : Nat) (rest : Bytes) :
    readNumber w (Bytes.littleEndian w n ++ rest) = .ok (n % 256 ^ w, rest) := by
  have hlen := Bytes.length_littleEndian w n
  unfold readNumber
  rw [List.take_left' hlen, List.drop_left' hlen, if_pos hlen, Bytes.ofLittleEndian_littleEndian]

theorem length_lt_of_cut {front bytes : Bytes} (h : front <+: bytes) (hne : front ≠ bytes) :
    front.length < bytes.length := by
  apply Nat.lt_of_le_of_ne h.length_le
  intro heq
  exact hne (h.eq_of_length heq)

theorem reads_number (w n : Nat) :
    Reads (readNumber w) (Bytes.littleEndian w n) fun rest => (n % 256 ^ w, rest) where
  whole := readNumber_littleEndian w n
  cut := by
    intro front hfront hne
    have hlt := length_lt_of_cut hfront hne
    rw [Bytes.length_littleEndian] at hlt
    refine ⟨.cutOff, ?_⟩
    unfold readNumber
    rw [if_neg]
    rw [List.length_take]
    omega

theorem reads_text {s : String} (h : Fits s) :
    Reads readText (text s) fun rest => (s, rest) := by
  apply (reads_number 8 (Utf8.encode s).length).andThen
  rw [Nat.mod_eq_of_lt h]
  constructor
  · intro rest
    simp [Utf8.decode_encode, pure, Except.pure]
  · intro front hfront hne
    have hlt := length_lt_of_cut hfront hne
    have hshort : (front.take (Utf8.encode s).length).length ≠ (Utf8.encode s).length := by
      rw [List.length_take]
      omega
    exact ⟨.overlong, by simp only [if_pos hshort]; rfl⟩

theorem fits_text (t : Instant) : Fits t.text := by
  have hbytes := Utf8.length_encode_ofList_le (Timestamp.write t)
  have hlen := Timestamp.length_write_le t
  change (Utf8.encode (String.ofList (Timestamp.write t))).length < 256 ^ 8
  omega

theorem reads_time (t : Instant) : Reads readTime (time t) fun rest => (t.written, rest) := by
  apply (reads_text (fits_text t)).andYield
  intro rest
  simp [Instant.text, Timestamp.read_write, pure, Except.pure]

end Stored

/-!
# Records
-/

def Registration.Fits (r : Registration) : Prop :=
  Stored.Fits r.serverId

def Registration.written (r : Registration) : Registration :=
  { r with claimedAt := r.claimedAt.written }

theorem Registration.written_eq_self {r : Registration} :
    r.written = r ↔ r.claimedAt.HasText := by
  unfold written
  cases r with
  | mk serverId number claimedAt =>
      simp only [mk.injEq, true_and]
      exact Instant.written_eq_self

theorem Registration.encode_written (r : Registration) : r.written.encode = r.encode := by
  unfold encode written Stored.time Instant.text
  rw [Timestamp.write_written]

theorem Registration.reads {r : Registration} (h : r.Fits) :
    Stored.Reads Registration.decode r.encode fun _ => r.written := by
  apply (Stored.reads_text h).andThen
  apply (Stored.reads_number 4 r.number.toNat).andThen
  apply (Stored.reads_time r.claimedAt).andYield
  intro rest
  have hnumber : r.number.toNat % 256 ^ 4 = r.number.toNat :=
    Nat.mod_eq_of_lt r.number.toNat_lt
  rw [hnumber, UInt32.ofNat_toNat]
  rfl

theorem Registration.decode_encode {r : Registration} (h : r.Fits) :
    Registration.decode r.encode = .ok r.written :=
  (Registration.reads h).exact

/-- The registration can be stored, and its time has a text of its own. -/
structure Registration.Legible (r : Registration) : Prop where
  fits : r.Fits
  hasText : r.claimedAt.HasText

theorem Registration.legible_written {r : Registration} (h : r.Fits) : r.written.Legible :=
  ⟨h, Instant.hasText_written _⟩

theorem Registration.Legible.reads {r : Registration} (h : r.Legible) :
    Stored.Reads Registration.decode r.encode fun _ => r := by
  have hreads := Registration.reads h.fits
  rwa [Registration.written_eq_self.mpr h.hasText] at hreads

theorem Registration.Legible.decode_encode {r : Registration} (h : r.Legible) :
    Registration.decode r.encode = .ok r :=
  h.reads.exact

structure Sighting.Fits (s : Sighting) : Prop where
  token : Stored.Fits s.token
  user : Stored.Fits s.user
  owner : Stored.Fits s.owner

def Sighting.written (s : Sighting) : Sighting :=
  { s with refreshedAt := s.refreshedAt.written }

theorem Sighting.written_eq_self {s : Sighting} : s.written = s ↔ s.refreshedAt.HasText := by
  unfold written
  cases s with
  | mk token user owner refreshedAt =>
      simp only [mk.injEq, true_and]
      exact Instant.written_eq_self

theorem Sighting.reads {s : Sighting} (h : s.Fits) :
    Stored.Reads Sighting.decode s.encode fun _ => s.written := by
  apply (Stored.reads_text h.token).andThen
  apply (Stored.reads_text h.user).andThen
  apply (Stored.reads_text h.owner).andThen
  apply (Stored.reads_time s.refreshedAt).andYield
  intro rest
  rfl

theorem Sighting.decode_encode {s : Sighting} (h : s.Fits) :
    Sighting.decode s.encode = .ok s.written :=
  (Sighting.reads h).exact

/-- The sighting can be stored, and its time has a text of its own. -/
structure Sighting.Legible (s : Sighting) : Prop where
  fits : s.Fits
  hasText : s.refreshedAt.HasText

theorem Sighting.Legible.reads {s : Sighting} (h : s.Legible) :
    Stored.Reads Sighting.decode s.encode fun _ => s := by
  have hreads := Sighting.reads h.fits
  rwa [Sighting.written_eq_self.mpr h.hasText] at hreads

end Roster
