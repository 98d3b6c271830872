import VelocitasFix.Journal.Impl
import VelocitasFix.Data.CircularLog
import VelocitasFix.Data.SelfDelimiting

/-!
This module contains the specification of the journal operations: what an entry looks like in the
memory map, what an append writes and what a read returns.
-/

namespace Velocitas

namespace JournalEntryHeader

@[simp]
theorem length_encode (h : JournalEntryHeader) : h.encode.length = HEADER_SIZE := by
  simp [encode, HEADER_SIZE]

@[simp]
theorem decode_encode (h : JournalEntryHeader) : decode h.encode = h := by
  have hhash : slice h.encode 0 8 = LittleEndian.encode 8 h.sessionHash.toNat := by
    simp [encode, slice]
  have hseq : slice h.encode 8 8 = LittleEndian.encode 8 h.seqNum.toNat := by
    rw [encode, List.append_assoc (_ ++ _)]
    apply slice_append_of_length
    . apply LittleEndian.length_encode
    . apply LittleEndian.length_encode
  have hlength : slice h.encode 16 4 = LittleEndian.encode 4 h.bodyLength.toNat := by
    rw [encode]
    apply slice_append_of_length
    . simp
    . apply LittleEndian.length_encode
  have hcrc : slice h.encode 20 4 = LittleEndian.encode 4 h.crc32.toNat := by
    rw [encode, ← List.append_nil (_ ++ LittleEndian.encode 4 h.crc32.toNat)]
    apply slice_append_of_length
    . simp
    . apply LittleEndian.length_encode
  rw [decode, hhash, hseq, hlength, hcrc,
    LittleEndian.decode_encode_of_lt h.sessionHash.toNat_lt,
    LittleEndian.decode_encode_of_lt h.seqNum.toNat_lt,
    LittleEndian.decode_encode_of_lt h.bodyLength.toNat_lt,
    LittleEndian.decode_encode_of_lt h.crc32.toNat_lt,
    UInt64.ofNat_toNat, UInt64.ofNat_toNat, UInt32.ofNat_toNat, UInt32.ofNat_toNat]

theorem encode_decode {bytes : Bytes} (h : bytes.length = HEADER_SIZE)
    : (decode bytes).encode = bytes := by
  rw [HEADER_SIZE] at h
  have field {offset width : Nat} (hfit : offset + width ≤ 24)
      : LittleEndian.encode width (LittleEndian.decode (slice bytes offset width))
          = slice bytes offset width := by
    have henc := LittleEndian.encode_decode (slice bytes offset width)
    rwa [length_slice (by omega)] at henc
  have bound {offset width : Nat} (hfit : offset + width ≤ 24)
      : LittleEndian.decode (slice bytes offset width) < 256 ^ width := by
    have hlt := LittleEndian.decode_lt (slice bytes offset width)
    rwa [length_slice (by omega)] at hlt
  have hall : slice bytes 0 24 = bytes := by
    rw [slice, List.drop_zero, ← h, List.take_length]
  simp only [encode, decode]
  rw [UInt64.toNat_ofNat_of_lt' (bound (by omega)), UInt64.toNat_ofNat_of_lt' (bound (by omega)),
    UInt32.toNat_ofNat_of_lt' (bound (by omega)), UInt32.toNat_ofNat_of_lt' (bound (by omega)),
    field (by omega), field (by omega), field (by omega), field (by omega),
    ← slice_add, ← slice_add, ← slice_add, hall]

theorem encode_inj {h h' : JournalEntryHeader} (heq : h.encode = h'.encode) : h = h' := by
  rw [← decode_encode h, heq, decode_encode]

end JournalEntryHeader

-- The arguments of a call of `append`.
structure JournalEntry where
  sessionHash : UInt64
  seqNum : UInt64
  body : Bytes

namespace JournalEntry

-- The length of the body is kept in a `u32`.
def Sized (e : JournalEntry) : Prop := e.body.length < 2 ^ 32

instance (e : JournalEntry) : Decidable e.Sized :=
  inferInstanceAs (Decidable (_ < _))

def header (e : JournalEntry) : JournalEntryHeader where
  sessionHash := e.sessionHash
  seqNum := e.seqNum
  bodyLength := UInt32.ofNat e.body.length
  crc32 := crc32Simple e.body

def bytes (e : JournalEntry) : Bytes := e.header.encode ++ e.body

@[simp]
theorem length_bytes (e : JournalEntry) : e.bytes.length = HEADER_SIZE + e.body.length := by
  simp [bytes]

theorem toNat_bodyLength {e : JournalEntry} (h : e.Sized)
    : e.header.bodyLength.toNat = e.body.length := by
  show (UInt32.ofNat e.body.length).toNat = e.body.length
  rw [UInt32.toNat_ofNat', Nat.mod_eq_of_lt h]

theorem ext_of_header_eq {e f : JournalEntry} (hheader : e.header = f.header)
    (hbody : e.body = f.body) : e = f := by
  have hhash : e.sessionHash = f.sessionHash := congrArg JournalEntryHeader.sessionHash hheader
  have hseq : e.seqNum = f.seqNum := congrArg JournalEntryHeader.seqNum hheader
  cases e
  cases f
  simp_all

-- The header tells where the body ends.
theorem selfDelimiting : SelfDelimiting Sized JournalEntry.bytes := by
  intro e f xs ys he hf h
  rw [bytes, bytes, List.append_assoc, List.append_assoc] at h
  cases List.append_inj h (by simp) with
  | intro hencode hrest =>
    have hheader := JournalEntryHeader.encode_inj hencode
    have hlen : e.body.length = f.body.length := by
      rw [← toNat_bodyLength he, hheader, toNat_bodyLength hf]
    exact ext_of_header_eq hheader (List.append_inj hrest hlen).1

theorem bytes_ne_nil (e : JournalEntry) : e.bytes ≠ [] := by
  intro h
  have hlen := e.length_bytes
  rw [h, HEADER_SIZE, List.length_nil] at hlen
  omega

end JournalEntry

namespace Journal

theorem readEntry_eq_some (j : Journal) (offset : Nat) (header : JournalEntryHeader) (body : Bytes)
    : j.readEntry offset = some (header, body)
        ↔ offset + HEADER_SIZE + header.bodyLength.toNat ≤ j.capacity
          ∧ JournalEntryHeader.decode (slice j.mmap.bytes offset HEADER_SIZE) = header
          ∧ slice j.mmap.bytes (offset + HEADER_SIZE) header.bodyLength.toNat = body
          ∧ crc32Simple body = header.crc32 := by
  unfold readEntry
  dsimp only
  constructor
  . intro h
    split at h
    . contradiction
    . split at h
      . contradiction
      . split at h
        . contradiction
        . rename_i _ hend hcrc
          cases h
          rw [Nat.add_sub_cancel_left] at hcrc
          rw [Nat.add_sub_cancel_left]
          exact ⟨Nat.not_lt.mp hend, rfl, rfl, Decidable.not_not.mp hcrc⟩
  . intro h
    obtain ⟨hend, rfl, rfl, hcrc⟩ := h
    rw [if_neg (by omega), if_neg (by omega), Nat.add_sub_cancel_left,
      if_neg (Decidable.not_not.mpr hcrc)]

-- An entry is read back exactly when its bytes stand at the offset and its length fits the header.
theorem readEntry_eq_some_iff (j : Journal) (offset : Nat) (e : JournalEntry)
    (hfit : offset + e.bytes.length ≤ j.capacity)
    : j.readEntry offset = some (e.header, e.body)
        ↔ e.Sized ∧ slice j.mmap.bytes offset e.bytes.length = e.bytes := by
  rw [JournalEntry.length_bytes] at hfit
  rw [JournalEntry.length_bytes, slice_add, JournalEntry.bytes, readEntry_eq_some]
  have hmem : j.mmap.bytes.length = j.capacity := j.mmap.length_eq
  have hheaderLen : (slice j.mmap.bytes offset HEADER_SIZE).length = HEADER_SIZE := by
    apply length_slice
    omega
  constructor
  . intro h
    obtain ⟨_, hheader, hbody, _⟩ := h
    have hsized : e.Sized := by
      have hle : e.body.length ≤ e.header.bodyLength.toNat := by
        rw [← hbody]
        apply List.length_take_le
      exact Nat.lt_of_le_of_lt hle e.header.bodyLength.toNat_lt
    rw [JournalEntry.toNat_bodyLength hsized] at hbody
    rw [hbody, ← hheader, JournalEntryHeader.encode_decode hheaderLen]
    exact ⟨hsized, rfl⟩
  . intro h
    cases List.append_inj h.2 (by rw [hheaderLen, JournalEntryHeader.length_encode]) with
    | intro hheader hbody =>
      rw [JournalEntry.toNat_bodyLength h.1]
      refine ⟨by omega, ?_, hbody, rfl⟩
      rw [hheader, JournalEntryHeader.decode_encode]

-- What `append` returns once the entry is written.
def returned (j : Journal) (flushed : Bool) (offset : Nat) : AppendResult :=
  if j.syncPolicy = .everyMessage ∧ ¬ flushed then .flushFailed else .ok offset

@[simp]
theorem returned_true (j : Journal) (offset : Nat) : j.returned true offset = .ok offset := by
  simp [returned]

-- What one append does to an entry that fits: it goes to the place the circular log gives it.
theorem append_of_le (j : Journal) (flushed : Bool) (e : JournalEntry)
    (hfit : e.bytes.length ≤ j.capacity)
    : ∃ j', j.append flushed e.sessionHash e.seqNum e.body
          = (j', j.returned flushed (CircularLog.place j.capacity j.writeOffset e.bytes.length))
        ∧ j'.capacity = j.capacity
        ∧ j'.syncPolicy = j.syncPolicy
        ∧ j'.writeOffset
            = CircularLog.place j.capacity j.writeOffset e.bytes.length + e.bytes.length
        ∧ j'.mmap.bytes = overwrite j.mmap.bytes
            (CircularLog.place j.capacity j.writeOffset e.bytes.length) e.bytes := by
  have hplace := @CircularLog.place_add_le j.capacity j.writeOffset _ hfit
  have hlen := e.length_bytes
  generalize hoffset : CircularLog.place j.capacity j.writeOffset e.bytes.length = offset at *
  have hif : (if j.writeOffset + (HEADER_SIZE + e.body.length) > j.capacity then 0
      else j.writeOffset) = offset := by
    rw [← hoffset, hlen]
    rfl
  have hheader : offset + e.header.encode.length ≤ j.capacity := by
    rw [JournalEntryHeader.length_encode]
    omega
  have hbody : offset + HEADER_SIZE + e.body.length ≤ j.capacity := by omega
  have hdef : JournalEntryHeader.mk e.sessionHash e.seqNum (UInt32.ofNat e.body.length)
      (crc32Simple e.body) = e.header := rfl
  unfold append
  dsimp only
  rw [hif, hdef, MmapMut.write_of_le j.mmap hheader]
  dsimp only
  rw [MmapMut.write_of_le _ hbody]
  dsimp only
  refine ⟨_, (apply_ite (Prod.mk _) _ _ _).symm, rfl, rfl, by rw [hlen], ?_⟩
  show overwrite (overwrite j.mmap.bytes offset e.header.encode) (offset + HEADER_SIZE) e.body = _
  rw [← JournalEntryHeader.length_encode e.header, overwrite_append]
  . rfl
  . rw [j.mmap.length_eq]
    exact hheader

end Journal

end Velocitas
