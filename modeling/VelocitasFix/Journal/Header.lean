import VelocitasFix.Journal.ReadBack

/-!
This module contains what becomes of an entry when one byte of its header changes: the CRC32 is that
of the body, so it says nothing about the session and the sequence number.
-/

namespace Velocitas

theorem slice_overwrite_of_inside {bytes data : Bytes} {offset start length : Nat}
    (h : start + data.length ≤ length) (hfit : offset + length ≤ bytes.length)
    : slice (overwrite bytes (offset + start) data) offset length
        = overwrite (slice bytes offset length) start data := by
  have hhead : (bytes.take (offset + start)).drop offset = (bytes.drop offset).take start := by
    rw [List.drop_take, Nat.add_sub_cancel_left]
  have hlen : ((bytes.drop offset).take start ++ data).length = start + data.length := by
    rw [List.length_append, List.length_take, List.length_drop]
    omega
  have hdrop : (overwrite bytes (offset + start) data).drop offset
      = (bytes.drop offset).take start ++ data
        ++ (bytes.drop offset).drop (start + data.length) := by
    rw [overwrite, List.append_assoc, List.drop_append_of_le_length, hhead, List.append_assoc,
      List.drop_drop, Nat.add_assoc]
    rw [List.length_take]
    omega
  rw [slice, hdrop, List.take_append, List.take_of_length_le (by omega), hlen, overwrite, slice,
    List.take_take, Nat.min_eq_left (by omega), List.drop_take]

namespace JournalEntryHeader

-- The header with the byte at index `i` of its encoding replaced by `b`.
def alter (h : JournalEntryHeader) (i : Nat) (b : UInt8) : JournalEntryHeader :=
  decode (overwrite h.encode i [b])

variable {h : JournalEntryHeader} {i : Nat} {b : UInt8}

theorem encode_alter (hi : i < HEADER_SIZE) : (h.alter i b).encode = overwrite h.encode i [b] := by
  apply encode_decode
  rw [length_overwrite, length_encode]
  rw [length_encode]
  exact hi

theorem alter_ne (hi : i < HEADER_SIZE) (hb : h.encode[i]? ≠ some b) : h.alter i b ≠ h := by
  intro heq
  have hencode := congrArg encode heq
  rw [encode_alter hi] at hencode
  have hslice := @slice_overwrite_self h.encode [b] i (by rw [length_encode]; exact hi)
  rw [hencode] at hslice
  apply hb
  have hget := congrArg List.head? hslice
  simpa [slice, List.head?_take, List.head?_drop] using hget

theorem slice_alter {offset width : Nat} (hi : i < HEADER_SIZE)
    (hapart : offset + width ≤ i ∨ i + 1 ≤ offset)
    : slice (overwrite h.encode i [b]) offset width = slice h.encode offset width := by
  apply slice_overwrite_of_apart
  . rw [length_encode]
    exact hi
  . exact hapart

theorem sessionHash_alter (hi : i < HEADER_SIZE) (h8 : 8 ≤ i)
    : (h.alter i b).sessionHash = h.sessionHash := by
  show UInt64.ofNat (LittleEndian.decode (slice (overwrite h.encode i [b]) 0 8)) = _
  rw [slice_alter hi (by omega), ← congrArg sessionHash (decode_encode h)]
  rfl

theorem seqNum_alter (hi : i < HEADER_SIZE) (hout : i < 8 ∨ 16 ≤ i)
    : (h.alter i b).seqNum = h.seqNum := by
  show UInt64.ofNat (LittleEndian.decode (slice (overwrite h.encode i [b]) 8 8)) = _
  rw [slice_alter hi (by omega), ← congrArg seqNum (decode_encode h)]
  rfl

theorem bodyLength_alter (hi : i < HEADER_SIZE) (hout : i < 16 ∨ 20 ≤ i)
    : (h.alter i b).bodyLength = h.bodyLength := by
  show UInt32.ofNat (LittleEndian.decode (slice (overwrite h.encode i [b]) 16 4)) = _
  rw [slice_alter hi (by omega), ← congrArg bodyLength (decode_encode h)]
  rfl

theorem crc32_alter (hi : i < HEADER_SIZE) (h20 : i < 20)
    : (h.alter i b).crc32 = h.crc32 := by
  show UInt32.ofNat (LittleEndian.decode (slice (overwrite h.encode i [b]) 20 4)) = _
  rw [slice_alter hi (by omega), ← congrArg crc32 (decode_encode h)]
  rfl

-- A header that differs from another one in its last four bytes only has another checksum.
theorem crc32_alter_ne (hi : i < HEADER_SIZE) (hb : h.encode[i]? ≠ some b) (h20 : 20 ≤ i)
    : (h.alter i b).crc32 ≠ h.crc32 := by
  intro heq
  apply alter_ne hi hb
  have hhash := @sessionHash_alter h i b hi (by omega)
  have hseq := @seqNum_alter h i b hi (Or.inr (by omega))
  have hlength := @bodyLength_alter h i b hi (Or.inr h20)
  cases haltered : h.alter i b
  cases h
  simp_all

end JournalEntryHeader

namespace Journal

theorem readEntry_eq_none_iff {j : Journal} {offset : Nat} {header : JournalEntryHeader}
    (hheader : JournalEntryHeader.decode (slice j.mmap.bytes offset HEADER_SIZE) = header)
    : j.readEntry offset = none
        ↔ j.capacity < offset + HEADER_SIZE + header.bodyLength.toNat
          ∨ crc32Simple (slice j.mmap.bytes (offset + HEADER_SIZE) header.bodyLength.toNat)
            ≠ header.crc32 := by
  constructor
  . intro hnone
    by_contra hnot
    rw [not_or, Nat.not_lt, Decidable.not_not] at hnot
    have hsome := (readEntry_eq_some j offset header _).mpr ⟨hnot.1, hheader, rfl, hnot.2⟩
    rw [hnone] at hsome
    contradiction
  . intro hbad
    cases hread : j.readEntry offset with
    | none => rfl
    | some entry =>
      obtain ⟨hend, hheader', hbody, hcrc⟩ :=
        (readEntry_eq_some j offset entry.1 entry.2).mp hread
      rw [hheader] at hheader'
      rw [← hheader', ← hbody] at hcrc
      rw [← hheader'] at hend hcrc
      cases hbad with
      | inl hlong => omega
      | inr hne => contradiction

theorem readEntry_of_altered_header (j : Journal) (offset : Nat) (header : JournalEntryHeader)
    (body : Bytes) (i : Nat) (b : UInt8) (mmap : MmapMut j.capacity)
    (hread : j.readEntry offset = some (header, body))
    (hi : i < HEADER_SIZE) (hb : header.encode[i]? ≠ some b)
    (hwrite : j.mmap.write (offset + i) [b] = some mmap)
    : header.alter i b ≠ header
        ∧ (i < 16 →
            Journal.readEntry { j with mmap := mmap } offset = some (header.alter i b, body))
        ∧ (16 ≤ i → i < 20 →
            (Journal.readEntry { j with mmap := mmap } offset = none
              ↔ j.capacity < offset + HEADER_SIZE + (header.alter i b).bodyLength.toNat
                ∨ crc32Simple (slice j.mmap.bytes (offset + HEADER_SIZE)
                    (header.alter i b).bodyLength.toNat) ≠ header.crc32))
        ∧ (20 ≤ i → Journal.readEntry { j with mmap := mmap } offset = none) := by
  obtain ⟨hend, hheader, hbody, hcrc⟩ := (readEntry_eq_some j offset header body).mp hread
  have hmem : j.mmap.bytes.length = j.capacity := j.mmap.length_eq
  have hheaderEnd : offset + HEADER_SIZE ≤ j.mmap.bytes.length := by omega
  have hencode : slice j.mmap.bytes offset HEADER_SIZE = header.encode := by
    rw [← hheader, JournalEntryHeader.encode_decode (length_slice hheaderEnd)]
  have hfit : offset + i + [b].length ≤ j.capacity := by
    rw [List.length_singleton]
    omega
  rw [MmapMut.write_of_le _ hfit] at hwrite
  have hbytes : mmap.bytes = overwrite j.mmap.bytes (offset + i) [b] := by
    rw [← Option.some.inj hwrite]
  have hheader' : JournalEntryHeader.decode (slice mmap.bytes offset HEADER_SIZE)
      = header.alter i b := by
    rw [hbytes, slice_overwrite_of_inside hi hheaderEnd, hencode]
    rfl
  -- The bytes behind the header are as they were.
  have hbehind (n : Nat)
      : slice mmap.bytes (offset + HEADER_SIZE) n = slice j.mmap.bytes (offset + HEADER_SIZE) n := by
    rw [hbytes]
    apply slice_overwrite_of_apart
    . rw [hmem]
      exact hfit
    . right
      rw [List.length_singleton]
      omega
  have hnone := @readEntry_eq_none_iff { j with mmap := mmap } offset _ hheader'
  dsimp only at hnone
  rw [hbehind] at hnone
  refine ⟨JournalEntryHeader.alter_ne hi hb, ?_, ?_, ?_⟩
  . intro h16
    have hlength := @JournalEntryHeader.bodyLength_alter header i b hi (Or.inl h16)
    have hcrc' := @JournalEntryHeader.crc32_alter header i b hi (by omega)
    rw [readEntry_eq_some { j with mmap := mmap }, hlength, hcrc']
    exact ⟨hend, hheader', by rw [hbehind, hbody], hcrc⟩
  . intro _ h20
    rw [hnone, JournalEntryHeader.crc32_alter hi h20]
  . intro h20
    rw [hnone, JournalEntryHeader.bodyLength_alter hi (Or.inr h20), hbody, hcrc]
    right
    exact (JournalEntryHeader.crc32_alter_ne hi hb h20).symm

theorem readEntry_of_altered_header_testData
    : (testData 1).header.alter 8 3 ≠ (testData 1).header
        ∧ ∃ mmap, afterTestData.mmap.write (0 + 8) [3] = some mmap
          ∧ Journal.readEntry { afterTestData with mmap := mmap } 0
            = some ((testData 1).header.alter 8 3, (testData 1).body) := by
  have h := readEntry_of_altered_header afterTestData 0 (testData 1).header (testData 1).body 8 3 _
    (by decide +kernel) (by decide) (by decide +kernel) (MmapMut.write_of_le _ (by decide))
  exact ⟨h.1, _, MmapMut.write_of_le _ (by decide), h.2.1 (by decide)⟩

-- The sequence number 1 becomes 3, and the entry is read with it.
theorem not_detects_header_corruption
    : ¬ ∀ (j : Journal) (offset : Nat) (header : JournalEntryHeader) (body : Bytes) (i : Nat)
        (b : UInt8) (mmap : MmapMut j.capacity), j.readEntry offset = some (header, body) →
        i < HEADER_SIZE → header.encode[i]? ≠ some b → j.mmap.write (offset + i) [b] = some mmap →
        Journal.readEntry { j with mmap := mmap } offset = none := by
  intro h
  have hnone := h afterTestData 0 (testData 1).header (testData 1).body 8 3 _ (by decide +kernel)
    (by decide) (by decide +kernel) (MmapMut.write_of_le _ (by decide))
  revert hnone
  decide +kernel

end Journal

end Velocitas
