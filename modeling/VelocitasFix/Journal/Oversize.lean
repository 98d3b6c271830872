import VelocitasFix.Journal.ReadBack

/-!
This module contains what `append` does with an entry that is longer than the whole journal: it
panics, and what it has done until then stays done.
-/

namespace Velocitas

namespace Journal

-- The result is an `Err`, of which `append` has only that of the flush, and the journal is as it was.
structure RefusedCleanly (j : Journal) (result : Journal × AppendResult) : Prop where
  err : result.2 = .flushFailed
  writeOffset_eq : result.1.writeOffset = j.writeOffset
  entryCount_eq : result.1.entryCount = j.entryCount
  bytes_eq : result.1.mmap.bytes = j.mmap.bytes

-- What stays behind when the entry fits nowhere: the write position at the beginning, and there, if
-- the journal has room for one, the header of the entry.
theorem append_of_lt (j : Journal) (flushed : Bool) (e : JournalEntry)
    (hlong : j.capacity < e.bytes.length)
    : ∃ j', j.append flushed e.sessionHash e.seqNum e.body = (j', .panicked)
        ∧ j'.capacity = j.capacity
        ∧ j'.writeOffset = 0
        ∧ j'.entryCount = j.entryCount
        ∧ j'.mmap.bytes = if HEADER_SIZE ≤ j.capacity then
            overwrite j.mmap.bytes 0 e.header.encode
          else
            j.mmap.bytes := by
  rw [JournalEntry.length_bytes] at hlong
  have hdef : JournalEntryHeader.mk e.sessionHash e.seqNum (UInt32.ofNat e.body.length)
      (crc32Simple e.body) = e.header := rfl
  -- No write position leaves room for the entry, so the append always wraps.
  have hwrap : j.writeOffset + (HEADER_SIZE + e.body.length) > j.capacity := by omega
  unfold append
  dsimp only
  rw [if_pos hwrap, hdef]
  by_cases hheader : HEADER_SIZE ≤ j.capacity
  . have hfits : 0 + e.header.encode.length ≤ j.capacity := by
      rw [JournalEntryHeader.length_encode, Nat.zero_add]
      exact hheader
    have hbody : j.capacity < 0 + HEADER_SIZE + e.body.length := by omega
    rw [MmapMut.write_of_le j.mmap hfits]
    dsimp only
    rw [MmapMut.write_of_lt _ hbody]
    exact ⟨_, rfl, rfl, rfl, rfl, (if_pos hheader).symm⟩
  . have hshort : j.capacity < 0 + e.header.encode.length := by
      rw [JournalEntryHeader.length_encode, Nat.zero_add]
      omega
    rw [MmapMut.write_of_lt j.mmap hshort]
    exact ⟨_, rfl, rfl, rfl, rfl, (if_neg hheader).symm⟩

-- The header that stays behind reaches past the end, so nothing is read at the beginning any more.
theorem readEntry_append_of_lt (j : Journal) (flushed : Bool) (e : JournalEntry) (hsized : e.Sized)
    (hlong : j.capacity < e.bytes.length)
    : (j.append flushed e.sessionHash e.seqNum e.body).1.readEntry 0 = none := by
  obtain ⟨j', happend, hcapacity, _, _, hbytes⟩ := append_of_lt j flushed e hlong
  rw [JournalEntry.length_bytes] at hlong
  rw [happend]
  dsimp only
  unfold readEntry
  dsimp only
  by_cases hheader : HEADER_SIZE ≤ j.capacity
  . have hread : slice j'.mmap.bytes 0 HEADER_SIZE = e.header.encode := by
      rw [hbytes, if_pos hheader, ← JournalEntryHeader.length_encode e.header]
      apply slice_overwrite_self
      rw [JournalEntryHeader.length_encode, j.mmap.length_eq]
      omega
    rw [if_neg (by omega), hread, JournalEntryHeader.decode_encode,
      JournalEntry.toNat_bodyLength hsized, if_pos (by omega)]
  . rw [if_pos (by omega)]

theorem not_refusedCleanly_append (j : Journal) (flushed : Bool) (e : JournalEntry)
    (hlong : j.capacity < HEADER_SIZE + e.body.length)
    : (j.append flushed e.sessionHash e.seqNum e.body).2 = .panicked
        ∧ (j.append flushed e.sessionHash e.seqNum e.body).1.writeOffset = 0
        ∧ ¬ j.RefusedCleanly (j.append flushed e.sessionHash e.seqNum e.body) := by
  rw [← JournalEntry.length_bytes] at hlong
  obtain ⟨j', happend, _, hoffset, _⟩ := append_of_lt j flushed e hlong
  rw [happend]
  refine ⟨rfl, hoffset, ?_⟩
  intro hrefused
  have herr := hrefused.err
  contradiction

theorem not_refusedCleanly_append_testData
    : 24 < HEADER_SIZE + (testData 1).body.length
        ∧ ((openFile [] 24 .none).append true 1 1 (testData 1).body).2 = .panicked
        ∧ ((openFile [] 24 .none).append true 1 1 (testData 1).body).1.writeOffset = 0
        ∧ ¬ (openFile [] 24 .none).RefusedCleanly
          ((openFile [] 24 .none).append true 1 1 (testData 1).body) :=
  ⟨by decide, not_refusedCleanly_append (openFile [] 24 .none) true
    ⟨1, 1, (testData 1).body⟩ (by decide)⟩

-- One entry stands in the journal, and the next one is longer than the journal.
theorem not_append_refusedCleanly
    : ¬ ∀ (file : Bytes) (capacity : Nat) (policy : SyncPolicy) (before : List JournalEntry)
        (j : Journal) (written : List Record) (flushed : Bool) (e : JournalEntry),
        (openFile file capacity policy).appendAll before = some (j, written) →
        capacity < HEADER_SIZE + e.body.length →
        j.RefusedCleanly (j.append flushed e.sessionHash e.seqNum e.body) := by
  intro h
  have hrefused := h [] 40 .none [testData 1] _ _ true ⟨0, 2, List.replicate 17 65⟩ rfl (by decide)
  have herr := hrefused.err
  revert herr
  decide +kernel

end Journal

end Velocitas
