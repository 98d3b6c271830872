import VelocitasFix.Journal.Lemmas

/-!
This module contains the proof that a sequence of appends to a freshly opened journal lays the
entries out as a circular log, and that every entry no later append has touched is read back.
-/

namespace Velocitas

open CircularLog (Block layout position place writeAll)

namespace Journal

-- An entry together with the offset that `append` returned for it.
structure Record where
  offset : Nat
  entry : JournalEntry

namespace Record

def size (r : Record) : Nat := HEADER_SIZE + r.entry.body.length

def stop (r : Record) : Nat := r.offset + r.size

def block (r : Record) : Block := ⟨r.offset, r.entry.bytes⟩

@[simp]
theorem stop_block (r : Record) : r.block.stop = r.stop := by
  simp [block, CircularLog.Block.stop, stop, size]

end Record

-- The flush succeeds; `none` when one of the appends does not return an offset.
def appendAll (j : Journal) : List JournalEntry → Option (Journal × List Record)
  | [] => some (j, [])
  | e :: es =>
    match j.append true e.sessionHash e.seqNum e.body with
    | (j, .ok offset) => (j.appendAll es).map fun (j, records) => (j, ⟨offset, e⟩ :: records)
    | _ => none

theorem appendAll_of_le {entries : List JournalEntry} {j : Journal}
    (hfit : ∀ e ∈ entries, e.bytes.length ≤ j.capacity)
    : ∃ j' records, j.appendAll entries = some (j', records)
        ∧ records.map Record.entry = entries
        ∧ records.map Record.block
            = layout j.capacity j.writeOffset (entries.map JournalEntry.bytes)
        ∧ j'.capacity = j.capacity
        ∧ j'.writeOffset = position j.capacity j.writeOffset (entries.map JournalEntry.bytes)
        ∧ j'.mmap.bytes = writeAll j.mmap.bytes (records.map Record.block) := by
  induction entries generalizing j with
  | nil => exact ⟨j, [], rfl, rfl, rfl, rfl, rfl, rfl⟩
  | cons e es ih =>
    obtain ⟨j₁, happend, hcapacity, _, hoffset, hbytes⟩ :=
      j.append_of_le true e (hfit e List.mem_cons_self)
    rw [returned_true] at happend
    have htail : ∀ f ∈ es, f.bytes.length ≤ j₁.capacity := by
      intro f hf
      rw [hcapacity]
      exact hfit f (List.mem_cons_of_mem e hf)
    obtain ⟨j₂, records, hall, hentries, hblocks, hcapacity₂, hoffset₂, hbytes₂⟩ := ih htail
    rw [hcapacity, hoffset] at hblocks hoffset₂
    refine ⟨j₂, ⟨place j.capacity j.writeOffset e.bytes.length, e⟩ :: records,
      ?_, ?_, ?_, ?_, ?_, ?_⟩
    . rw [appendAll, happend]
      dsimp only
      rw [hall]
      rfl
    . rw [List.map_cons, hentries]
    . rw [List.map_cons, hblocks, List.map_cons, layout]
      rfl
    . rw [hcapacity₂, hcapacity]
    . exact hoffset₂
    . rw [hbytes₂, hbytes]
      rfl

-- What holds of a journal and of the records of all the appends since it was opened.
structure Faithful (j : Journal) (records : List Record) : Prop where
  writeOffset_le : j.writeOffset ≤ j.capacity
  stop_le : ∀ r ∈ records, r.stop ≤ j.capacity
  adjacent : ∀ before r s after, records = before ++ r :: s :: after →
    s.offset = if j.capacity < r.stop + s.size then 0 else r.stop
  disjoint : ∀ before r between s after, records = before ++ r :: between ++ s :: after →
    (∀ t ∈ between ++ [s], t.offset ≠ 0) → r.stop ≤ s.offset
  readBack : ∀ before r after, records = before ++ r :: after →
    (∀ s ∈ after, r.stop ≤ s.offset ∨ s.stop ≤ r.offset) →
    j.readEntry r.offset = some (r.entry.header, r.entry.body)

theorem faithful_of_layout {j : Journal} {records : List Record} {datas : List Bytes} {memory : Bytes}
    (hlayout : records.map Record.block = layout j.capacity 0 datas)
    (hfit : ∀ data ∈ datas, data.length ≤ j.capacity)
    (hsized : ∀ r ∈ records, r.entry.Sized)
    (hmemory : memory.length = j.capacity)
    (hoffset : j.writeOffset = position j.capacity 0 datas)
    (hbytes : j.mmap.bytes = writeAll memory (records.map Record.block))
    : j.Faithful records := by
  have hstop : ∀ b ∈ records.map Record.block, b.stop ≤ j.capacity := by
    rw [hlayout]
    exact CircularLog.stop_le_of_mem_layout hfit
  have hstop' : ∀ r ∈ records, r.stop ≤ j.capacity := by
    intro r hr
    rw [← Record.stop_block]
    exact hstop r.block (List.mem_map_of_mem hr)
  constructor
  case writeOffset_le =>
    rw [hoffset]
    exact CircularLog.position_le (Nat.zero_le _) hfit
  case stop_le => exact hstop'
  case adjacent =>
    intro before r s after h
    have hnext := @CircularLog.offset_next j.capacity 0 datas (before.map Record.block)
      (after.map Record.block) r.block s.block (by rw [← hlayout, h]; simp)
    rw [Record.stop_block] at hnext
    rw [Record.size, ← JournalEntry.length_bytes]
    exact hnext
  case disjoint =>
    intro before r between s after h hwrap
    have hle := @CircularLog.stop_le_of_no_wrap j.capacity 0 datas (before.map Record.block)
      (between.map Record.block) (after.map Record.block) r.block s.block
      (by rw [← hlayout, h]; simp)
    rw [Record.stop_block] at hle
    apply hle
    intro b hb
    rw [← List.map_singleton, ← List.map_append] at hb
    cases List.mem_map.mp hb with
    | intro t ht =>
      rw [← ht.2]
      exact hwrap t ht.1
  case readBack =>
    intro before r after h hapart
    have hle : r.offset + r.entry.bytes.length ≤ j.capacity := by
      have hr := hstop' r (by rw [h]; simp)
      rwa [JournalEntry.length_bytes]
    rw [readEntry_eq_some_iff j r.offset r.entry hle, hbytes, h, List.map_append, List.map_cons]
    apply And.intro (hsized r (by rw [h]; simp))
    apply CircularLog.slice_of_apart hmemory
    . rw [h] at hstop
      simpa using hstop
    . intro b hb
      cases List.mem_map.mp hb with
      | intro s hs =>
        rw [← hs.2, CircularLog.Block.Apart, Record.stop_block, Record.stop_block]
        exact hapart s hs.1

theorem append_read_back (file : Bytes) (capacity : Nat) (policy : SyncPolicy)
    (entries : List JournalEntry)
    (hfit : ∀ e ∈ entries, HEADER_SIZE + e.body.length ≤ capacity)
    (hsized : ∀ e ∈ entries, e.Sized)
    : ∃ j records, (openFile file capacity policy).appendAll entries = some (j, records)
        ∧ j.capacity = capacity
        ∧ records.map Record.entry = entries
        ∧ j.Faithful records := by
  have hfit' : ∀ e ∈ entries, e.bytes.length ≤ (openFile file capacity policy).capacity := by
    intro e he
    rw [JournalEntry.length_bytes]
    exact hfit e he
  obtain ⟨j, records, hall, hentries, hblocks, hcapacity, hoffset, hbytes⟩ := appendAll_of_le hfit'
  refine ⟨j, records, hall, hcapacity, hentries, ?_⟩
  apply @faithful_of_layout j records (entries.map JournalEntry.bytes)
  . rw [hblocks, hcapacity]
    rfl
  . intro data hdata
    cases List.mem_map.mp hdata with
    | intro e he =>
      rw [← he.2, hcapacity]
      exact hfit' e he.1
  . intro r hr
    apply hsized
    rw [← hentries]
    exact List.mem_map_of_mem hr
  . rw [hcapacity]
    exact (openFile file capacity policy).mmap.length_eq
  . rw [hoffset, hcapacity]
    rfl
  . exact hbytes

def testData (seqNum : UInt64) : JournalEntry :=
  ⟨0, seqNum, [116, 101, 115, 116, 45, 100, 97, 116, 97]⟩

-- The second entry does not fit behind the first one.
theorem append_read_back_testData
    : ∃ j records, (openFile [] 60 .everyMessage).appendAll [testData 1, testData 2]
          = some (j, records)
        ∧ j.capacity = 60
        ∧ records.map Record.entry = [testData 1, testData 2]
        ∧ j.Faithful records :=
  append_read_back [] 60 .everyMessage [testData 1, testData 2] (by decide) (by decide)

def afterTestData : Journal := ((openFile [] 40 .none).append true 0 1 (testData 1).body).1

end Journal

end Velocitas
