import VelocitasFix.Journal.ReadBack
import Mathlib.Algebra.Order.BigOperators.Group.List

/-!
This module contains the proof of what survives when a journal is dropped, opened again and appended
to: writing starts at the beginning of the file, so the old entries are overwritten.
-/

namespace Velocitas

open CircularLog (layout writeAll writeAll_layout)

namespace Journal

-- What the file holds once the journal is dropped.
def contents (j : Journal) : Bytes := j.mmap.bytes

def Kept (j : Journal) (records : List Record) : Prop :=
  ∀ r ∈ records, j.readEntry r.offset = some (r.entry.header, r.entry.body)

def totalSize (entries : List JournalEntry) : Nat :=
  (entries.map fun e => HEADER_SIZE + e.body.length).sum

theorem totalSize_append (es fs : List JournalEntry)
    : totalSize (es ++ fs) = totalSize es + totalSize fs := by
  simp [totalSize]

theorem length_flatMap_bytes (entries : List JournalEntry)
    : (entries.flatMap JournalEntry.bytes).length = totalSize entries := by
  simp [totalSize, List.length_flatMap]

theorem length_bytes_le_totalSize {entries : List JournalEntry}
    : ∀ e ∈ entries, e.bytes.length ≤ totalSize entries := by
  intro e he
  rw [JournalEntry.length_bytes]
  exact List.le_sum_of_mem (List.mem_map_of_mem he)

theorem setLen_length_eq {file : Bytes} {size : Nat} (h : file.length = size)
    : setLen file size = file := by
  rw [setLen, ← h, List.take_length, Nat.sub_self, List.replicate_zero, List.append_nil]

-- A life of the journal without a wrap: one write of all the entries at the beginning of the file.
theorem appendAll_openFile {entries : List JournalEntry} {file : Bytes} {capacity : Nat}
    (policy : SyncPolicy) (hfit : totalSize entries ≤ capacity)
    : ∃ j records, (openFile file capacity policy).appendAll entries = some (j, records)
        ∧ records.map Record.entry = entries
        ∧ records.map Record.block = layout capacity 0 (entries.map JournalEntry.bytes)
        ∧ j.capacity = capacity
        ∧ j.writeOffset = totalSize entries
        ∧ j.contents = overwrite (setLen file capacity) 0 (entries.flatMap JournalEntry.bytes) := by
  have hle : ∀ e ∈ entries, e.bytes.length ≤ (openFile file capacity policy).capacity := by
    intro e he
    exact Nat.le_trans (length_bytes_le_totalSize e he) hfit
  have hlen : 0 + (entries.map JournalEntry.bytes).flatten.length ≤ capacity := by
    rw [← List.flatMap_def, length_flatMap_bytes, Nat.zero_add]
    exact hfit
  obtain ⟨j, records, hall, hentries, hblocks, hcapacity, hoffset, hbytes⟩ := appendAll_of_le hle
  refine ⟨j, records, hall, hentries, hblocks, hcapacity, ?_, ?_⟩
  . rw [hoffset]
    show CircularLog.position capacity 0 _ = _
    rw [CircularLog.position_of_le hlen, ← List.flatMap_def, length_flatMap_bytes, Nat.zero_add]
  . rw [contents, hbytes, hblocks, List.flatMap_def]
    apply @writeAll_layout capacity
    . apply length_setLen
    . exact hlen

theorem kept_iff {j : Journal} {records : List Record} {entries : List JournalEntry}
    (hblocks : records.map Record.block
      = layout j.capacity 0 (entries.map JournalEntry.bytes))
    (hfit : totalSize entries ≤ j.capacity)
    : j.Kept records
        ↔ (∀ r ∈ records, r.entry.Sized)
          ∧ slice j.contents 0 (entries.flatMap JournalEntry.bytes).length
              = entries.flatMap JournalEntry.bytes := by
  have hlen : 0 + (entries.map JournalEntry.bytes).flatten.length ≤ j.capacity := by
    rw [← List.flatMap_def, length_flatMap_bytes]
    omega
  rw [contents, List.flatMap_def, ← CircularLog.forall_slice_layout_iff hlen j.mmap.length_eq,
    ← hblocks, List.forall_mem_map]
  have hstop : ∀ r ∈ records, r.offset + r.entry.bytes.length ≤ j.capacity := by
    intro r hr
    have hle := @CircularLog.stop_le_of_mem_layout j.capacity 0 (entries.map JournalEntry.bytes)
    rw [← hblocks, List.forall_mem_map, List.forall_mem_map] at hle
    apply hle
    . intro e he
      exact Nat.le_trans (length_bytes_le_totalSize e he) hfit
    . exact hr
  constructor
  . intro h
    have hread : ∀ r ∈ records,
        r.entry.Sized ∧ slice j.mmap.bytes r.offset r.entry.bytes.length = r.entry.bytes := by
      intro r hr
      exact (j.readEntry_eq_some_iff r.offset r.entry (hstop r hr)).mp (h r hr)
    exact ⟨fun r hr => (hread r hr).1, fun r hr => (hread r hr).2⟩
  . intro h r hr
    exact (j.readEntry_eq_some_iff r.offset r.entry (hstop r hr)).mpr ⟨h.1 r hr, h.2 r hr⟩

-- Two lives of the journal: the records of the first one and the journal at the end of the second.
def reopened (file : Bytes) (capacity : Nat) (policy policy' : SyncPolicy)
    (before after : List JournalEntry) : Option (List Record × Journal) := do
  let (j₁, written) ← (openFile file capacity policy).appendAll before
  let (j₂, _) ← (openFile j₁.contents capacity policy').appendAll after
  some (written, j₂)

def bytesOf (entries : List JournalEntry) : Bytes := entries.flatMap JournalEntry.bytes

theorem bytesOf_isPrefix_iff {es fs : List JournalEntry} (hes : ∀ e ∈ es, e.Sized)
    (hfs : ∀ f ∈ fs, f.Sized)
    : bytesOf es <+: bytesOf fs ↔ es <+: fs :=
  JournalEntry.selfDelimiting.flatMap_isPrefix_iff JournalEntry.bytes_ne_nil hes hfs

theorem reopen_kept_iff (file : Bytes) (capacity : Nat) (policy policy' : SyncPolicy)
    (before after : List JournalEntry) (hfit : totalSize (before ++ after) ≤ capacity)
    : ∃ written j, reopened file capacity policy policy' before after = some (written, j)
        ∧ written.map Record.entry = before
        ∧ (j.Kept written ↔ (∀ e ∈ before, e.Sized)
            ∧ (bytesOf before <+: bytesOf after ∨ bytesOf after <+: bytesOf before))
        ∧ ((∀ e ∈ before ++ after, e.Sized) →
            (j.Kept written ↔ before <+: after ∨ after <+: before)) := by
  rw [totalSize_append] at hfit
  obtain ⟨j₁, written, hbefore, hentries, hblocks, hcapacity₁, _, hfile₁⟩ :=
    @appendAll_openFile before file capacity policy (by omega)
  obtain ⟨j₂, added, hafter, _, _, hcapacity₂, _, hfile₂⟩ :=
    @appendAll_openFile after j₁.contents capacity policy' (by omega)
  have hreopened : reopened file capacity policy policy' before after = some (written, j₂) := by
    rw [reopened, hbefore, Option.bind_eq_bind, Option.bind_some]
    dsimp only
    rw [hafter, Option.bind_some]
  have hlen : j₁.contents.length = capacity := by
    rw [← hcapacity₁]
    exact j₁.mmap.length_eq
  have hkept : j₂.Kept written ↔ (∀ e ∈ before, e.Sized)
      ∧ (bytesOf before <+: bytesOf after ∨ bytesOf after <+: bytesOf before) := by
    rw [kept_iff (by rw [hblocks, hcapacity₂]) (by omega), hfile₂, setLen_length_eq hlen,
      hfile₁, overwrite_zero (setLen file capacity), slice_overwrite_zero_iff, ← hentries,
      List.forall_mem_map]
    rfl
  refine ⟨written, j₂, hreopened, hentries, hkept, ?_⟩
  intro hsized
  have hbeforeSized : ∀ e ∈ before, e.Sized := fun e he => hsized e (List.mem_append_left _ he)
  have hafterSized : ∀ e ∈ after, e.Sized := fun e he => hsized e (List.mem_append_right _ he)
  rw [hkept, bytesOf_isPrefix_iff hbeforeSized hafterSized,
    bytesOf_isPrefix_iff hafterSized hbeforeSized]
  apply and_iff_right hbeforeSized

theorem reopen_kept_iff_testData
    : ∃ written j, reopened [] 120 .none .none [testData 1, testData 2] [testData 1]
          = some (written, j)
        ∧ written.map Record.entry = [testData 1, testData 2]
        ∧ (j.Kept written ↔ (∀ e ∈ [testData 1, testData 2], e.Sized)
            ∧ (bytesOf [testData 1, testData 2] <+: bytesOf [testData 1]
              ∨ bytesOf [testData 1] <+: bytesOf [testData 1, testData 2]))
        ∧ ((∀ e ∈ [testData 1, testData 2] ++ [testData 1], e.Sized) →
            (j.Kept written ↔ [testData 1, testData 2] <+: [testData 1]
              ∨ [testData 1] <+: [testData 1, testData 2])) :=
  reopen_kept_iff [] 120 .none .none [testData 1, testData 2] [testData 1] (by decide)

-- The entry appended after the journal was opened again stands where the first one stood.
theorem not_reopen_kept
    : ¬ ∀ (file : Bytes) (capacity : Nat) (policy policy' : SyncPolicy)
        (before after : List JournalEntry) (written : List Record) (j : Journal),
        totalSize (before ++ after) ≤ capacity →
        reopened file capacity policy policy' before after = some (written, j) →
        j.Kept written := by
  intro h
  have hkept := h [] 70 .none .none [testData 1] [testData 2] _ _ (by decide) rfl
  have hread := hkept ⟨0, testData 1⟩ List.mem_cons_self
  revert hread
  decide +kernel

end Journal

end Velocitas
