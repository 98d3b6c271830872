import VelocitasFix.Journal.Reopen

/-!
This module contains the proof of what a scan over a journal finds behind the last entry. Zeros are a
valid entry with an empty body, so that the scan does not stop before the end of the file is near.
-/

namespace Velocitas

-- What a reader gets of an entry.
def JournalEntry.found (e : JournalEntry) : JournalEntryHeader × Bytes := (e.header, e.body)

namespace Journal

theorem lt_of_readEntry {j : Journal} {offset : Nat} {found : JournalEntryHeader × Bytes}
    (h : j.readEntry offset = some found)
    : offset < j.capacity := by
  unfold readEntry at h
  split at h
  . contradiction
  . next hle =>
    rw [HEADER_SIZE] at hle
    omega

-- The entries one after the other, from an offset on, up to the first one that is not valid.
def entriesFrom (j : Journal) (offset : Nat) : List (JournalEntryHeader × Bytes) :=
  match _h : j.readEntry offset with
  | none => []
  | some (header, body) => (header, body) :: j.entriesFrom (offset + (HEADER_SIZE + body.length))
termination_by j.capacity - offset
decreasing_by
  have hlt := lt_of_readEntry ‹_›
  rw [HEADER_SIZE]
  omega

theorem entriesFrom_of_none {j : Journal} {offset : Nat} (h : j.readEntry offset = none)
    : j.entriesFrom offset = [] := by
  unfold entriesFrom
  split
  . rfl
  . next hsome =>
    rw [h] at hsome
    contradiction

theorem entriesFrom_of_some {j : Journal} {offset : Nat} {header : JournalEntryHeader} {body : Bytes}
    (h : j.readEntry offset = some (header, body))
    : j.entriesFrom offset
        = (header, body) :: j.entriesFrom (offset + (HEADER_SIZE + body.length)) := by
  rw [entriesFrom]
  split
  . next hnone =>
    rw [h] at hnone
    contradiction
  . next hsome =>
    rw [h] at hsome
    injection hsome with hsome
    injection hsome with hheader hbody
    rw [hheader, hbody]

theorem readEntry_of_entriesFrom {j : Journal} {offset : Nat} {header : JournalEntryHeader}
    {body : Bytes} {rest : List (JournalEntryHeader × Bytes)}
    (h : j.entriesFrom offset = (header, body) :: rest)
    : j.readEntry offset = some (header, body)
        ∧ j.entriesFrom (offset + (HEADER_SIZE + body.length)) = rest := by
  cases hread : j.readEntry offset with
  | none =>
    rw [entriesFrom_of_none hread] at h
    contradiction
  | some found =>
    rw [entriesFrom_of_some hread] at h
    injection h with hfound hrest
    cases hfound
    exact ⟨rfl, hrest⟩

theorem totalSize_cons (e : JournalEntry) (es : List JournalEntry)
    : totalSize (e :: es) = e.bytes.length + totalSize es := by
  rw [totalSize, List.map_cons, List.sum_cons, JournalEntry.length_bytes]
  rfl

section Scan

variable {j : Journal} {offset : Nat} {entries : List JournalEntry}

theorem entriesFrom_of_slice (hfit : offset + totalSize entries ≤ j.capacity)
    (hsized : ∀ e ∈ entries, e.Sized)
    (hbytes : slice j.mmap.bytes offset (totalSize entries) = bytesOf entries)
    : j.entriesFrom offset
        = entries.map JournalEntry.found ++ j.entriesFrom (offset + totalSize entries) := by
  induction entries generalizing offset with
  | nil => rfl
  | cons e es ih =>
    rw [totalSize_cons] at hfit hbytes ⊢
    rw [List.forall_mem_cons] at hsized
    rw [slice_add, bytesOf, List.flatMap_cons] at hbytes
    have hlen : (slice j.mmap.bytes offset e.bytes.length).length = e.bytes.length := by
      apply length_slice
      rw [j.mmap.length_eq]
      omega
    cases List.append_inj hbytes hlen with
    | intro hhead htail =>
      have hread := (j.readEntry_eq_some_iff offset e (by omega)).mpr ⟨hsized.1, hhead⟩
      rw [entriesFrom_of_some hread, ← JournalEntry.length_bytes, ih (by omega) hsized.2 htail,
        Nat.add_assoc]
      rfl

-- A scan that finds the entries reads each of them, and then nothing.
theorem of_entriesFrom_eq (hfit : offset + totalSize entries ≤ j.capacity)
    (h : j.entriesFrom offset = entries.map JournalEntry.found)
    : (∀ e ∈ entries, e.Sized) ∧ j.entriesFrom (offset + totalSize entries) = [] := by
  induction entries generalizing offset with
  | nil => exact ⟨nofun, h⟩
  | cons e es ih =>
    rw [totalSize_cons] at hfit ⊢
    obtain ⟨hread, hrest⟩ := readEntry_of_entriesFrom h
    rw [← JournalEntry.length_bytes] at hrest
    have hsized := ((j.readEntry_eq_some_iff offset e (by omega)).mp hread).1
    have htail := ih (by omega) hrest
    rw [← Nat.add_assoc]
    exact ⟨List.forall_mem_cons.mpr ⟨hsized, htail.1⟩, htail.2⟩

end Scan

-- The entry that zeros stand for: the checksum of the empty body is zero as well.
def blank : JournalEntry := ⟨0, 0, []⟩

theorem bytes_blank : blank.bytes = List.replicate HEADER_SIZE 0 := by
  decide +kernel

theorem readEntry_of_zeros {j : Journal} {offset : Nat} (hfit : offset + HEADER_SIZE ≤ j.capacity)
    (hzeros : slice j.mmap.bytes offset HEADER_SIZE = List.replicate HEADER_SIZE 0)
    : j.readEntry offset = some (blank.header, []) := by
  apply (j.readEntry_eq_some_iff offset blank ?_).mpr
  . refine ⟨by decide, ?_⟩
    rw [bytes_blank, List.length_replicate]
    exact hzeros
  . rw [bytes_blank, List.length_replicate]
    exact hfit

theorem slice_replicate (n offset length : Nat) (b : UInt8) (h : offset + length ≤ n)
    : slice (List.replicate n b) offset length = List.replicate length b := by
  rw [slice, List.drop_replicate, List.take_replicate, Nat.min_eq_left (by omega)]

-- A new file after the appends: the entries, and zeros behind them.
theorem appendAll_newFile {entries : List JournalEntry} {capacity : Nat} (policy : SyncPolicy)
    (hfit : totalSize entries ≤ capacity)
    : ∃ j records, (openFile [] capacity policy).appendAll entries = some (j, records)
        ∧ j.capacity = capacity
        ∧ j.writeOffset = totalSize entries
        ∧ slice j.mmap.bytes 0 (totalSize entries) = bytesOf entries
        ∧ ∀ offset, totalSize entries ≤ offset → offset + HEADER_SIZE ≤ capacity →
            slice j.mmap.bytes offset HEADER_SIZE = List.replicate HEADER_SIZE 0 := by
  obtain ⟨j, records, hall, _, _, hcapacity, hoffset, hbytes⟩ := appendAll_openFile policy hfit
  have hfile : setLen [] capacity = List.replicate capacity 0 := by
    rw [setLen, List.take_nil, List.nil_append, List.length_nil, Nat.sub_zero]
  have hlen := length_flatMap_bytes entries
  change j.mmap.bytes = _ at hbytes
  rw [hfile] at hbytes
  refine ⟨j, records, hall, hcapacity, hoffset, ?_, ?_⟩
  . rw [hbytes, ← hlen]
    apply slice_overwrite_self
    rw [List.length_replicate, hlen]
    omega
  . intro offset hle hcap
    rw [hbytes, slice_overwrite_of_apart]
    . exact slice_replicate capacity offset HEADER_SIZE 0 hcap
    . rw [List.length_replicate, hlen]
      omega
    . right
      rw [hlen]
      omega

-- Behind the last entry nothing is found, and so a scan finds the entries and stops.
def EndsAtOffset (j : Journal) (entries : List JournalEntry) : Prop :=
  (∀ offset, j.writeOffset ≤ offset → j.readEntry offset = none)
    ∧ j.entriesFrom 0 = entries.map JournalEntry.found

end Journal

end Velocitas
