import VelocitasFix.Data.Fnv
import VelocitasFix.Journal.Alignment
import VelocitasFix.Journal.Scan
import VelocitasFix.Tags

/-!
This module contains what a journal that several sessions write to gives back: the file begins with the
entries since the last wrap, and the hash of a session picks its own out of them where the other
sessions are called almost the same.
-/

namespace Velocitas

open ShiftRegister (DifferWithin)

-- The text that the hash of a session is taken of.
def sessionText (sender target : Bytes) : Bytes := sender ++ 124 :: target

theorem sessionHash_eq (sender target : Bytes)
    : sessionHash sender target = (sessionText sender target).foldl Fnv.step 0xcbf29ce484222325 := by
  rw [sessionText, List.foldl_append]
  rfl

-- The bar shows where the sender ends.
theorem sessionText_inj {sender sender' target target' : Bytes} (h : 124 ∉ sender)
    (h' : 124 ∉ sender') (heq : sessionText sender target = sessionText sender' target')
    : sender = sender' ∧ target = target' := by
  rcases List.append_eq_append_iff.mp heq with ⟨rest, hsender, hrest⟩ | ⟨rest, hsender, hrest⟩
  . cases rest with
    | nil =>
      rw [List.append_nil] at hsender
      exact ⟨hsender.symm, (List.cons.inj hrest).2⟩
    | cons b rest =>
      rw [hsender, ← (List.cons.inj hrest).1] at h'
      simp at h'
  . cases rest with
    | nil =>
      rw [List.append_nil] at hsender
      exact ⟨hsender, (List.cons.inj hrest).2.symm⟩
    | cons b rest =>
      rw [hsender, ← (List.cons.inj hrest).1] at h
      simp at h

theorem sessionHash_ne {sender sender' target target' : Bytes} (h : 124 ∉ sender)
    (h' : 124 ∉ sender')
    (hnear : DifferWithin 3 (sessionText sender target) (sessionText sender' target'))
    (hne : ¬ (sender = sender' ∧ target = target'))
    : sessionHash sender target ≠ sessionHash sender' target' := by
  intro heq
  rw [sessionHash_eq, sessionHash_eq] at heq
  exact hne (sessionText_inj h h' (Fnv.eq_of_foldl_step_eq hnear heq))

namespace Journal

section Lap

variable {capacity : Nat} {policy : SyncPolicy} {file : Bytes}

theorem totalSize_sinceWrap_le {entries : List JournalEntry}
    (hfit : ∀ e ∈ entries, e.bytes.length ≤ capacity)
    : totalSize (sinceWrap capacity entries) ≤ capacity := by
  induction entries using List.reverseRecOn with
  | nil => exact Nat.zero_le _
  | append_singleton entries e ih =>
    have hlast := hfit e (by simp)
    rw [sinceWrap_append_singleton]
    split
    . rw [totalSize_singleton]
      exact hlast
    . next hle =>
      rw [totalSize_append, totalSize_singleton]
      omega

-- A call writes behind the entries since the last wrap, or over the first of them.
theorem slice_afterCall {entries : List JournalEntry} {j : Journal} {c : AppendCall}
    (h : Lapped capacity policy entries j) (hfit : c.entry.bytes.length ≤ capacity)
    (hslice : slice j.contents 0 (totalSize (sinceWrap capacity entries))
      = bytesOf (sinceWrap capacity entries))
    : slice (j.afterCall c).contents 0 (totalSize (sinceWrap capacity (entries ++ [c.entry])))
        = bytesOf (sinceWrap capacity (entries ++ [c.entry])) := by
  obtain ⟨rfl, rfl, hoffset⟩ := h
  obtain ⟨j', happend, -, -, -, hbytes⟩ := j.append_of_le c.flushed c.entry hfit
  have hcall : j.appendCall c = _ := happend
  rw [hoffset, place_totalSize] at hbytes
  have hplace := @CircularLog.place_add_le j.capacity j.writeOffset _ hfit
  rw [hoffset, place_totalSize] at hplace
  replace hplace := hplace.trans_eq j.mmap.length_eq.symm
  rw [afterCall, hcall, contents, hbytes, totalSize_sinceWrap, slice_add, Nat.zero_add,
    slice_overwrite_self hplace, slice_overwrite_of_apart hplace (.inl (by rw [Nat.zero_add])),
    sinceWrap_append_singleton]
  split
  . simp [bytesOf, totalSize, slice]
  . rw [contents, bytesOf] at hslice
    rw [List.dropLast_concat, hslice, bytesOf, List.flatMap_append, List.flatMap_singleton]

-- The beginning of the file is made up of the entries since the last wrap.
theorem slice_foldl (file : Bytes) (policy : SyncPolicy) {calls : List AppendCall}
    (hfit : ∀ c ∈ calls, HEADER_SIZE + c.entry.body.length ≤ capacity)
    : Lapped capacity policy (calls.map AppendCall.entry)
          (calls.foldl afterCall (openFile file capacity policy))
        ∧ slice (calls.foldl afterCall (openFile file capacity policy)).contents 0
            (totalSize (sinceWrap capacity (calls.map AppendCall.entry)))
          = bytesOf (sinceWrap capacity (calls.map AppendCall.entry)) := by
  induction calls using List.reverseRecOn with
  | nil => exact ⟨⟨rfl, rfl, rfl⟩, rfl⟩
  | append_singleton calls c ih =>
    rw [List.forall_mem_append, List.forall_mem_singleton] at hfit
    obtain ⟨hlapped, hslice⟩ := ih hfit.1
    have hle : c.entry.bytes.length ≤ capacity := by
      rw [JournalEntry.length_bytes]
      exact hfit.2
    rw [List.map_append, List.map_singleton, List.foldl_append, List.foldl_cons, List.foldl_nil]
    exact ⟨(appendCall_of_lapped hlapped hle).1, slice_afterCall hlapped hle hslice⟩

theorem exists_lost (capacity : Nat) (entries : List JournalEntry)
    : ∃ lost, entries = lost ++ sinceWrap capacity entries := by
  induction entries using List.reverseRecOn with
  | nil => exact ⟨[], rfl⟩
  | append_singleton entries e ih =>
    rw [sinceWrap_append_singleton]
    split
    . exact ⟨entries, rfl⟩
    . obtain ⟨lost, hlost⟩ := ih
      refine ⟨lost, ?_⟩
      rw [← List.append_assoc, ← hlost]

theorem sinceWrap_of_le {entries : List JournalEntry} (h : totalSize entries ≤ capacity)
    : sinceWrap capacity entries = entries := by
  induction entries using List.reverseRecOn with
  | nil => rfl
  | append_singleton entries e ih =>
    rw [totalSize_append, totalSize_singleton] at h
    rw [sinceWrap_append_singleton, ih (by omega), if_neg (by omega)]

-- Whoever opens the file reads the entries since the last wrap first.
theorem entriesFrom_reopened (file : Bytes) (policy policy' : SyncPolicy) {calls : List AppendCall}
    (hfit : ∀ c ∈ calls, HEADER_SIZE + c.entry.body.length ≤ capacity)
    (hsized : ∀ c ∈ calls, c.entry.Sized)
    : ∃ rest, (openFile (calls.foldl afterCall (openFile file capacity policy)).contents capacity
          policy').entriesFrom 0
        = (sinceWrap capacity (calls.map AppendCall.entry)).map JournalEntry.found ++ rest := by
  obtain ⟨hlapped, hslice⟩ := slice_foldl file policy hfit
  generalize calls.foldl afterCall (openFile file capacity policy) = j at hlapped hslice
  have hlength : j.contents.length = capacity := j.mmap.length_eq.trans hlapped.capacity_eq
  have hentries : ∀ e ∈ calls.map AppendCall.entry, e.bytes.length ≤ capacity ∧ e.Sized := by
    rw [List.forall_mem_map]
    intro c hc
    rw [JournalEntry.length_bytes]
    exact ⟨hfit c hc, hsized c hc⟩
  have hle := totalSize_sinceWrap_le fun e he => (hentries e he).1
  obtain ⟨lost, hlost⟩ := exists_lost capacity (calls.map AppendCall.entry)
  refine ⟨_, entriesFrom_of_slice ?_ ?_ ?_⟩
  . rw [Nat.zero_add]
    exact hle
  . intro e he
    apply (hentries e _).2
    rw [hlost]
    exact List.mem_append_right lost he
  . change slice (setLen j.contents capacity) 0 _ = _
    rw [setLen_length_eq hlength]
    exact hslice

end Lap

end Journal

-- What a session hands to the journal, and whether the flush that may follow succeeds.
structure Posting where
  sender : Bytes
  target : Bytes
  seqNum : UInt64
  message : Bytes
  flushed : Bool
  deriving DecidableEq

namespace Posting

def entry (p : Posting) : JournalEntry := ⟨sessionHash p.sender p.target, p.seqNum, p.message⟩

def call (p : Posting) : Journal.AppendCall := ⟨p.flushed, p.entry⟩

def Of (p : Posting) (sender target : Bytes) : Prop := p.sender = sender ∧ p.target = target

instance (p : Posting) (sender target : Bytes) : Decidable (p.Of sender target) :=
  inferInstanceAs (Decidable (_ ∧ _))

end Posting

namespace Journal

def post (file : Bytes) (capacity : Nat) (policy : SyncPolicy) (postings : List Posting) : Journal :=
  (postings.map Posting.call).foldl afterCall (openFile file capacity policy)

-- Two clients that are called almost the same.
def clientPostings : List Posting :=
  [⟨ascii "CLIENT1", ascii "EXCH", 1, ascii "8=FIX.4.4", true⟩,
    ⟨ascii "CLIENT2", ascii "EXCH", 1, ascii "8=FIX.4.2", true⟩,
    ⟨ascii "CLIENT1", ascii "EXCH", 2, ascii "8=FIX.4.4", false⟩]

end Journal

end Velocitas
