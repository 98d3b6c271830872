import VelocitasFix.Journal.Reopen

/-!
This module contains the condition under which every entry of the journal starts at an address that
the header type allows: it depends on all the bodies written since the last wrap.
-/

namespace Velocitas

namespace Journal

-- `align(8)`, which `std::ptr::read` relies on.
def HEADER_ALIGN : Nat := 8

structure AppendCall where
  flushed : Bool
  entry : JournalEntry

def appendCall (j : Journal) (c : AppendCall) : Journal × AppendResult :=
  j.append c.flushed c.entry.sessionHash c.entry.seqNum c.entry.body

def afterCall (j : Journal) (c : AppendCall) : Journal := (j.appendCall c).1

-- The entries from the last one on that was written to the beginning of the journal.
def sinceWrap (capacity : Nat) (entries : List JournalEntry) : List JournalEntry :=
  entries.foldl (fun lap e => if capacity < totalSize lap + e.bytes.length then [e] else lap ++ [e])
    []

def bodyBytes (entries : List JournalEntry) : Nat :=
  (entries.map fun e => e.body.length).sum

variable {capacity : Nat} {policy : SyncPolicy} {file : Bytes} {calls : List AppendCall}

theorem sinceWrap_append_singleton (entries : List JournalEntry) (e : JournalEntry)
    : sinceWrap capacity (entries ++ [e])
        = if capacity < totalSize (sinceWrap capacity entries) + e.bytes.length then [e]
          else sinceWrap capacity entries ++ [e] := by
  rw [sinceWrap, List.foldl_append]
  rfl

theorem totalSize_singleton (e : JournalEntry) : totalSize [e] = e.bytes.length := by
  simp [totalSize]

-- An entry is placed behind those that were written before it since the last wrap.
theorem place_totalSize (entries : List JournalEntry) (e : JournalEntry)
    : CircularLog.place capacity (totalSize (sinceWrap capacity entries)) e.bytes.length
        = totalSize (sinceWrap capacity (entries ++ [e])).dropLast := by
  rw [sinceWrap_append_singleton, CircularLog.place]
  split
  . rfl
  . rw [List.dropLast_concat]

theorem totalSize_sinceWrap (entries : List JournalEntry) (e : JournalEntry)
    : totalSize (sinceWrap capacity (entries ++ [e]))
        = totalSize (sinceWrap capacity (entries ++ [e])).dropLast + e.bytes.length := by
  rw [sinceWrap_append_singleton]
  split
  . rw [totalSize_singleton]
    exact (Nat.zero_add _).symm
  . rw [List.dropLast_concat, totalSize_append, totalSize_singleton]

-- The headers do not disturb the alignment, so only the bodies count.
theorem dvd_totalSize_iff (entries : List JournalEntry)
    : HEADER_ALIGN ∣ totalSize entries ↔ HEADER_ALIGN ∣ bodyBytes entries := by
  have hsum : totalSize entries = HEADER_SIZE * entries.length + bodyBytes entries := by
    induction entries with
    | nil => rfl
    | cons e es ih =>
      simp only [totalSize, bodyBytes, List.map_cons, List.sum_cons, List.length_cons] at ih ⊢
      rw [ih, Nat.mul_succ]
      omega
  rw [hsum]
  apply Nat.dvd_add_right
  apply Nat.dvd_mul_right_of_dvd
  decide

structure Lapped (capacity : Nat) (policy : SyncPolicy) (entries : List JournalEntry) (j : Journal)
    : Prop where
  capacity_eq : j.capacity = capacity
  syncPolicy_eq : j.syncPolicy = policy
  writeOffset_eq : j.writeOffset = totalSize (sinceWrap capacity entries)

theorem appendCall_of_lapped {entries : List JournalEntry} {j : Journal} {c : AppendCall}
    (h : Lapped capacity policy entries j) (hfit : c.entry.bytes.length ≤ capacity)
    : Lapped capacity policy (entries ++ [c.entry]) (j.afterCall c)
        ∧ (j.appendCall c).2
          = j.returned c.flushed (totalSize (sinceWrap capacity (entries ++ [c.entry])).dropLast) := by
  obtain ⟨rfl, rfl, hoffset⟩ := h
  obtain ⟨j', happend, hcapacity, hpolicy, hoffset', _⟩ := j.append_of_le c.flushed c.entry hfit
  rw [hoffset, place_totalSize] at happend hoffset'
  have hcall : j.appendCall c = _ := happend
  rw [afterCall, hcall]
  refine ⟨⟨hcapacity, hpolicy, ?_⟩, rfl⟩
  rw [totalSize_sinceWrap]
  exact hoffset'

theorem lapped_foldl (hfit : ∀ c ∈ calls, HEADER_SIZE + c.entry.body.length ≤ capacity)
    : ∀ pre, pre <+: calls → Lapped capacity policy (pre.map AppendCall.entry)
        (pre.foldl afterCall (openFile file capacity policy)) := by
  intro pre hpre
  induction pre using List.reverseRecOn with
  | nil => exact ⟨rfl, rfl, rfl⟩
  | append_singleton pre c ih =>
    have hlapped := ih (List.IsPrefix.trans (List.prefix_append pre [c]) hpre)
    have hle := hfit c (hpre.subset (by simp))
    rw [← JournalEntry.length_bytes] at hle
    rw [List.map_append, List.map_singleton, List.foldl_append]
    exact (appendCall_of_lapped hlapped hle).1

theorem aligned_iff (file : Bytes) (capacity : Nat) (policy : SyncPolicy) (calls : List AppendCall)
    (hfit : ∀ c ∈ calls, HEADER_SIZE + c.entry.body.length ≤ capacity)
    : (∀ pre c offset, pre ++ [c] <+: calls →
          ((pre.foldl afterCall (openFile file capacity policy)).appendCall c).2 = .ok offset →
          HEADER_ALIGN ∣ offset)
        ↔
      ∀ pre c, pre ++ [c] <+: calls → ¬ (policy = .everyMessage ∧ ¬ c.flushed) →
        HEADER_ALIGN
          ∣ bodyBytes (sinceWrap capacity ((pre ++ [c]).map AppendCall.entry)).dropLast := by
  have hreturn (pre : List AppendCall) (c : AppendCall) (hpre : pre ++ [c] <+: calls)
      : ((pre.foldl afterCall (openFile file capacity policy)).appendCall c).2
          = if policy = .everyMessage ∧ ¬ c.flushed then .flushFailed
            else .ok (totalSize (sinceWrap capacity
              ((pre ++ [c]).map AppendCall.entry)).dropLast) := by
    have hlapped := @lapped_foldl capacity policy file calls hfit pre
      (List.IsPrefix.trans (List.prefix_append pre [c]) hpre)
    have hle := hfit c (hpre.subset (by simp))
    rw [← JournalEntry.length_bytes] at hle
    rw [(appendCall_of_lapped hlapped hle).2, returned, hlapped.syncPolicy_eq, List.map_append,
      List.map_singleton]
  constructor
  . intro h pre c hpre hflush
    rw [← dvd_totalSize_iff]
    apply h pre c _ hpre
    rw [hreturn pre c hpre, if_neg hflush]
  . intro h pre c offset hpre hoffset
    rw [hreturn pre c hpre] at hoffset
    split at hoffset
    . contradiction
    . next hflush =>
      rw [← AppendResult.ok.inj hoffset, dvd_totalSize_iff]
      exact h pre c hpre hflush

def testCalls : List AppendCall := [⟨true, testData 1⟩, ⟨true, testData 2⟩]

theorem aligned_iff_testCalls
    : (∀ pre c offset, pre ++ [c] <+: testCalls →
          ((pre.foldl afterCall (openFile [] 200 .everyMessage)).appendCall c).2 = .ok offset →
          HEADER_ALIGN ∣ offset)
        ↔
      ∀ pre c, pre ++ [c] <+: testCalls →
        ¬ (SyncPolicy.everyMessage = .everyMessage ∧ ¬ c.flushed) →
        HEADER_ALIGN
          ∣ bodyBytes (sinceWrap 200 ((pre ++ [c]).map AppendCall.entry)).dropLast :=
  aligned_iff [] 200 .everyMessage testCalls (by decide)

-- The second message of 9 bytes goes to offset 33.
theorem not_aligned
    : ¬ ∀ (file : Bytes) (capacity : Nat) (policy : SyncPolicy) (calls : List AppendCall),
        (∀ c ∈ calls, HEADER_SIZE + c.entry.body.length ≤ capacity) →
        ∀ pre c offset, pre ++ [c] <+: calls →
          ((pre.foldl afterCall (openFile file capacity policy)).appendCall c).2 = .ok offset →
          HEADER_ALIGN ∣ offset := by
  intro h
  have hdvd := h [] 200 .everyMessage testCalls (by decide) [⟨true, testData 1⟩]
    ⟨true, testData 2⟩ 33 List.prefix_rfl (by decide +kernel)
  revert hdvd
  decide

end Journal

end Velocitas
