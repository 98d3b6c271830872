import VelocitasFix.Journal.ReadBack
import VelocitasFix.Data.ShiftRegister

/-!
This module contains what the CRC32 of an entry notices: any change of the body within four
consecutive bytes.
-/

namespace Velocitas

open ShiftRegister (DifferWithin feed)

-- The polynomial of CRC-32 with its bits in reverse.
def crc32Poly : BitVec 32 := 0xEDB88320#32

theorem toBitVec_crc32Step (crc : UInt32)
    : (crc32Step crc).toBitVec = ShiftRegister.step crc32Poly crc.toBitVec := by
  have hlow : crc &&& 1 ≠ 0 ↔ crc.toBitVec.getLsbD 0 = true := by
    rw [ne_eq, ← UInt32.toBitVec_inj, UInt32.toBitVec_and]
    show ¬ crc.toBitVec &&& 1#32 = 0#32 ↔ _
    rw [BitVec.and_one_eq_setWidth_ofBool_getLsbD]
    cases crc.toBitVec.getLsbD 0 with
    | false => decide
    | true => decide
  unfold crc32Step ShiftRegister.step
  by_cases h : crc &&& 1 ≠ 0
  . rw [if_pos h, if_pos (hlow.mp h)]
    rfl
  . rw [if_neg h, if_neg (mt hlow.mpr h)]
    rfl

theorem toBitVec_crc32Byte (crc : UInt32) (byte : UInt8)
    : (crc32Byte crc byte).toBitVec = feed crc32Poly crc.toBitVec byte.toBitVec := by
  have hsteps (n : Nat) (crc : UInt32)
      : ((List.range n).foldl (fun crc _ => crc32Step crc) crc).toBitVec
          = ShiftRegister.steps crc32Poly n crc.toBitVec := by
    induction n generalizing crc with
    | zero => rfl
    | succ n ih =>
      rw [List.range_succ_eq_map, List.foldl_cons, List.foldl_map, ih, toBitVec_crc32Step]
      rfl
  rw [crc32Byte, hsteps]
  rfl

theorem toBitVec_foldl_crc32Byte (crc : UInt32) (data : Bytes)
    : (data.foldl crc32Byte crc).toBitVec
        = (data.map UInt8.toBitVec).foldl (feed crc32Poly) crc.toBitVec := by
  induction data generalizing crc with
  | nil => rfl
  | cons byte data ih => rw [List.foldl_cons, ih, toBitVec_crc32Byte, List.map_cons, List.foldl_cons]

theorem eq_of_crc32Simple_eq {x y : Bytes} (hdiffer : DifferWithin 4 x y)
    (h : crc32Simple x = crc32Simple y)
    : x = y := by
  have hstate : x.foldl crc32Byte 0xFFFFFFFF = y.foldl crc32Byte 0xFFFFFFFF := by
    have hxor := congrArg (. ^^^ 0xFFFFFFFF) h
    simpa [crc32Simple, UInt32.xor_assoc] using hxor
  have hmap : DifferWithin 4 (x.map UInt8.toBitVec) (y.map UInt8.toBitVec) := by
    obtain ⟨hlen, start, hsame⟩ := hdiffer
    refine ⟨by rw [List.length_map, List.length_map, hlen], start, ?_⟩
    intro i hi
    rw [List.getElem?_map, List.getElem?_map, hsame i hi]
  rw [← UInt32.toBitVec_inj, toBitVec_foldl_crc32Byte, toBitVec_foldl_crc32Byte] at hstate
  have heq := ShiftRegister.eq_of_foldl_feed_eq (by decide) (by decide) hmap hstate
  apply List.map_injective_iff.mpr _ heq
  intro a b hab
  exact UInt8.toBitVec_inj.mp hab

namespace Journal

theorem detects_body_corruption
    : (∀ x y, DifferWithin 4 x y → x ≠ y → crc32Simple x ≠ crc32Simple y)
        ∧ ∀ (j : Journal) (offset : Nat) (header : JournalEntryHeader) (body altered : Bytes)
            (mmap : MmapMut j.capacity), j.readEntry offset = some (header, body) →
            DifferWithin 4 body altered → body ≠ altered →
            j.mmap.write (offset + HEADER_SIZE) altered = some mmap →
            Journal.readEntry { j with mmap := mmap } offset = none := by
  constructor
  . intro x y hdiffer hne heq
    exact hne (eq_of_crc32Simple_eq hdiffer heq)
  . intro j offset header body altered mmap hread hdiffer hne hwrite
    obtain ⟨hend, hheader, hbody, hcrc⟩ := (readEntry_eq_some j offset header body).mp hread
    have hlen : altered.length = header.bodyLength.toNat := by
      rw [← hdiffer.1, ← hbody]
      apply length_slice
      rw [j.mmap.length_eq]
      exact hend
    have hfit : offset + HEADER_SIZE + altered.length ≤ j.mmap.bytes.length := by
      rw [hlen, j.mmap.length_eq]
      exact hend
    rw [MmapMut.write_of_le _ (by rw [← j.mmap.length_eq]; exact hfit)] at hwrite
    have hbytes : mmap.bytes = overwrite j.mmap.bytes (offset + HEADER_SIZE) altered := by
      rw [← Option.some.inj hwrite]
    have hheader' : slice mmap.bytes offset HEADER_SIZE = slice j.mmap.bytes offset HEADER_SIZE := by
      rw [hbytes]
      exact slice_overwrite_of_apart hfit (Or.inl (Nat.le_refl _))
    have hbody' : slice mmap.bytes (offset + HEADER_SIZE) header.bodyLength.toNat = altered := by
      rw [hbytes, ← hlen]
      exact slice_overwrite_self hfit
    cases hread' : Journal.readEntry { j with mmap := mmap } offset with
    | none => rfl
    | some entry =>
      obtain ⟨_, hheader'', hbody'', hcrc''⟩ :=
        (readEntry_eq_some { j with mmap := mmap } offset entry.1 entry.2).mp hread'
      dsimp only at hheader'' hbody''
      rw [hheader', hheader] at hheader''
      rw [← hheader'', hbody'] at hbody''
      rw [← hheader'', ← hbody'', ← hcrc] at hcrc''
      exact absurd (eq_of_crc32Simple_eq hdiffer hcrc''.symm) hne

theorem differWithin_set (data : Bytes) (i : Nat) (b : UInt8)
    : DifferWithin 4 data (data.set i b) := by
  refine ⟨by rw [List.length_set], i, ?_⟩
  intro k hk
  rw [List.getElem?_set_ne (by omega)]

theorem detects_body_corruption_testData
    : crc32Simple (testData 1).body ≠ crc32Simple ((testData 1).body.set 5 0)
        ∧ ∃ mmap, afterTestData.mmap.write (0 + HEADER_SIZE) ((testData 1).body.set 5 0) = some mmap
          ∧ Journal.readEntry { afterTestData with mmap := mmap } 0 = none :=
  ⟨detects_body_corruption.1 _ _ (differWithin_set _ 5 0) (by decide),
    _, MmapMut.write_of_le _ (by decide),
    detects_body_corruption.2 afterTestData 0 (testData 1).header (testData 1).body _ _
      (by decide +kernel) (differWithin_set _ 5 0) (by decide) (MmapMut.write_of_le _ (by decide))⟩

end Journal

end Velocitas
