import VelocitasFix.Parser.Safety

/-!
This module contains the exact buffers on which no machine operation of the parser leaves its type, so
that a debug build and a release build return the same.
-/

namespace Velocitas

namespace Checksum

theorem validateFits_iff (m : LaxMessage)
    : ValidateFits m.bytes
        ↔
      (2 ≤ m.checkSum.value.length →
        DigitsFit ((m.checkSum.value ++ [Tags.soh]).getD 0 0) ((m.checkSum.value ++ [Tags.soh]).getD 1 0)
          ((m.checkSum.value ++ [Tags.soh]).getD 2 0)) := by
  have hlen := m.length_bytes
  have hpos := m.length_preamble
  have h8 := m.beginString.length_render
  have h9 := m.bodyLength.length_render
  have hget (d : Nat) : m.bytes.getD ((renderFields m.preamble).length + 3 + d) 0
      = (m.checkSum.value ++ [Tags.soh]).getD d 0 := by
    rw [← m.drop_bytes, List.getD_eq_getElem?_getD, List.getD_eq_getElem?_getD, List.getElem?_drop]
  have hget0 := hget 0
  rw [Nat.add_zero] at hget0
  unfold ValidateFits
  dsimp only
  rw [m.trailerStart_bytes, hget0, hget 1, hget 2]
  constructor
  . intro h htwo
    exact (h (by omega)).2 (by omega) (by omega)
  . intro h _
    refine ⟨?_, ?_⟩
    . intro hzero
      omega
    . intro _ hsix
      exact h (by omega)

end Checksum

namespace FixParser

theorem FieldRun.validateFits {fs : List RawField} {rest : Bytes} (hrun : FieldRun 0 fs rest)
    (h : ∀ m : LaxMessage, m.fields ≠ fs)
    : Checksum.ValidateFits (renderFields fs) := by
  have hstart : Checksum.trailerStart (renderFields fs) ((renderFields fs).length - 4) = 0 := by
    have hzero := hrun.trailerStart_eq_zero (fun pre g heq hg => by
      rw [heq] at hrun
      obtain ⟨m, hpre, hsum⟩ := LaxMessage.exists_of_fieldRun hrun hg
      apply h m
      rw [heq, ← hpre, ← hsum]
      rfl) []
    rw [List.append_nil] at hzero
    exact hzero
  intro _
  dsimp only
  rw [hstart]
  refine ⟨fun _ => hrun.startsWithTrailer_eq_false, ?_⟩
  intro hone
  omega

end FixParser

namespace Checked

namespace FixParser

open Velocitas.FixParser (finalState finalState_pos bodyLengthValid_iff parseFields_eq_ok)

/-
The tags before the first checksum field, and the one after them that may have no end, stay below 2^32.
BodyLength has no byte below '0' and stays below 2^64. The checksum digits, if they are looked at, have
no byte below '0' and stay below 256.
-/
structure ArithSafe (parser : FixParser) (buffer : Bytes) : Prop where
  tag : ∀ fs rest, buffer = renderFields fs ++ rest → rest ≠ [] → Passed 0 fs →
    accumulated 0 (digitRun rest) < 2 ^ 32
  bodyLength : ∀ (f8 f9 : RawField) (rest : Bytes), buffer = renderFields [f8, f9] ++ rest →
    f8.tag = Tags.beginString → f9.tag = Tags.bodyLength → LengthFits 0 f9.value
  checkSum : parser.validateChecksum → ∀ (m : LaxMessage) (rest : Bytes), buffer = m.bytes ++ rest →
    (parser.validateBodyLength →
      Velocitas.FixParser.statedLength m.bodyLength.value = UInt64.ofNat m.content.length) →
    2 ≤ m.checkSum.value.length →
    Velocitas.Checksum.DigitsFit ((m.checkSum.value ++ [Tags.soh]).getD 0 0)
      ((m.checkSum.value ++ [Tags.soh]).getD 1 0) ((m.checkSum.value ++ [Tags.soh]).getD 2 0)

theorem fieldNum_of_passed (st : FixParser.ParseState) {fs : List RawField}
    (h : Passed st.fieldNum fs)
    : (fs.foldl FixParser.ParseState.record st).fieldNum = st.fieldNum + fs.length := by
  induction fs generalizing st with
  | nil => rfl
  | cons f fs ih =>
    obtain ⟨_, hsum, hrest⟩ := h
    have hnum : (FixParser.ParseState.record st f).fieldNum = st.fieldNum + 1 :=
      Velocitas.FixParser.ParseState.record_fieldNum hsum
    rw [← hnum] at hrest
    rw [List.foldl_cons, ih _ hrest, hnum, List.length_cons]
    omega

theorem passed_singleton {f8 : RawField} (h : f8.tag = Tags.beginString) : Passed 0 [f8] := by
  refine ⟨?_, ?_, trivial⟩
  . rw [LaxMessage.checkStructure_eq_ok]
    simp [h]
  . rw [h]
    decide

theorem loopFits_init_iff (buffer : Bytes)
    : LoopFits buffer (.init buffer)
        ↔
      (∀ fs rest, buffer = renderFields fs ++ rest → rest ≠ [] → Passed 0 fs →
          accumulated 0 (digitRun rest) < 2 ^ 32)
        ∧ ∀ (f8 f9 : RawField) (rest : Bytes), buffer = renderFields [f8, f9] ++ rest →
          f8.tag = Tags.beginString → f9.tag = Tags.bodyLength → LengthFits 0 f9.value := by
  have hdrop {fs : List RawField} {rest : Bytes} (hbuffer : buffer = renderFields fs ++ rest)
      : buffer.drop (finalState buffer fs).pos = rest := by
    rw [finalState_pos, hbuffer, List.drop_left]
  constructor
  . intro hfits
    constructor
    . intro fs rest hbuffer hne hpassed
      have hfield := (hfits fs rest hbuffer hne hpassed).tag
      rw [← finalState, hdrop hbuffer] at hfield
      exact hfield
    . intro f8 f9 rest hbuffer h8 h9
      have hsplit : buffer = renderFields [f8] ++ (f9.render ++ rest) := by
        rw [hbuffer]
        simp
      have hne : f9.render ++ rest ≠ [] := by
        simp [RawField.render]
      have hpassed := passed_singleton h8
      apply (hfits [f8] _ hsplit hne hpassed).bodyLength _ f9 rest _ h9
      . exact fieldNum_of_passed _ hpassed
      . rw [← finalState, hdrop hsplit]
  . intro h fs rest hbuffer hne hpassed
    have hbuffer : buffer = renderFields fs ++ rest := hbuffer
    rw [← finalState]
    constructor
    . rw [hdrop hbuffer]
      exact h.1 fs rest hbuffer hne hpassed
    . intro hnum f9 rest' hrest h9
      rw [hdrop hbuffer] at hrest
      have hlength := fieldNum_of_passed (.init buffer) hpassed
      rw [← finalState, hnum] at hlength
      have hone : fs.length = 1 := by
        change 1 = 0 + fs.length at hlength
        omega
      rcases List.length_eq_one_iff.mp hone with ⟨f8, rfl⟩
      apply h.2 f8 f9 rest' _ _ h9
      . rw [hbuffer, hrest]
        simp
      . exact (LaxMessage.checkStructure_eq_ok.mp hpassed.1).1 rfl

theorem parseFits_iff (parser : FixParser) (buffer : Bytes)
    : ParseFits parser buffer ↔ ArithSafe parser buffer := by
  constructor
  . intro h
    obtain ⟨htag, hlength⟩ := (loopFits_init_iff buffer).mp h.loop
    refine ⟨htag, hlength, ?_⟩
    intro hcheck m rest hbuffer hstated htwo
    have hst := parseFields_eq_ok.mpr ⟨m.fields, rest, hbuffer, m.fieldRun rest, rfl⟩
    have hfits := h.checkSum _ hst (fun hbody => by
      rw [hbuffer]
      exact (bodyLengthValid_iff m rest).mpr (hstated hbody)) hcheck
    have hpos := finalState_pos buffer m.fields
    rw [finalState] at hpos
    rw [hpos, hbuffer] at hfits
    rw [← LaxMessage.bytes, List.take_left] at hfits
    exact (Velocitas.Checksum.validateFits_iff m).mp hfits htwo
  . intro h
    refine ⟨(loopFits_init_iff buffer).mpr ⟨h.tag, h.bodyLength⟩, ?_⟩
    intro st hst hbody hcheck
    obtain ⟨fs, rest, hbuffer, hrun, rfl⟩ := parseFields_eq_ok.mp hst
    have hpos := finalState_pos buffer fs
    rw [finalState] at hpos
    rw [hpos, hbuffer, List.take_left]
    by_cases hlax : ∃ m : LaxMessage, m.fields = fs
    . obtain ⟨m, rfl⟩ := hlax
      apply (Velocitas.Checksum.validateFits_iff m).mpr
      intro htwo
      apply h.checkSum hcheck m rest hbuffer _ htwo
      intro hlength
      have hvalid := hbody hlength
      rw [hbuffer] at hvalid
      exact (bodyLengthValid_iff m rest).mp hvalid
    . exact hrun.validateFits fun m hm => hlax ⟨m, hm⟩

theorem arithmetic_safe_iff (parser : FixParser) (buffer : Bytes)
    : parse .debug parser buffer = parse .release parser buffer
        ↔
      (20 ≤ buffer.length → buffer.length ≤ parser.maxMessageSize → ArithSafe parser buffer) := by
  have hparse := computes_parse parser buffer
  rw [hparse.release, hparse.debug_eq_ok_iff]
  apply imp_congr_right
  intro _
  apply imp_congr_right
  intro _
  exact parseFits_iff parser buffer

-- The tag is 2^32.
theorem arithmetic_not_safe
    : ¬ ∀ (validateChecksum validateBodyLength : Bool) (buffer : Bytes), buffer.length ≤ 65536 →
        parse .debug ⟨validateChecksum, validateBodyLength, 65536⟩ buffer
          = parse .release ⟨validateChecksum, validateBodyLength, 65536⟩ buffer := by
  intro hclaim
  have heq := hclaim true true (ascii "4294967296=FIX.4.4xyz") (by decide)
  have hparse := computes_parse ⟨true, true, 65536⟩ (ascii "4294967296=FIX.4.4xyz")
  rw [hparse.release, hparse.debug_eq_ok_iff] at heq
  have htag := ((heq (by decide) (by decide)).loop [] _ rfl (by decide) trivial).tag
  exact absurd htag (by decide +kernel)

end FixParser

end Checked

end Velocitas
