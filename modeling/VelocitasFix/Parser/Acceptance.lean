import VelocitasFix.Parser.Trailer

/-!
This module contains the exact set of buffers that the parser accepts with both validations on: the
buffers that start with a `LaxMessage` whose BodyLength and CheckSum match in the arithmetic the
parser uses.
-/

namespace Velocitas

open Ascii

structure LaxMessage where
  beginString : RawField
  bodyLength : RawField
  msgType : RawField
  body : List RawField
  checkSum : RawField
  beginString_tag : beginString.tag = Tags.beginString
  bodyLength_tag : bodyLength.tag = Tags.bodyLength
  msgType_tag : msgType.tag = Tags.msgType
  body_tag : ∀ f ∈ body, f.tag ≠ Tags.checksum
  checkSum_tagText : checkSum.tagText = checksumText

namespace LaxMessage

def preamble (m : LaxMessage) : List RawField :=
  m.beginString :: m.bodyLength :: m.msgType :: m.body

def fields (m : LaxMessage) : List RawField := m.preamble ++ [m.checkSum]

def bytes (m : LaxMessage) : Bytes := renderFields m.fields

-- The bytes that BodyLength counts.
def content (m : LaxMessage) : Bytes := renderFields (m.msgType :: m.body)

structure Accepted (m : LaxMessage) : Prop where
  bodyLength_eq : FixParser.statedLength m.bodyLength.value = UInt64.ofNat m.content.length
  two_le_length : 2 ≤ m.checkSum.value.length
  checkSum_eq :
    Checksum.compute (renderFields m.preamble)
      = Checksum.stated (m.checkSum.value ++ [Tags.soh]) 0

theorem preamble_ne_nil (m : LaxMessage) : m.preamble ≠ [] := by
  simp [preamble]

theorem bytes_eq (m : LaxMessage)
    : m.bytes = renderFields m.preamble
        ++ (checksumText ++ Tags.equals :: (m.checkSum.value ++ [Tags.soh])) := by
  simp [bytes, fields, RawField.render, m.checkSum_tagText]

theorem length_bytes (m : LaxMessage)
    : m.bytes.length = (renderFields m.preamble).length + m.checkSum.value.length + 4 := by
  rw [bytes_eq]
  simp
  omega

theorem length_preamble (m : LaxMessage)
    : (renderFields m.preamble).length
        = m.beginString.render.length + m.bodyLength.render.length + m.content.length := by
  simp only [preamble, content, renderFields_cons, List.length_append]
  omega

theorem take_bytes (m : LaxMessage)
    : m.bytes.take (renderFields m.preamble).length = renderFields m.preamble := by
  rw [m.bytes_eq, List.take_left]

theorem drop_bytes (m : LaxMessage)
    : m.bytes.drop ((renderFields m.preamble).length + 3) = m.checkSum.value ++ [Tags.soh] := by
  rw [← List.drop_drop, m.bytes_eq, List.drop_left]
  rfl

theorem checkStructure_eq_ok {n : Nat} {tag : UInt32}
    : FixParser.checkStructure n tag = .ok ()
        ↔
      (n = 0 → tag = Tags.beginString) ∧ (n = 1 → tag = Tags.bodyLength)
        ∧ (n = 2 → tag = Tags.msgType) := by
  unfold FixParser.checkStructure
  split
  all_goals simp_all

theorem fieldRun_body {fs : List RawField} (h : ∀ f ∈ fs, f.tag ≠ Tags.checksum) {g : RawField}
    (hg : g.tag = Tags.checksum) (n : Nat) (rest : Bytes)
    : FixParser.FieldRun (n + 3) (fs ++ [g]) rest := by
  induction fs generalizing n with
  | nil =>
    refine ⟨rfl, ?_⟩
    rw [if_pos hg]
  | cons f fs ih =>
    rw [List.forall_mem_cons] at h
    refine ⟨rfl, ?_⟩
    rw [if_neg h.1]
    exact ih h.2 (n + 1)

theorem fieldRun (m : LaxMessage) (rest : Bytes) : FixParser.FieldRun 0 m.fields rest := by
  have hbody := fieldRun_body m.body_tag (tag_of_tagText m.checkSum_tagText) 0 rest
  refine ⟨?_, ?_⟩
  . simp [checkStructure_eq_ok, m.beginString_tag]
  rw [m.beginString_tag, if_neg (by decide)]
  refine ⟨?_, ?_⟩
  . simp [checkStructure_eq_ok, m.bodyLength_tag]
  rw [m.bodyLength_tag, if_neg (by decide)]
  refine ⟨?_, ?_⟩
  . simp [checkStructure_eq_ok, m.msgType_tag]
  rw [m.msgType_tag, if_neg (by decide)]
  exact hbody

theorem exists_of_fieldRun {pre : List RawField} {g : RawField} {rest : Bytes}
    (hrun : FixParser.FieldRun 0 (pre ++ [g]) rest) (hg : g.tagText = checksumText)
    : ∃ m : LaxMessage, m.preamble = pre ∧ m.checkSum = g := by
  have hpre := (FixParser.FieldRun.of_append (by simp) hrun).1
  have hgtag := tag_of_tagText hg
  -- The checksum tag fails the structure check of the first three fields.
  have hnum (n : Nat) (hn : n ≤ 2) : FixParser.checkStructure n g.tag ≠ .ok () := by
    rw [ne_eq, checkStructure_eq_ok, hgtag]
    match n with
    | 0 => decide
    | 1 => decide
    | 2 => decide
  match pre with
  | [] => exact absurd hrun.1 (hnum 0 (by omega))
  | [f8] =>
    rw [List.forall_mem_cons] at hpre
    rcases hrun with ⟨-, hrun⟩
    rw [if_neg hpre.1] at hrun
    exact absurd hrun.1 (hnum 1 (by omega))
  | [f8, f9] =>
    simp only [List.forall_mem_cons] at hpre
    rcases hrun with ⟨-, hrun⟩
    rw [if_neg hpre.1] at hrun
    rcases hrun with ⟨-, hrun⟩
    rw [if_neg hpre.2.1] at hrun
    exact absurd hrun.1 (hnum 2 (by omega))
  | f8 :: f9 :: f35 :: body =>
    simp only [List.forall_mem_cons] at hpre
    rcases hpre with ⟨h8, h9, h35, hbody⟩
    rcases hrun with ⟨ht8, hrun⟩
    rw [if_neg h8] at hrun
    rcases hrun with ⟨ht9, hrun⟩
    rw [if_neg h9] at hrun
    rcases hrun with ⟨ht35, -⟩
    rw [checkStructure_eq_ok] at ht8 ht9 ht35
    exact ⟨⟨f8, f9, f35, body, g, ht8.1 rfl, ht9.2.1 rfl, ht35.2.2 rfl, hbody, hg⟩, rfl, rfl⟩

theorem trailerStart_bytes (m : LaxMessage)
    : Checksum.trailerStart m.bytes (m.bytes.length - 4) = (renderFields m.preamble).length := by
  have := (m.fieldRun []).trailerStart_concat m.preamble_ne_nil m.checkSum_tagText []
  rw [List.append_nil] at this
  exact this

end LaxMessage

namespace FixParser

theorem foldl_record_pos (st : ParseState) (fs : List RawField)
    : (fs.foldl ParseState.record st).pos = st.pos + (renderFields fs).length := by
  induction fs generalizing st with
  | nil => simp
  | cons f fs ih =>
    rw [List.foldl_cons, ih, ParseState.record_pos, renderFields_cons, List.length_append]
    omega

theorem ParseState.record_bodyStart {st : ParseState} (f : RawField) (h : st.fieldNum ≠ 1)
    : (st.record f).bodyStart = st.bodyStart := by
  simp [record, recordField, h]

theorem ParseState.record_statedBodyLength {st : ParseState} (f : RawField) (h : st.fieldNum ≠ 1)
    : (st.record f).statedBodyLength = st.statedBodyLength := by
  simp [record, recordField, h]

theorem ParseState.record_bodyLength {st : ParseState} (f : RawField) (h : st.fieldNum = 1)
    : (st.record f).bodyStart = st.pos + f.render.length
        ∧ (st.record f).statedBodyLength = statedLength f.value := by
  simp only [record, recordField, h, ↓reduceIte, RawField.length_render, and_true]
  omega

theorem ParseState.le_record_fieldNum (st : ParseState) (f : RawField)
    : st.fieldNum ≤ (st.record f).fieldNum := by
  simp only [record, recordField]
  split
  all_goals omega

theorem foldl_record_body {st : ParseState} (fs : List RawField) (h : 2 ≤ st.fieldNum)
    : (fs.foldl ParseState.record st).bodyStart = st.bodyStart
        ∧ (fs.foldl ParseState.record st).statedBodyLength = st.statedBodyLength := by
  induction fs generalizing st with
  | nil => exact ⟨rfl, rfl⟩
  | cons f fs ih =>
    have hne : st.fieldNum ≠ 1 := by omega
    have hle : 2 ≤ (st.record f).fieldNum := Nat.le_trans h (st.le_record_fieldNum f)
    rcases ih hle with ⟨hstart, hstated⟩
    rw [List.foldl_cons, hstart, hstated, ParseState.record_bodyStart f hne,
      ParseState.record_statedBodyLength f hne]
    exact ⟨rfl, rfl⟩

def finalState (buffer : Bytes) (fs : List RawField) : ParseState :=
  fs.foldl ParseState.record (.init buffer)

theorem finalState_pos (buffer : Bytes) (fs : List RawField)
    : (finalState buffer fs).pos = (renderFields fs).length := by
  rw [finalState, foldl_record_pos]
  simp [ParseState.init]

theorem finalState_cons_cons (buffer : Bytes) {f8 f9 : RawField} (h8 : f8.tag = Tags.beginString)
    (h9 : f9.tag = Tags.bodyLength) (fs : List RawField)
    : (finalState buffer (f8 :: f9 :: fs)).bodyStart = f8.render.length + f9.render.length
        ∧ (finalState buffer (f8 :: f9 :: fs)).statedBodyLength = statedLength f9.value := by
  have hnum8 : ((ParseState.init buffer).record f8).fieldNum = 1 := by
    rw [ParseState.record_fieldNum]
    . rfl
    . rw [h8]
      decide
  have hnum9 : (((ParseState.init buffer).record f8).record f9).fieldNum = 2 := by
    rw [ParseState.record_fieldNum, hnum8]
    rw [h9]
    decide
  have hsplit : finalState buffer (f8 :: f9 :: fs)
      = fs.foldl ParseState.record (((ParseState.init buffer).record f8).record f9) := rfl
  rw [hsplit]
  rcases foldl_record_body fs (by omega :
    2 ≤ (((ParseState.init buffer).record f8).record f9).fieldNum) with ⟨hstart, hstated⟩
  rcases ParseState.record_bodyLength f9 hnum8 with ⟨hstart9, hstated9⟩
  rw [hstart, hstated, hstart9, hstated9, ParseState.record_pos]
  refine ⟨?_, rfl⟩
  simp only [ParseState.init]
  omega

theorem finalState_body (buffer : Bytes) (m : LaxMessage)
    : (finalState buffer m.fields).bodyStart
          = m.beginString.render.length + m.bodyLength.render.length
        ∧ (finalState buffer m.fields).statedBodyLength = statedLength m.bodyLength.value :=
  finalState_cons_cons buffer m.beginString_tag m.bodyLength_tag _

theorem bodyLengthValid_iff (m : LaxMessage) (rest : Bytes)
    : bodyLengthValid (m.bytes ++ rest) (finalState (m.bytes ++ rest) m.fields)
        ↔
      statedLength m.bodyLength.value = UInt64.ofNat m.content.length := by
  have hlen := m.length_bytes
  have hpre := m.length_preamble
  have h8 := m.beginString.length_render
  have h9 := m.bodyLength.length_render
  have hstart : findChecksumTagStart (m.bytes ++ rest) m.bytes.length
      = (renderFields m.preamble).length := by
    unfold findChecksumTagStart
    rw [if_neg (by omega)]
    exact (m.fieldRun rest).trailerStart_concat m.preamble_ne_nil m.checkSum_tagText rest
  have hpos : (finalState (m.bytes ++ rest) m.fields).pos = m.bytes.length :=
    finalState_pos _ _
  rcases finalState_body (m.bytes ++ rest) m with ⟨hbody, hstated⟩
  simp only [bodyLengthValid, hpos, hstart, hbody, hstated, hpre, gt_iff_lt, Bool.and_eq_true,
    decide_eq_true_eq]
  rw [if_pos (by omega), decide_eq_true_iff, UInt64.ofNat_add _ m.content.length, UInt64.add_comm]
  simp only [UInt64.add_sub_cancel]
  exact eq_comm

theorem stated_drop (msg : Bytes) (offset : Nat)
    : Checksum.stated msg offset = Checksum.stated (msg.drop offset) 0 := by
  simp [Checksum.stated, List.getD_eq_getElem?_getD]

theorem validate_iff (m : LaxMessage)
    : Checksum.validate m.bytes
        ↔
      2 ≤ m.checkSum.value.length
        ∧ Checksum.compute (renderFields m.preamble)
            = Checksum.stated (m.checkSum.value ++ [Tags.soh]) 0 := by
  have hlen := m.length_bytes
  have hpre := m.length_preamble
  have h8 := m.beginString.length_render
  have h9 := m.bodyLength.length_render
  have hne : ¬ (renderFields m.preamble).length = 0 := by omega
  simp only [Checksum.validate, m.trailerStart_bytes, m.take_bytes, hne, decide_false,
    Bool.false_and]
  rw [if_neg (by omega), if_neg (by simp), stated_drop, m.drop_bytes]
  split
  . simp
    omega
  . simp
    omega

theorem FieldRun.startsWithTrailer_eq_false {fs : List RawField} {rest : Bytes}
    (hrun : FieldRun 0 fs rest)
    : Checksum.startsWithTrailer (renderFields fs) = false := by
  rw [Bool.eq_false_iff, ne_eq, Checksum.startsWithTrailer_iff]
  intro h
  rcases h with ⟨tail, h⟩
  cases fs with
  | nil => simp at h
  | cons f fs =>
    have hsplit : f.tagText ++ Tags.equals :: (f.value ++ Tags.soh :: renderFields fs)
        = checksumText ++ Tags.equals :: tail := by
      rw [← h]
      simp [RawField.render]
    have htext : Tags.equals ∉ f.tagText := f.digits.not_mem (by decide)
    have htag := tag_of_tagText (append_cons_inj_of_not_mem htext (by decide) hsplit).1
    have h8 := hrun.1
    rw [LaxMessage.checkStructure_eq_ok, htag] at h8
    exact absurd (h8.1 rfl) (by decide)

theorem validate_eq_false {fs : List RawField} {rest : Bytes} (hrun : FieldRun 0 fs rest)
    (h : ∀ pre g, fs = pre ++ [g] → g.tagText ≠ checksumText)
    : Checksum.validate (renderFields fs) = false := by
  have hstart : Checksum.trailerStart (renderFields fs) ((renderFields fs).length - 4) = 0 := by
    simpa using hrun.trailerStart_eq_zero h []
  simp only [Checksum.validate, hstart, hrun.startsWithTrailer_eq_false]
  simp

theorem exists_of_fieldRun_of_validate {fs : List RawField} {rest : Bytes}
    (hrun : FieldRun 0 fs rest) (h : Checksum.validate (renderFields fs))
    : ∃ m : LaxMessage, m.fields = fs := by
  by_contra hne
  have hfalse : Checksum.validate (renderFields fs) = false := by
    apply validate_eq_false hrun
    intro pre g heq hg
    rw [heq] at hrun
    rcases LaxMessage.exists_of_fieldRun hrun hg with ⟨m, rfl, rfl⟩
    exact hne ⟨m, heq.symm⟩
  rw [h] at hfalse
  contradiction

theorem parse_eq_ok {parser : FixParser} {buffer : Bytes} {view : MessageView} {n : Nat}
    : parser.parse buffer = .ok (view, n)
        ↔
      20 ≤ buffer.length ∧ buffer.length ≤ parser.maxMessageSize
        ∧ ∃ st, parseFields buffer (.init buffer) = .ok st
          ∧ (parser.validateBodyLength → bodyLengthValid buffer st)
          ∧ (parser.validateChecksum → Checksum.validate (buffer.take st.pos))
          ∧ view = st.view.setChecksumValid true ∧ n = st.pos := by
  unfold parse
  dsimp
  constructor
  . intro h
    split at h
    . contradiction
    . split at h
      . contradiction
      . split at h
        . contradiction
        . next st hst =>
          refine ⟨by omega, by omega, st, hst, ?_⟩
          split at h
          . contradiction
          . next hbody =>
            have hlength : parser.validateBodyLength → bodyLengthValid buffer st := by
              simpa using hbody
            split at h
            . next hsum =>
              split at h
              . contradiction
              . next hvalid =>
                rw [Bool.not_eq_true, Bool.not_eq_false'] at hvalid
                simp only [Except.ok.injEq, Prod.mk.injEq, hvalid] at h
                exact ⟨hlength, fun _ => hvalid, h.1.symm, h.2.symm⟩
            . next hsum =>
              simp only [Except.ok.injEq, Prod.mk.injEq] at h
              exact ⟨hlength, fun hcheck => absurd hcheck hsum, h.1.symm, h.2.symm⟩
  . intro h
    rcases h with ⟨hmin, hmax, st, hst, hbody, hsum, rfl, rfl⟩
    rw [if_neg (by omega), if_neg (by omega), hst]
    dsimp
    rw [if_neg (by simpa using hbody)]
    split
    . next hcheck => simp [hsum hcheck]
    . rfl

theorem parse_new_eq_ok {buffer : Bytes} {view : MessageView} {n : Nat}
    : new.parse buffer = .ok (view, n)
        ↔
      20 ≤ buffer.length ∧ buffer.length ≤ 65536
        ∧ ∃ (m : LaxMessage) (rest : Bytes), buffer = m.bytes ++ rest ∧ m.Accepted
          ∧ view = (finalState buffer m.fields).view.setChecksumValid true
          ∧ n = m.bytes.length := by
  rw [parse_eq_ok]
  constructor
  . intro h
    rcases h with ⟨hmin, hmax, st, hst, hbody, hsum, hview, hn⟩
    rcases parseFields_eq_ok.mp hst with ⟨fs, rest, hbuf, hrun, rfl⟩
    have hpos := finalState_pos buffer fs
    rw [finalState] at hpos
    have hvalid := hsum rfl
    rw [hpos, hbuf, List.take_left] at hvalid
    rcases exists_of_fieldRun_of_validate hrun hvalid with ⟨m, rfl⟩
    have hlength := hbody rfl
    rw [hbuf] at hlength
    refine ⟨hmin, hmax, m, rest, hbuf, ?_, hview, by rw [hn, hpos]; rfl⟩
    rcases (validate_iff m).mp hvalid with ⟨htwo, hcomp⟩
    exact ⟨(bodyLengthValid_iff m rest).mp hlength, htwo, hcomp⟩
  . intro h
    rcases h with ⟨hmin, hmax, m, rest, hbuf, hm, hview, hn⟩
    refine ⟨hmin, hmax, finalState buffer m.fields, ?_, ?_, ?_, hview, ?_⟩
    . exact parseFields_eq_ok.mpr ⟨m.fields, rest, hbuf, m.fieldRun rest, rfl⟩
    . intro _
      rw [hbuf]
      exact (bodyLengthValid_iff m rest).mpr hm.bodyLength_eq
    . intro _
      rw [finalState_pos, hbuf]
      change Checksum.validate (List.take m.bytes.length (m.bytes ++ rest))
      rw [List.take_left]
      exact (validate_iff m).mpr ⟨hm.two_le_length, hm.checkSum_eq⟩
    . rw [finalState_pos, hn]
      rfl

end FixParser

end Velocitas
