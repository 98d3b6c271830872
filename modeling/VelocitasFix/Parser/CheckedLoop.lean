import VelocitasFix.Parser.Checked

/-!
This module contains the field loop, the validations and the framing of the parser with every index,
range and machine operation that can fail, and what the loop needs for its arithmetic to stay in range.
-/

namespace Velocitas

namespace Checked

open Fault

namespace FixParser

theorem lt_of_parseField {build : Build} {buffer : Bytes} {st st' : FixParser.ParseState}
    {tag : UInt32} (h : parseField build buffer st = .ok (.ok (tag, st')))
    : st.pos < st'.pos := by
  have hmodel := (computes_parseField buffer st).eq_of_ok h
  exact Velocitas.FixParser.lt_of_parseField hmodel.symm

def parseFields (build : Build) (buffer : Bytes) (st : FixParser.ParseState)
    : Except Fault (Except ParseError FixParser.ParseState) :=
  if st.pos < buffer.length then
    match h:parseField build buffer st with
    | .error fault => .error fault
    | .ok (.error e) => .ok (.error e)
    | .ok (.ok (tag, st')) =>
      have := lt_of_parseField h
      if tag = Tags.checksum then
        .ok (.ok st')
      else
        parseFields build buffer st'
  else
    .ok (.ok st)
termination_by buffer.length - st.pos

-- The fields that the loop reads without leaving it.
def Passed : Nat → List RawField → Prop
  | _, [] => True
  | n, f :: fs =>
    FixParser.checkStructure n f.tag = .ok () ∧ f.tag ≠ Tags.checksum ∧ Passed (n + 1) fs

def LoopFits (buffer : Bytes) (st : FixParser.ParseState) : Prop :=
  ∀ fs rest, buffer.drop st.pos = renderFields fs ++ rest → rest ≠ [] → Passed st.fieldNum fs →
    FieldFits buffer (fs.foldl FixParser.ParseState.record st)

theorem loopFits_of_le {buffer : Bytes} {st : FixParser.ParseState} (h : buffer.length ≤ st.pos)
    : LoopFits buffer st := by
  intro fs rest hdrop hne
  rw [List.drop_eq_nil_of_le h] at hdrop
  exact absurd (List.append_eq_nil_iff.mp hdrop.symm).2 hne

theorem loopFits_iff {buffer : Bytes} {st : FixParser.ParseState} (h : st.pos < buffer.length)
    : LoopFits buffer st
        ↔
      FieldFits buffer st
        ∧ ∀ (f : RawField) (rest : Bytes), buffer.drop st.pos = f.render ++ rest →
          FixParser.checkStructure st.fieldNum f.tag = .ok () → f.tag ≠ Tags.checksum →
          LoopFits buffer (st.record f) := by
  constructor
  . intro hfits
    constructor
    . apply hfits [] (buffer.drop st.pos) rfl _ trivial
      rw [ne_eq, List.drop_eq_nil_iff]
      omega
    . intro f rest hdrop hcheck hsum fs rest' hdrop' hne hpassed
      rw [Velocitas.FixParser.ParseState.record_pos, drop_of_drop_eq_append hdrop] at hdrop'
      rw [Velocitas.FixParser.ParseState.record_fieldNum hsum] at hpassed
      apply hfits (f :: fs) rest' _ hne ⟨hcheck, hsum, hpassed⟩
      rw [hdrop, hdrop', renderFields_cons, List.append_assoc]
  . intro hboth fs rest hdrop hne hpassed
    cases fs with
    | nil => exact hboth.1
    | cons f fs =>
      rw [renderFields_cons, List.append_assoc] at hdrop
      apply hboth.2 f _ hdrop hpassed.1 hpassed.2.1 fs rest _ hne
      . rw [Velocitas.FixParser.ParseState.record_fieldNum hpassed.2.1]
        exact hpassed.2.2
      . rw [Velocitas.FixParser.ParseState.record_pos]
        exact drop_of_drop_eq_append hdrop

section

variable {build : Build} {buffer : Bytes} {st : FixParser.ParseState}

theorem parseFields_of_fault (hpos : st.pos < buffer.length) {fault : Fault}
    (h : parseField build buffer st = .error fault)
    : parseFields build buffer st = .error fault := by
  unfold parseFields
  rw [if_pos hpos]
  split
  . next heq =>
    rw [h] at heq
    rw [Except.error.inj heq]
  . next heq =>
    rw [h] at heq
    contradiction
  . next heq =>
    rw [h] at heq
    contradiction

theorem parseFields_of_error (hpos : st.pos < buffer.length) {e : ParseError}
    (h : parseField build buffer st = .ok (.error e))
    : parseFields build buffer st = .ok (.error e) := by
  unfold parseFields
  rw [if_pos hpos]
  split
  . next heq =>
    rw [h] at heq
    contradiction
  . next heq =>
    rw [h, Except.ok.injEq, Except.error.injEq] at heq
    rw [heq]
  . next heq =>
    rw [h, Except.ok.injEq] at heq
    contradiction

theorem parseFields_of_field (hpos : st.pos < buffer.length) {tag : UInt32}
    {st' : FixParser.ParseState} (h : parseField build buffer st = .ok (.ok (tag, st')))
    : parseFields build buffer st
        = if tag = Tags.checksum then .ok (.ok st') else parseFields build buffer st' := by
  conv => lhs; unfold parseFields
  rw [if_pos hpos]
  split
  . next heq =>
    rw [h] at heq
    contradiction
  . next heq =>
    rw [h, Except.ok.injEq] at heq
    contradiction
  . next heq =>
    rw [h, Except.ok.injEq, Except.ok.injEq, Prod.mk.injEq] at heq
    obtain ⟨rfl, rfl⟩ := heq
    rfl

end

-- The loop ends with a field that the parser does not accept.
theorem computes_parseFields_of_error {buffer : Bytes} {st : FixParser.ParseState} {e : ParseError}
    (hpos : st.pos < buffer.length)
    (hmodel : Velocitas.FixParser.parseField buffer st = .error e)
    : Computes (fun build => parseFields build buffer st) (LoopFits buffer st)
        (Velocitas.FixParser.parseFields buffer st) := by
  have hfield := computes_parseField buffer st
  rw [hmodel] at hfield
  rw [Velocitas.FixParser.parseFields_of_parseField_error hpos hmodel]
  apply Computes.congr
  . apply hfield.seq (.pure _)
    . intro build hok
      exact parseFields_of_error hpos hok
    . intro build fault hfault
      exact parseFields_of_fault hpos hfault
  . rw [and_true, loopFits_iff hpos]
    constructor
    . intro hfits
      refine ⟨hfits, ?_⟩
      intro f rest hdrop hcheck
      rw [Velocitas.FixParser.parseField_of_drop hdrop hcheck] at hmodel
      contradiction
    . intro hboth
      exact hboth.1

theorem computes_parseFields (buffer : Bytes) (st : FixParser.ParseState)
    : Computes (fun build => parseFields build buffer st) (LoopFits buffer st)
        (Velocitas.FixParser.parseFields buffer st) := by
  by_cases hpos : st.pos < buffer.length
  . cases hmodel : Velocitas.FixParser.parseField buffer st with
    | error e => exact computes_parseFields_of_error hpos hmodel
    | ok round =>
      have hfield := computes_parseField buffer st
      obtain ⟨tag, st'⟩ := round
      have hlt := Velocitas.FixParser.lt_of_parseField hmodel
      obtain ⟨f, rest, hdrop, hcheck, rfl, rfl⟩ := Velocitas.FixParser.exists_of_parseField hmodel
      have hunique {f' : RawField} {rest' : Bytes} (hdrop' : buffer.drop st.pos = f'.render ++ rest')
          : f' = f := by
        rw [hdrop] at hdrop'
        exact (RawField.render_append_inj hdrop').1.symm
      rw [hmodel] at hfield
      rw [Velocitas.FixParser.parseFields_of_parseField hpos hmodel]
      by_cases hsum : f.tag = Tags.checksum
      . rw [if_pos hsum]
        apply Computes.congr
        . apply hfield.seq (.pure _)
          . intro build hok
            rw [parseFields_of_field hpos hok, if_pos hsum]
          . intro build fault hfault
            exact parseFields_of_fault hpos hfault
        . rw [and_true, loopFits_iff hpos]
          constructor
          . intro hfits
            refine ⟨hfits, ?_⟩
            intro f' rest' hdrop' _ hne
            rw [hunique hdrop'] at hne
            exact absurd hsum hne
          . intro hboth
            exact hboth.1
      . rw [if_neg hsum]
        apply Computes.congr
        . apply hfield.seq (computes_parseFields buffer (st.record f))
          . intro build hok
            rw [parseFields_of_field hpos hok, if_neg hsum]
          . intro build fault hfault
            exact parseFields_of_fault hpos hfault
        . rw [loopFits_iff hpos]
          apply and_congr_right'
          constructor
          . intro hfits f' rest' hdrop' _ _
            rw [hunique hdrop']
            exact hfits
          . intro hnext
            exact hnext f rest hdrop hcheck hsum
  . unfold parseFields Velocitas.FixParser.parseFields
    simp only [if_neg hpos]
    exact (Computes.pure _).congr (iff_of_true trivial (loopFits_of_le (by omega)))
termination_by buffer.length - st.pos

def findChecksumTagStart (buffer : Bytes) (stop : Nat) : Except Fault Nat :=
  if stop < 7 then
    .ok 0
  else do
    let bound ← sub stop 4
    let start ← Checksum.trailerStart buffer bound
    if start > 0 then
      .ok start
    else
      -- Both results of the last comparison are 0.
      let _ ← Checksum.startsWithTrailer buffer
      .ok 0

def bodyLengthValid (buffer : Bytes) (st : FixParser.ParseState) : Except Fault Bool :=
  if st.bodyStart > 0 then do
    let checksumTagStart ← findChecksumTagStart buffer st.pos
    if checksumTagStart > 0 then
      let actualBodyLength ← sub checksumTagStart st.bodyStart
      .ok (decide (UInt64.ofNat actualBodyLength = st.statedBodyLength))
    else
      .ok true
  else
    .ok true

def finish (build : Build) (parser : FixParser) (buffer : Bytes) (st : FixParser.ParseState)
    : Except Fault (Except ParseError (MessageView × Nat)) := do
  let consumed := st.pos
  if parser.validateChecksum then
    let valid ← Checksum.validate build (← range buffer 0 consumed)
    if !valid then
      .ok (.error .invalidChecksum)
    else
      .ok (.ok (st.view.setChecksumValid valid, consumed))
  else
    .ok (.ok (st.view.setChecksumValid true, consumed))

def parse (build : Build) (parser : FixParser) (buffer : Bytes)
    : Except Fault (Except ParseError (MessageView × Nat)) :=
  let len := buffer.length
  if len < 20 then
    .ok (.error .bufferTooShort)
  else if len > parser.maxMessageSize then
    .ok (.error .messageTooLarge)
  else do
    match ← parseFields build buffer (.init buffer) with
    | .error e => .ok (.error e)
    | .ok st =>
      if parser.validateBodyLength then
        if ← bodyLengthValid buffer st then
          finish build parser buffer st
        else
          .ok (.error .invalidBodyLength)
      else
        finish build parser buffer st

def boundaryAt (buffer : Bytes) (i : Nat) : Except Fault Bool :=
  andThen (byteIs buffer i Tags.soh) <| andThen (byteIs buffer (i + 1) 49) <|
    andThen (byteIs buffer (i + 2) 48) <| andThen (byteIs buffer (i + 3) Tags.equals) <|
      byteIs buffer (i + 7) Tags.soh

def findMessageBoundary (buffer : Bytes) : Except Fault (Option Nat) :=
  if buffer.length < 7 then
    .ok none
  else
    go buffer 0
where
  go (buffer : Bytes) (i : Nat) : Except Fault (Option Nat) :=
    if i + 8 ≤ buffer.length then do
      if ← boundaryAt buffer i then
        .ok (some (i + 8))
      else
        go buffer (i + 1)
    else
      .ok none
  termination_by buffer.length - i

theorem computes_findChecksumTagStart {buffer : Bytes} {stop : Nat} (h : stop ≤ buffer.length)
    : Computes (fun _ => findChecksumTagStart buffer stop) True
        (Velocitas.FixParser.findChecksumTagStart buffer stop) := by
  unfold findChecksumTagStart Velocitas.FixParser.findChecksumTagStart
  by_cases hstop : stop < 7
  . simp only [if_pos hstop]
    exact .pure 0
  . simp only [if_neg hstop]
    apply (Computes.sub (by omega)).bind_of_true
    apply (Checksum.computes_trailerStart (by omega)).bind_of_true
    split
    . exact .pure _
    . next hzero =>
      have heq : Velocitas.Checksum.trailerStart buffer (stop - 4) = 0 := by omega
      rw [heq]
      apply (Checksum.computes_startsWithTrailer (by omega)).bind_of_true
      exact .pure 0

theorem computes_bodyLengthValid {buffer : Bytes} {st : FixParser.ParseState}
    (h : st.pos ≤ buffer.length)
    (hstart : 0 < Velocitas.FixParser.findChecksumTagStart buffer st.pos →
      st.bodyStart ≤ Velocitas.FixParser.findChecksumTagStart buffer st.pos)
    : Computes (fun _ => bodyLengthValid buffer st) True
        (Velocitas.FixParser.bodyLengthValid buffer st) := by
  unfold bodyLengthValid Velocitas.FixParser.bodyLengthValid
  dsimp only
  by_cases hbody : st.bodyStart > 0
  . simp only [hbody, decide_true, Bool.true_and]
    apply (computes_findChecksumTagStart h).bind_of_true
    generalize Velocitas.FixParser.findChecksumTagStart buffer st.pos = start at hstart
    by_cases hfound : start > 0
    . simp only [hfound, decide_true, if_true]
      apply (Computes.sub (hstart hfound)).bind_of_true
      rw [UInt64.ofNat_sub (hstart hfound)]
      exact .pure _
    . simp only [hfound, decide_false]
      exact .pure true
  . simp only [hbody, decide_false, Bool.false_and]
    exact .pure true

theorem computes_boundaryAt {buffer : Bytes} {i : Nat} (h : i + 8 ≤ buffer.length)
    : Computes (fun _ => boundaryAt buffer i) True (Velocitas.FixParser.boundaryAt buffer i) := by
  have hmodel : Velocitas.FixParser.boundaryAt buffer i
      = (decide (buffer[i]? = some Tags.soh) && (decide (buffer[i + 1]? = some 49)
        && (decide (buffer[i + 2]? = some 48) && (decide (buffer[i + 3]? = some Tags.equals)
          && decide (buffer[i + 7]? = some Tags.soh))))) := by
    simp only [Velocitas.FixParser.boundaryAt, Velocitas.Checksum.trailerAt, Bool.and_assoc]
  rw [hmodel]
  apply (computes_byteIs (by omega) _).andThen
  intro _
  apply (computes_byteIs (by omega) _).andThen
  intro _
  apply (computes_byteIs (by omega) _).andThen
  intro _
  apply (computes_byteIs (by omega) _).andThen
  intro _
  apply computes_byteIs (by omega)

theorem computes_findMessageBoundary_go (buffer : Bytes) (i : Nat)
    : Computes (fun _ => findMessageBoundary.go buffer i) True
        (Velocitas.FixParser.findMessageBoundary.go buffer i) := by
  unfold findMessageBoundary.go Velocitas.FixParser.findMessageBoundary.go
  by_cases hle : i + 8 ≤ buffer.length
  . simp only [if_pos hle]
    apply (computes_boundaryAt hle).bind_of_true
    split
    . exact .pure _
    . exact computes_findMessageBoundary_go buffer (i + 1)
  . simp only [if_neg hle]
    exact .pure none
termination_by buffer.length - i

theorem computes_findMessageBoundary (buffer : Bytes)
    : Computes (fun _ => findMessageBoundary buffer) True
        (Velocitas.FixParser.findMessageBoundary buffer) := by
  unfold findMessageBoundary Velocitas.FixParser.findMessageBoundary
  by_cases hlen : buffer.length < 7
  . simp only [if_pos hlen]
    exact .pure none
  . simp only [if_neg hlen]
    exact computes_findMessageBoundary_go buffer 0

end FixParser

end Checked

-- The trailer that the backward search finds stands after the BodyLength field.
theorem Checksum.exists_of_trailerStart {msg : Bytes} {n : Nat} (h : 0 < trailerStart msg n)
    : ∃ i, i < n ∧ trailerAt msg i ∧ trailerStart msg n = i + 1 := by
  induction n with
  | zero => simp [trailerStart] at h
  | succ n ih =>
    unfold trailerStart at h ⊢
    split
    . next hat => exact ⟨n, by omega, hat, rfl⟩
    . next hat =>
      rw [if_neg hat] at h
      obtain ⟨i, hi, hrest⟩ := ih h
      exact ⟨i, by omega, hrest⟩

namespace FixParser

theorem bodyStart_le {buffer : Bytes} {st : ParseState}
    (h : parseFields buffer (.init buffer) = .ok st)
    (hfound : 0 < findChecksumTagStart buffer st.pos)
    : st.bodyStart ≤ findChecksumTagStart buffer st.pos := by
  obtain ⟨fs, rest, hbuffer, hrun, rfl⟩ := parseFields_eq_ok.mp h
  have hpos := finalState_pos buffer fs
  rw [finalState] at hpos
  rw [hpos] at hfound ⊢
  unfold findChecksumTagStart at hfound ⊢
  split at hfound
  . contradiction
  . next hlen =>
    rw [if_neg hlen]
    obtain ⟨i, hi, hat, hstart⟩ := Checksum.exists_of_trailerStart hfound
    rw [hbuffer] at hat
    obtain ⟨pre, g, post, rfl, hne, hg, hpre⟩ := exists_of_trailerAt_renderFields (by omega) hat
    have hgtag := tag_of_tagText hg
    rw [hstart, hpre]
    cases pre with
    | nil => contradiction
    | cons f8 pre =>
      rcases hrun with ⟨h8, hrun⟩
      have htag8 := (LaxMessage.checkStructure_eq_ok.mp h8).1 rfl
      rw [htag8, if_neg (by decide)] at hrun
      cases pre with
      | nil =>
        -- The second field has tag 9.
        have htag9 := (LaxMessage.checkStructure_eq_ok.mp hrun.1).2.1 rfl
        rw [hgtag] at htag9
        exact absurd htag9 (by decide)
      | cons f9 pre =>
        have htag9 := (LaxMessage.checkStructure_eq_ok.mp hrun.1).2.1 rfl
        have hstate := (finalState_cons_cons buffer htag8 htag9 (pre ++ g :: post)).1
        rw [finalState] at hstate
        rw [List.cons_append, List.cons_append, hstate]
        simp only [renderFields_cons, List.length_append]
        omega

end FixParser

end Velocitas
