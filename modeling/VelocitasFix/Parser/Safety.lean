import VelocitasFix.Parser.CheckedLoop
import VelocitasFix.Parser.Trailing

/-!
This module contains the safety of the parser: what a call of `parse` needs for its machine operations
to stay in range, and that with wrapping arithmetic nothing is ever read outside of the buffer.
-/

namespace Velocitas

namespace Checked

open Fault

namespace FixParser

-- What a call of the parser needs for its arithmetic, loop by loop.
structure ParseFits (parser : FixParser) (buffer : Bytes) : Prop where
  loop : LoopFits buffer (.init buffer)
  checkSum : ∀ st, Velocitas.FixParser.parseFields buffer (.init buffer) = .ok st →
    (parser.validateBodyLength → Velocitas.FixParser.bodyLengthValid buffer st) →
    parser.validateChecksum → Velocitas.Checksum.ValidateFits (buffer.take st.pos)

theorem computes_finish {parser : FixParser} {buffer : Bytes} {st : FixParser.ParseState}
    (h : st.pos ≤ buffer.length)
    : Computes (fun build => finish build parser buffer st)
        (parser.validateChecksum → Velocitas.Checksum.ValidateFits (buffer.take st.pos))
        (if parser.validateChecksum then
          let valid := Velocitas.Checksum.validate (buffer.take st.pos)
          if !valid then
            .error .invalidChecksum
          else
            .ok (st.view.setChecksumValid valid, st.pos)
        else
          .ok (st.view.setChecksumValid true, st.pos)) := by
  unfold finish
  dsimp only
  by_cases hcheck : parser.validateChecksum
  . simp only [hcheck, ↓reduceIte, forall_const]
    apply (Computes.range (Nat.zero_le _) h).bind_of_true
    rw [Nat.sub_zero, List.drop_zero]
    apply Computes.congr
    . apply (Checksum.computes_validate _).bind
      cases Velocitas.Checksum.validate (buffer.take st.pos) with
      | false => exact .pure _
      | true => exact .pure _
    . rw [and_true]
  . simp only [hcheck, Bool.false_eq_true, ↓reduceIte, false_implies]
    exact .pure _

theorem pos_le_of_parseFields {buffer : Bytes} {st : FixParser.ParseState}
    (h : Velocitas.FixParser.parseFields buffer (.init buffer) = .ok st)
    : st.pos ≤ buffer.length := by
  obtain ⟨fs, rest, hbuffer, _, rfl⟩ := Velocitas.FixParser.parseFields_eq_ok.mp h
  have hpos := Velocitas.FixParser.finalState_pos buffer fs
  have hlen := congrArg List.length hbuffer
  rw [Velocitas.FixParser.finalState] at hpos
  rw [List.length_append] at hlen
  omega

theorem computes_parse (parser : FixParser) (buffer : Bytes)
    : Computes (fun build => parse build parser buffer)
        (20 ≤ buffer.length → buffer.length ≤ parser.maxMessageSize → ParseFits parser buffer)
        (parser.parse buffer) := by
  unfold parse Velocitas.FixParser.parse
  dsimp only
  by_cases hmin : buffer.length < 20
  . simp only [if_pos hmin]
    exact (Computes.pure _).congr (iff_of_true trivial fun h => absurd hmin (Nat.not_lt.mpr h))
  simp only [if_neg hmin]
  by_cases hmax : buffer.length > parser.maxMessageSize
  . simp only [if_pos hmax]
    exact (Computes.pure _).congr (iff_of_true trivial fun _ h => absurd hmax (Nat.not_lt.mpr h))
  simp only [if_neg hmax]
  have hloop := computes_parseFields buffer (.init buffer)
  cases hfields : Velocitas.FixParser.parseFields buffer (.init buffer) with
  | error e =>
    rw [hfields] at hloop
    apply Computes.congr
    . exact hloop.bind (.pure _)
    . rw [and_true]
      constructor
      . intro hfits _ _
        refine ⟨hfits, ?_⟩
        intro st hst
        rw [hfields] at hst
        contradiction
      . intro hfits
        exact (hfits (by omega) (by omega)).loop
  | ok st =>
    rw [hfields] at hloop
    have hpos := pos_le_of_parseFields hfields
    have hsplit : LoopFits buffer (.init buffer)
          ∧ ((parser.validateBodyLength → Velocitas.FixParser.bodyLengthValid buffer st) →
            parser.validateChecksum → Velocitas.Checksum.ValidateFits (buffer.take st.pos))
        ↔ (20 ≤ buffer.length → buffer.length ≤ parser.maxMessageSize →
          ParseFits parser buffer) := by
      constructor
      . intro hboth _ _
        refine ⟨hboth.1, ?_⟩
        intro st' hst'
        rw [hfields, Except.ok.injEq] at hst'
        rw [← hst']
        exact hboth.2
      . intro hfits
        obtain ⟨hloop, hsum⟩ := hfits (by omega) (by omega)
        exact ⟨hloop, hsum st hfields⟩
    apply Computes.congr _ hsplit
    apply hloop.bind
    dsimp only
    have hfinish := @computes_finish parser buffer st hpos
    by_cases hlength : parser.validateBodyLength
    . simp only [hlength, ↓reduceIte, Bool.true_and, forall_const]
      have hbody := computes_bodyLengthValid hpos fun hfound =>
        Velocitas.FixParser.bodyStart_le hfields hfound
      apply hbody.bind_of_true
      cases Velocitas.FixParser.bodyLengthValid buffer st with
      | false => exact (Computes.pure _).congr (by simp)
      | true =>
        apply hfinish.congr
        simp
    . simp only [hlength, Bool.false_eq_true, ↓reduceIte, Bool.false_and, false_implies,
        forall_const]
      exact hfinish

end FixParser

end Checked

namespace FixParser

theorem inside_of_parse {parser : FixParser} {buffer : Bytes} {view : MessageView} {n : Nat}
    (h : parser.parse buffer = .ok (view, n))
    : view.Inside := by
  have hentry (e : FieldEntry) (he : e ∈ view.fields) := entry_le_of_parse h he
  have hbuffer := buffer_of_parse h
  obtain ⟨_, _, st, hst, _, _, rfl, rfl⟩ := parse_eq_ok.mp h
  have hpos := Checked.FixParser.pos_le_of_parseFields hst
  obtain ⟨fs, _, _, _, rfl⟩ := parseFields_eq_ok.mp hst
  constructor
  . have hfields := finalState_fields buffer fs
    rw [finalState] at hfields
    simp only [MessageView.fieldCount, MessageView.setChecksumValid, hfields, List.length_take]
    apply Nat.min_le_left
  . intro e he
    rw [hbuffer]
    exact Nat.le_trans (hentry e he) hpos

theorem index_safe (parser : FixParser) (buffer : Bytes)
    : Checked.FixParser.parse .release parser buffer = .ok (parser.parse buffer)
        ∧ Checked.FixParser.findMessageBoundary buffer = .ok (findMessageBoundary buffer)
        ∧ (∀ stop, stop ≤ buffer.length →
          Checked.FixParser.findChecksumTagStart buffer stop = .ok (findChecksumTagStart buffer stop))
        ∧ Checked.Checksum.validate .release buffer = .ok (Checksum.validate buffer)
        ∧ (∀ st, parseFields buffer (.init buffer) = .ok st →
          0 < findChecksumTagStart buffer st.pos →
            st.bodyStart ≤ findChecksumTagStart buffer st.pos)
        ∧ ∀ view n, parser.parse buffer = .ok (view, n) →
          (∀ tag, Checked.MessageView.getField view tag = .ok (view.getField tag))
            ∧ Checked.MessageView.msgType view = .ok view.msgType
            ∧ Checked.MessageView.fields view = .ok view.fields := by
  refine ⟨?_, ?_, ?_, ?_, ?_, ?_⟩
  . exact (Checked.FixParser.computes_parse parser buffer).release
  . exact (Checked.FixParser.computes_findMessageBoundary buffer).release
  . intro stop hstop
    exact (Checked.FixParser.computes_findChecksumTagStart hstop).release
  . exact (Checked.Checksum.computes_validate buffer).release
  . intro st hst hfound
    exact bodyStart_le hst hfound
  . intro view n hparse
    have hinside := inside_of_parse hparse
    refine ⟨?_, ?_, ?_⟩
    . intro tag
      exact (Checked.MessageView.computes_getField hinside tag).release
    . exact (Checked.MessageView.computes_msgType hinside).release
    . exact (Checked.MessageView.computes_fields hinside).release

end FixParser

end Velocitas
