import VelocitasFix.Engine.RecvBuffer
import VelocitasFix.Parser.Soundness

/-!
This module contains the comparison of the two places where a message can end: where the search for
the trailer finds the end and where the field loop stops.
-/

namespace Velocitas

open Ascii

namespace LaxMessage

theorem preamble_tag (m : LaxMessage) : ∀ f ∈ m.preamble, f.tag ≠ Tags.checksum := by
  intro f hf
  apply (FixParser.FieldRun.of_append (by simp) (m.fieldRun [])).1 f hf

theorem length_preamble_pos (m : LaxMessage) : 0 < (renderFields m.preamble).length := by
  rw [m.length_preamble, m.beginString.length_render]
  omega

-- Inside the message, `SOH 10=` only occurs in front of the last field.
theorem eq_of_trailerAt (m : LaxMessage) {rest : Bytes} {i : Nat} (hi : i + 1 < m.bytes.length)
    (h : Checksum.trailerAt (m.bytes ++ rest) i)
    : i + 1 = (renderFields m.preamble).length := by
  obtain ⟨pre, g, post, heq, _, hg, hlen⟩ := exists_of_trailerAt_renderFields hi h
  have hrun := m.fieldRun rest
  rw [heq] at hrun
  have hpost := hrun.eq_nil_of_checksum (tag_of_tagText hg)
  subst hpost
  have hpre : m.preamble = pre := (List.append_inj' heq rfl).1
  rw [hpre, hlen]

theorem getElem?_last (m : LaxMessage) (rest : Bytes)
    : (m.bytes ++ rest)[m.bytes.length - 1]? = some Tags.soh := by
  have hlen := m.length_bytes
  have hsplit : m.bytes = (renderFields m.preamble ++ checksumText ++ Tags.equals :: m.checkSum.value)
      ++ [Tags.soh] := by
    rw [m.bytes_eq]
    simp
  rw [List.getElem?_append_left (by omega)]
  rw [hsplit]
  simp

theorem findMessageBoundary_iff (m : LaxMessage) (rest : Bytes)
    : FixParser.findMessageBoundary (m.bytes ++ rest) = some m.bytes.length
        ↔
      m.checkSum.value.length = 3 := by
  have hlen := m.length_bytes
  have hpos := m.length_preamble_pos
  rw [FixParser.findMessageBoundary_eq_some]
  constructor
  . intro h
    obtain ⟨i, hi, hat, _⟩ := h
    rw [FixParser.boundaryAt_iff] at hat
    have := m.eq_of_trailerAt (by omega) hat.1
    omega
  . intro h
    refine ⟨(renderFields m.preamble).length - 1, by omega, ?_, ?_⟩
    . rw [FixParser.boundaryAt_iff]
      constructor
      . apply @trailerAt_renderFields m.preamble [] m.checkSum rest m.preamble_ne_nil
          m.checkSum_tagText
      . have hlast := m.getElem?_last rest
        rw [← hlast]
        congr 1
        omega
    . intro k hk
      rw [Bool.eq_false_iff]
      intro hat
      rw [FixParser.boundaryAt_iff] at hat
      have := m.eq_of_trailerAt (by omega) hat.1
      omega

end LaxMessage

-- The value of the first field with tag 10 has three bytes.
def TrailerOfThree (buffer : Bytes) : Prop :=
  ∃ fs g rest, buffer = renderFields (fs ++ [g]) ++ rest
    ∧ (∀ f ∈ fs, f.tag ≠ Tags.checksum) ∧ g.tag = Tags.checksum ∧ g.value.length = 3

theorem first_checksum_inj {fs fs' : List RawField} {g g' : RawField} {rest rest' : Bytes}
    (h : renderFields (fs ++ [g]) ++ rest = renderFields (fs' ++ [g']) ++ rest')
    (hfs : ∀ f ∈ fs, f.tag ≠ Tags.checksum) (hfs' : ∀ f ∈ fs', f.tag ≠ Tags.checksum)
    (hg : g.tag = Tags.checksum) (hg' : g'.tag = Tags.checksum)
    : fs = fs' ∧ g = g' ∧ rest = rest' := by
  induction fs generalizing fs' with
  | nil =>
    cases fs' with
    | nil =>
      simp only [List.nil_append, renderFields_cons, renderFields_nil, List.append_nil] at h
      obtain ⟨heq, hrest⟩ := RawField.render_append_inj h
      exact ⟨rfl, heq, hrest⟩
    | cons f' fs' =>
      rw [List.nil_append, List.cons_append, renderFields_cons, renderFields_cons,
        List.append_assoc, List.append_assoc] at h
      obtain ⟨heq, _⟩ := RawField.render_append_inj h
      rw [heq] at hg
      exact absurd hg (hfs' f' List.mem_cons_self)
  | cons f fs ih =>
    rw [List.forall_mem_cons] at hfs
    cases fs' with
    | nil =>
      rw [List.nil_append, List.cons_append, renderFields_cons, renderFields_cons,
        List.append_assoc, List.append_assoc] at h
      obtain ⟨heq, _⟩ := RawField.render_append_inj h
      rw [← heq] at hg'
      exact absurd hg' hfs.1
    | cons f' fs' =>
      rw [List.forall_mem_cons] at hfs'
      rw [List.cons_append, List.cons_append, renderFields_cons, renderFields_cons,
        List.append_assoc, List.append_assoc] at h
      obtain ⟨heq, hrest⟩ := RawField.render_append_inj h
      obtain ⟨hfseq, hgeq, hresteq⟩ := ih hrest hfs.2 hfs'.2
      exact ⟨by rw [heq, hfseq], hgeq, hresteq⟩

theorem LaxMessage.trailerOfThree_iff (m : LaxMessage) (rest : Bytes)
    : TrailerOfThree (m.bytes ++ rest) ↔ m.checkSum.value.length = 3 := by
  constructor
  . intro h
    obtain ⟨fs, g, rest', heq, hfs, hg, hthree⟩ := h
    obtain ⟨_, hcheck, _⟩ := first_checksum_inj heq m.preamble_tag hfs
      (tag_of_tagText m.checkSum_tagText) hg
    rw [hcheck]
    exact hthree
  . intro h
    exact ⟨m.preamble, m.checkSum, rest, rfl, m.preamble_tag, tag_of_tagText m.checkSum_tagText, h⟩

namespace FixParser

theorem boundary_of_parse {buffer : Bytes} {view : MessageView} {n : Nat}
    (h : new.parse buffer = .ok (view, n))
    : findMessageBoundary buffer = some n ↔ TrailerOfThree buffer := by
  obtain ⟨_, _, m, rest, rfl, _, _, rfl⟩ := parse_new_eq_ok.mp h
  rw [m.findMessageBoundary_iff, m.trailerOfThree_iff]

theorem boundary_of_parse_iff (buffer : Bytes)
    : (∀ view n, new.parse buffer = .ok (view, n) → findMessageBoundary buffer = some n)
        ↔
      ((∃ view n, new.parse buffer = .ok (view, n)) → TrailerOfThree buffer) := by
  constructor
  . intro h hok
    obtain ⟨view, n, hparse⟩ := hok
    apply (boundary_of_parse hparse).mp (h view n hparse)
  . intro h view n hparse
    apply (boundary_of_parse hparse).mpr (h ⟨view, n, hparse⟩)

theorem exists_parse {m : LaxMessage} (hm : m.Accepted) {rest : Bytes}
    (hmin : 20 ≤ (m.bytes ++ rest).length) (hmax : (m.bytes ++ rest).length ≤ 65536)
    : ∃ view, new.parse (m.bytes ++ rest) = .ok (view, m.bytes.length) :=
  ⟨_, parse_new_eq_ok.mpr ⟨hmin, hmax, m, rest, rfl, hm, rfl, rfl⟩⟩

-- The frame swallows the second message, which the parser also accepts on its own.
theorem boundary_not_of_parse
    : ∃ view view', new.parse (fourDigitMessage.bytes ++ threeDigitMessage.bytes) = .ok (view, 27)
        ∧ findMessageBoundary (fourDigitMessage.bytes ++ threeDigitMessage.bytes) = some 53
        ∧ new.parse threeDigitMessage.bytes = .ok (view', 26) := by
  have hlen₁ : fourDigitMessage.bytes.length = 27 := by decide +kernel
  have hlen₂ : threeDigitMessage.bytes.length = 26 := by decide +kernel
  have hm₁ : fourDigitMessage.Accepted := by
    refine ⟨?_, ?_, ?_⟩
    all_goals decide +kernel
  have hm₂ : threeDigitMessage.Accepted := by
    refine ⟨?_, ?_, ?_⟩
    all_goals decide +kernel
  have hsum := @List.length_append _ fourDigitMessage.bytes threeDigitMessage.bytes
  obtain ⟨view, hview⟩ := @exists_parse _ hm₁ threeDigitMessage.bytes (by omega) (by omega)
  obtain ⟨view', hview'⟩ := @exists_parse _ hm₂ [] (by simp [hlen₂]) (by simp [hlen₂])
  rw [hlen₁] at hview
  rw [hlen₂, List.append_nil] at hview'
  refine ⟨view, view', hview, ?_, hview'⟩
  rw [findMessageBoundary_eq_some]
  refine ⟨45, rfl, ?_, ?_⟩
  all_goals decide +kernel

end FixParser

end Velocitas
