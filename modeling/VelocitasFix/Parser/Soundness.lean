import VelocitasFix.Checksum.Lemmas
import VelocitasFix.Parser.Acceptance

/-!
This module contains well-formed messages and the exact condition on a buffer under which the parser
only accepts a well-formed message.
-/

namespace Velocitas

open Ascii

def RawField.WellFormed (f : RawField) : Prop :=
  f.tagText ≠ [] ∧ 0 < f.number ∧ f.number < 2 ^ 32

instance : DecidablePred RawField.WellFormed :=
  fun _ => inferInstanceAs (Decidable (_ ∧ _ ∧ _))

structure WellFormedFields (beginString bodyLength msgType : RawField) (body : List RawField)
    (checkSum : RawField) : Prop where
  fields : ∀ f ∈ beginString :: bodyLength :: msgType :: body ++ [checkSum], f.WellFormed
  beginString_number : beginString.number = 8
  bodyLength_number : bodyLength.number = 9
  msgType_number : msgType.number = 35
  bodyLength_ne_nil : bodyLength.value ≠ []
  bodyLength_digits : AllDigits bodyLength.value
  bodyLength_value : value bodyLength.value = (renderFields (msgType :: body)).length
  checkSum_tagText : checkSum.tagText = checksumText
  checkSum_digits : AllDigits checkSum.value
  checkSum_length : checkSum.value.length = 3
  checkSum_value :
    value checkSum.value
      = Checksum.byteSum (renderFields (beginString :: bodyLength :: msgType :: body)) % 256

def WellFormed (bytes : Bytes) : Prop :=
  ∃ beginString bodyLength msgType body checkSum,
    bytes = renderFields (beginString :: bodyLength :: msgType :: body ++ [checkSum])
      ∧ WellFormedFields beginString bodyLength msgType body checkSum

namespace LaxMessage

-- What the digit loops of the parser take for granted about the texts of a message.
structure Lexical (m : LaxMessage) : Prop where
  fields : ∀ f ∈ m.fields, f.WellFormed
  bodyLength_digits : AllDigits m.bodyLength.value
  bodyLength_lt : value m.bodyLength.value < 2 ^ 64
  checkSum_digits : AllDigits m.checkSum.value
  checkSum_length : m.checkSum.value.length = 3
  checkSum_lt : value m.checkSum.value < 256

end LaxMessage

theorem RawField.render_append_inj {f g : RawField} {xs ys : Bytes}
    (h : f.render ++ xs = g.render ++ ys)
    : f = g ∧ xs = ys := by
  simp only [render, List.append_assoc, List.cons_append, List.nil_append] at h
  have hf : Tags.equals ∉ f.tagText := f.digits.not_mem (by decide)
  have hg : Tags.equals ∉ g.tagText := g.digits.not_mem (by decide)
  rcases append_cons_inj_of_not_mem hf hg h with ⟨htext, hvalue⟩
  rcases append_cons_inj_of_not_mem f.sohFree g.sohFree hvalue with ⟨hvalue, hrest⟩
  exact ⟨RawField.ext htext hvalue, hrest⟩

theorem renderFields_inj {fs gs : List RawField} (h : renderFields fs = renderFields gs)
    : fs = gs := by
  induction fs generalizing gs with
  | nil =>
    cases gs with
    | nil => rfl
    | cons g gs => simp [RawField.render] at h
  | cons f fs ih =>
    cases gs with
    | nil => simp [RawField.render] at h
    | cons g gs =>
      rcases RawField.render_append_inj h with ⟨rfl, hrest⟩
      rw [ih hrest]

theorem RawField.WellFormed.number_of_tag {f : RawField} (h : f.WellFormed) {tag : UInt32}
    (htag : f.tag = tag)
    : f.number = tag.toNat := by
  rw [← htag, f.tag_eq_ofNat_number, UInt32.toNat_ofNat', Nat.mod_eq_of_lt h.2.2]

theorem LaxMessage.length_content_le (m : LaxMessage) : m.content.length ≤ m.bytes.length := by
  rw [m.length_bytes, m.length_preamble]
  omega

theorem LaxMessage.Lexical.wellFormed {m : LaxMessage} (h : m.Lexical) (hm : m.Accepted)
    (hlen : m.bytes.length ≤ 65536)
    : WellFormed m.bytes := by
  have hcontent := m.length_content_le
  have h8 : m.beginString.WellFormed := h.fields _ (by simp [LaxMessage.fields, preamble])
  have h9 : m.bodyLength.WellFormed := h.fields _ (by simp [LaxMessage.fields, preamble])
  have h35 : m.msgType.WellFormed := h.fields _ (by simp [LaxMessage.fields, preamble])
  have hvalue : value m.bodyLength.value = m.content.length := by
    have heq := hm.bodyLength_eq
    rw [statedLength_eq_ofNat_value h.bodyLength_digits] at heq
    have := congrArg UInt64.toNat heq
    simp only [UInt64.toNat_ofNat'] at this
    have := h.bodyLength_lt
    omega
  have hpos : 0 < m.content.length := by
    simp only [content, renderFields_cons, List.length_append, RawField.length_render]
    omega
  refine ⟨m.beginString, m.bodyLength, m.msgType, m.body, m.checkSum, rfl, ?_⟩
  exact {
    fields := h.fields
    beginString_number := h8.number_of_tag m.beginString_tag
    bodyLength_number := h9.number_of_tag m.bodyLength_tag
    msgType_number := h35.number_of_tag m.msgType_tag
    bodyLength_ne_nil := by
      intro hnil
      rw [hnil, value_nil] at hvalue
      omega
    bodyLength_digits := h.bodyLength_digits
    bodyLength_value := hvalue
    checkSum_tagText := m.checkSum_tagText
    checkSum_digits := h.checkSum_digits
    checkSum_length := h.checkSum_length
    checkSum_value := by
      have heq := congrArg UInt8.toNat hm.checkSum_eq
      rw [Checksum.compute_toNat, Checksum.stated_append h.checkSum_digits h.checkSum_length,
        Nat.mod_eq_of_lt h.checkSum_lt] at heq
      exact heq.symm
  }

theorem LaxMessage.lexical_of_wellFormed {m : LaxMessage} (h : WellFormed m.bytes)
    (hlen : m.bytes.length ≤ 65536)
    : m.Lexical := by
  have hcontent := m.length_content_le
  rcases h with ⟨f8, f9, f35, body, f10, heq, h⟩
  have hfields := renderFields_inj heq
  have hinj := List.append_inj' hfields rfl
  have hpre : m.beginString :: m.bodyLength :: m.msgType :: m.body = f8 :: f9 :: f35 :: body :=
    hinj.1
  injection hpre with h8 hpre
  injection hpre with h9 hpre
  injection hpre with h35 hbody
  have h10 : m.checkSum = f10 := by
    simpa using hinj.2
  subst h8 h9 h35 hbody h10
  exact {
    fields := h.fields
    bodyLength_digits := h.bodyLength_digits
    bodyLength_lt := by
      have : value m.bodyLength.value = m.content.length := h.bodyLength_value
      omega
    checkSum_digits := h.checkSum_digits
    checkSum_length := h.checkSum_length
    checkSum_lt := by
      rw [h.checkSum_value]
      exact Nat.mod_lt _ (by omega)
  }

namespace FixParser

theorem parse_sound_iff (buffer : Bytes)
    : (∀ view n, new.parse buffer = .ok (view, n) → WellFormed (buffer.take n))
        ↔
      (20 ≤ buffer.length → buffer.length ≤ 65536 →
        ∀ (m : LaxMessage) (rest : Bytes), buffer = m.bytes ++ rest → m.Accepted → m.Lexical) := by
  constructor
  . intro h hmin hmax m rest hbuf hm
    have hparse := parse_new_eq_ok.mpr ⟨hmin, hmax, m, rest, hbuf, hm, rfl, rfl⟩
    have hwf := h _ _ hparse
    rw [hbuf, List.take_left] at hwf
    apply LaxMessage.lexical_of_wellFormed hwf
    rw [hbuf, List.length_append] at hmax
    omega
  . intro h view n hparse
    rcases parse_new_eq_ok.mp hparse with ⟨hmin, hmax, m, rest, hbuf, hm, -, rfl⟩
    have hlex := h hmin hmax m rest hbuf hm
    rw [hbuf, List.take_left]
    apply hlex.wellFormed hm
    rw [hbuf, List.length_append] at hmax
    omega

set_option maxRecDepth 2000 in
def zeroTagMessage : LaxMessage where
  beginString := ⟨ascii "8", ascii "FIX.4.4", by decide, by decide⟩
  bodyLength := ⟨ascii "9", ascii "9", by decide, by decide⟩
  msgType := ⟨ascii "35", ascii "0", by decide, by decide⟩
  body := [⟨ascii "0", ascii "x", by decide, by decide⟩]
  checkSum := ⟨ascii "10", ascii "141", by decide, by decide⟩
  beginString_tag := by decide
  bodyLength_tag := by decide
  msgType_tag := by decide
  body_tag := by decide
  checkSum_tagText := by decide

-- The others show where the frame of a message ends and what the view of its fields holds.
set_option maxRecDepth 2000 in
def fourDigitMessage : LaxMessage where
  beginString := ⟨ascii "8", ascii "FIX.4.4", by decide, by decide⟩
  bodyLength := ⟨ascii "9", ascii "5", by decide, by decide⟩
  msgType := ⟨ascii "35", ascii "0", by decide, by decide⟩
  body := []
  checkSum := ⟨ascii "10", ascii "1630", by decide, by decide⟩
  beginString_tag := by decide
  bodyLength_tag := by decide
  msgType_tag := by decide
  body_tag := by decide
  checkSum_tagText := by decide

set_option maxRecDepth 2000 in
def threeDigitMessage : LaxMessage where
  beginString := ⟨ascii "8", ascii "FIX.4.4", by decide, by decide⟩
  bodyLength := ⟨ascii "9", ascii "5", by decide, by decide⟩
  msgType := ⟨ascii "35", ascii "0", by decide, by decide⟩
  body := []
  checkSum := ⟨ascii "10", ascii "163", by decide, by decide⟩
  beginString_tag := by decide
  bodyLength_tag := by decide
  msgType_tag := by decide
  body_tag := by decide
  checkSum_tagText := by decide

set_option maxRecDepth 2000 in
def retypedMessage : LaxMessage where
  beginString := ⟨ascii "8", ascii "FIX.4.4", by decide, by decide⟩
  bodyLength := ⟨ascii "9", ascii "10", by decide, by decide⟩
  msgType := ⟨ascii "35", ascii "D", by decide, by decide⟩
  body := [⟨ascii "35", ascii "A", by decide, by decide⟩]
  checkSum := ⟨ascii "10", ascii "202", by decide, by decide⟩
  beginString_tag := by decide
  bodyLength_tag := by decide
  msgType_tag := by decide
  body_tag := by decide
  checkSum_tagText := by decide

set_option maxRecDepth 2000 in
def crowdedMessage : LaxMessage where
  beginString := ⟨ascii "8", ascii "FIX.4.4", by decide, by decide⟩
  bodyLength := ⟨ascii "9", ascii "1532", by decide, by decide⟩
  msgType := ⟨ascii "35", ascii "W", by decide, by decide⟩
  body := List.replicate 509 ⟨ascii "1", [], by decide, by decide⟩
  checkSum := ⟨ascii "10", ascii "019", by decide, by decide⟩
  beginString_tag := by decide
  bodyLength_tag := by decide
  msgType_tag := by decide
  body_tag := by
    intro f hf
    rw [List.eq_of_mem_replicate hf]
    decide
  checkSum_tagText := by decide

set_option maxRecDepth 2000 in
theorem parse_not_sound
    : ∃ view n, new.parse zeroTagMessage.bytes = .ok (view, n)
        ∧ ¬ WellFormed (zeroTagMessage.bytes.take n) := by
  have hlen : zeroTagMessage.bytes.length = 30 := by decide +kernel
  have hm : zeroTagMessage.Accepted := by
    refine ⟨?_, ?_, ?_⟩
    all_goals decide +kernel
  have hparse := parse_new_eq_ok.mpr ⟨by omega, by omega, zeroTagMessage, [],
    (List.append_nil _).symm, hm, rfl, rfl⟩
  refine ⟨_, _, hparse, ?_⟩
  intro hwf
  rw [List.take_length] at hwf
  have hlex := LaxMessage.lexical_of_wellFormed hwf (by omega)
  have hzero := hlex.fields ⟨ascii "0", ascii "x", by decide, by decide⟩ (by
    simp [LaxMessage.fields, LaxMessage.preamble, zeroTagMessage])
  exact absurd hzero.2.1 (by decide)

end FixParser

end Velocitas
