import VelocitasFix.Parser.View
import VelocitasFix.Serializer.Message

/-!
This module contains the round trip: the parser accepts every message that the serializer writes and
reads exactly the fields that were added to it.
-/

namespace Velocitas

open Ascii

def RawField.ofTag (tag : UInt32) (value : Bytes) (h : Tags.soh ∉ value) : RawField :=
  ⟨decimal tag.toNat, value, allDigits_decimal _, h⟩

theorem RawField.tag_ofTag (tag : UInt32) {value : Bytes} (h : Tags.soh ∉ value)
    : (ofTag tag value h).tag = tag := by
  rw [tag_eq_ofNat_number]
  simp [number, ofTag]

theorem RawField.entry_ofTag (tag : UInt32) {value : Bytes} (h : Tags.soh ∉ value)
    : (ofTag tag value h).entry = (tag, value) := by
  rw [entry, tag_ofTag]
  rfl

theorem RawField.render_ofTag (tag : UInt32) {value : Bytes} (h : Tags.soh ∉ value)
    : (ofTag tag value h).render = fieldBytes tag value := rfl

namespace FieldArg

def Valid : FieldArg → Prop
  | .str tag value => tag ≠ Tags.checksum ∧ Tags.soh ∉ value
  | .int tag _ => tag ≠ Tags.checksum
  | .u64 tag _ => tag ≠ Tags.checksum

instance : DecidablePred Valid
  | .str _ _ => inferInstanceAs (Decidable (_ ∧ _))
  | .int tag _ => inferInstanceAs (Decidable (tag ≠ _))
  | .u64 tag _ => inferInstanceAs (Decidable (tag ≠ _))

theorem Valid.tag_ne {arg : FieldArg} (h : arg.Valid) : arg.tag ≠ Tags.checksum := by
  cases arg with
  | str tag value => exact h.1
  | int tag value => exact h
  | u64 tag value => exact h

theorem Valid.sohFree {arg : FieldArg} (h : arg.Valid) : Tags.soh ∉ arg.text := by
  have hdec (n : Nat) : Tags.soh ∉ decimal n := (allDigits_decimal n).not_mem (by decide)
  cases arg with
  | str tag value => exact h.2
  | int tag value =>
    simp only [text, signed]
    split
    . rw [List.mem_cons, not_or]
      exact ⟨by decide, hdec _⟩
    . exact hdec _
  | u64 tag value => exact hdec _

end FieldArg

theorem exists_rawFields {args : List FieldArg} (h : ∀ arg ∈ args, arg.Valid)
    : ∃ fs : List RawField, (∀ f ∈ fs, f.tag ≠ Tags.checksum)
        ∧ renderFields fs = args.flatMap FieldArg.bytes
        ∧ fs.map RawField.entry = args.map fun arg => (arg.tag, arg.text) := by
  induction args with
  | nil => exact ⟨[], by simp, rfl, rfl⟩
  | cons arg args ih =>
    rw [List.forall_mem_cons] at h
    rcases ih h.2 with ⟨fs, htags, hrender, hentries⟩
    refine ⟨.ofTag arg.tag arg.text h.1.sohFree :: fs, ?_, ?_, ?_⟩
    . rw [List.forall_mem_cons, RawField.tag_ofTag]
      exact ⟨h.1.tag_ne, htags⟩
    . rw [renderFields_cons, RawField.render_ofTag, hrender]
      rfl
    . rw [List.map_cons, RawField.entry_ofTag, hentries]
      rfl

namespace OutMessage

def entries (m : OutMessage) : List (UInt32 × Bytes) :=
  [(Tags.beginString, m.beginString), (Tags.bodyLength, m.bodyLengthText),
    (Tags.msgType, m.msgType)]
    ++ m.args.map (fun arg => (arg.tag, arg.text))
    ++ [(Tags.checksum, m.checkSumText)]

theorem exists_laxMessage {m : OutMessage} (hbegin : Tags.soh ∉ m.beginString)
    (htype : Tags.soh ∉ m.msgType) (hargs : ∀ arg ∈ m.args, arg.Valid)
    (hlen : m.body.length < 10 ^ 6)
    : ∃ lax : LaxMessage, lax.bytes = m.bytes ∧ lax.fields.map RawField.entry = m.entries
        ∧ lax.Accepted := by
  have hlength : Tags.soh ∉ m.bodyLengthText := (allDigits_padded _ _).not_mem (by decide)
  have hsum : Tags.soh ∉ m.checkSumText := (allDigits_padded _ _).not_mem (by decide)
  have h10 : decimal Tags.checksum.toNat = checksumText := by
    rw [decimal_of_pair (by decide) (by decide)]
    rfl
  rcases exists_rawFields hargs with ⟨fs, htags, hrender, hentries⟩
  let lax : LaxMessage := {
    beginString := .ofTag Tags.beginString m.beginString hbegin
    bodyLength := .ofTag Tags.bodyLength m.bodyLengthText hlength
    msgType := .ofTag Tags.msgType m.msgType htype
    body := fs
    checkSum := .ofTag Tags.checksum m.checkSumText hsum
    beginString_tag := RawField.tag_ofTag _ _
    bodyLength_tag := RawField.tag_ofTag _ _
    msgType_tag := RawField.tag_ofTag _ _
    body_tag := htags
    checkSum_tagText := h10
  }
  have hcontent : lax.content = m.body := by
    simp only [lax, LaxMessage.content, renderFields_cons, RawField.render_ofTag, hrender, body]
  have hpreamble : renderFields lax.preamble = m.preamble := by
    simp only [lax, LaxMessage.preamble, renderFields_cons, RawField.render_ofTag, hrender,
      preamble, body, List.append_assoc]
  refine ⟨lax, ?_, ?_, ?_⟩
  . rw [LaxMessage.bytes, LaxMessage.fields, renderFields_append, hpreamble]
    simp [lax, RawField.render_ofTag, bytes]
  . simp [lax, LaxMessage.fields, LaxMessage.preamble, RawField.entry_ofTag, hentries, entries]
  . refine ⟨?_, ?_, ?_⟩
    . rw [hcontent]
      change FixParser.statedLength (padded 6 m.body.length) = _
      rw [statedLength_eq_ofNat_value (allDigits_padded _ _), value_padded, Nat.mod_eq_of_lt hlen]
    . change 2 ≤ (padded 3 _).length
      simp
    . apply UInt8.toNat_inj.mp
      rw [hpreamble, Checksum.compute_toNat]
      change _ = (Checksum.stated (padded 3 _ ++ [Tags.soh]) 0).toNat
      rw [Checksum.stated_append (allDigits_padded _ _) (length_padded _ _), value_padded]
      omega

theorem length_body_lt (m : OutMessage) : m.body.length + 16 ≤ m.bytes.length := by
  rw [m.length_bytes, FixSerializer.length_preamble]
  omega

theorem twenty_le_length (m : OutMessage) : 20 ≤ m.bytes.length := by
  rw [m.length_bytes, FixSerializer.length_preamble]
  simp only [body, List.length_append, fieldBytes, List.length_cons]
  omega

end OutMessage

theorem FixParser.parse_bytes {m : OutMessage} (hbegin : Tags.soh ∉ m.beginString)
    (htype : Tags.soh ∉ m.msgType) (hargs : ∀ arg ∈ m.args, arg.Valid)
    (hcount : m.args.length ≤ 508) (hlen : m.bytes.length ≤ 65536)
    : ∃ view, new.parse m.bytes = .ok (view, m.bytes.length) ∧ view.checksumValid = true
        ∧ view.entries = m.entries := by
  have hbody := m.length_body_lt
  rcases m.exists_laxMessage hbegin htype hargs (by omega) with ⟨lax, hbytes, hentries, hlax⟩
  have hfields : lax.fields.length ≤ maxFields := by
    rw [← List.length_map RawField.entry, hentries]
    simp [OutMessage.entries, maxFields]
    omega
  refine ⟨(finalState m.bytes lax.fields).view.setChecksumValid true, ?_, rfl, ?_⟩
  . apply parse_new_eq_ok.mpr
    exact ⟨m.twenty_le_length, hlen, lax, [], by rw [hbytes, List.append_nil], hlax, rfl,
      by rw [hbytes]⟩
  . have hview := @finalState_entries lax.fields [] hfields
    rw [List.append_nil, ← LaxMessage.bytes, hbytes] at hview
    rw [← hentries]
    exact hview hlen

theorem parse_serialize {buffer : Bytes} {m : OutMessage} (hbegin : Tags.soh ∉ m.beginString)
    (htype : Tags.soh ∉ m.msgType) (hargs : ∀ arg ∈ m.args, arg.Valid)
    (hcount : m.args.length ≤ 508) (hfits : m.bytes.length ≤ buffer.length)
    (hlen : m.bytes.length ≤ 65536)
    : ∃ s n view, FixSerializer.serialize buffer m = some (s, n)
        ∧ FixParser.new.parse (s.buffer.take n) = .ok (view, n)
        ∧ view.checksumValid = true
        ∧ view.entries = m.entries := by
  rcases FixSerializer.serialize_of_le hfits with ⟨s, hs, -, hbytes⟩
  rcases FixParser.parse_bytes hbegin htype hargs hcount hlen with ⟨view, hparse, hvalid, hentries⟩
  exact ⟨s, m.bytes.length, view, hs, by rw [hbytes]; exact hparse, hvalid, hentries⟩

def orderSample : OutMessage where
  beginString := ascii "FIX.4.4"
  msgType := ascii "D"
  args := [.str 49 (ascii "BANK"), .u64 34 42, .int 44 (-5), .str 35 (ascii "X"), .u64 9 0]

theorem parse_serialize_orderSample
    : ∃ s n view, FixSerializer.serialize (List.replicate 80 0) orderSample = some (s, n)
        ∧ FixParser.new.parse (s.buffer.take n) = .ok (view, n)
        ∧ view.checksumValid = true
        ∧ view.entries = orderSample.entries :=
  parse_serialize (by decide +kernel) (by decide +kernel) (by decide +kernel) (by decide +kernel)
    (by decide +kernel) (by decide +kernel)

end Velocitas
