import VelocitasFix.Checksum.Lemmas
import VelocitasFix.Serializer.Lemmas

/-!
This module contains whole runs of the serializer: `begin`, any sequence of fields and `finalize`
write the message of the wire format into the front of the buffer if it fits, and panic otherwise.
-/

namespace Velocitas

open Ascii

namespace FieldArg

def tag : FieldArg → UInt32
  | .str tag _ => tag
  | .int tag _ => tag
  | .u64 tag _ => tag

def text : FieldArg → Bytes
  | .str _ value => value
  | .int _ value => signed value.toInt
  | .u64 _ value => decimal value.toNat

def bytes (arg : FieldArg) : Bytes := fieldBytes arg.tag arg.text

end FieldArg

namespace OutMessage

def body (m : OutMessage) : Bytes :=
  fieldBytes Tags.msgType m.msgType ++ m.args.flatMap FieldArg.bytes

def bodyLengthText (m : OutMessage) : Bytes := padded 6 m.body.length

def preamble (m : OutMessage) : Bytes :=
  fieldBytes Tags.beginString m.beginString ++ fieldBytes Tags.bodyLength m.bodyLengthText ++ m.body

def checkSumText (m : OutMessage) : Bytes := padded 3 (Checksum.byteSum m.preamble % 256)

def bytes (m : OutMessage) : Bytes :=
  m.preamble ++ fieldBytes Tags.checksum m.checkSumText

theorem fieldBytes_checkSum (m : OutMessage)
    : fieldBytes Tags.checksum m.checkSumText = FixSerializer.checksumTrailer m.preamble := by
  have hsum : (Checksum.compute m.preamble).toNat = Checksum.byteSum m.preamble % 256 :=
    Checksum.compute_toNat m.preamble
  have htag : decimal Tags.checksum.toNat = [49, 48] := by
    rw [decimal_of_pair (by decide) (by decide)]
    rfl
  simp [fieldBytes, FixSerializer.checksumTrailer, Checksum.format_eq_padded, hsum, htag,
    checkSumText]

theorem length_bytes (m : OutMessage) : m.bytes.length = m.preamble.length + 7 := by
  rw [bytes, m.fieldBytes_checkSum, List.length_append]
  rfl

end OutMessage

namespace FixSerializer

theorem addField_eq (s : FixSerializer) (arg : FieldArg)
    : s.addField arg = s.writeBytes arg.bytes := by
  cases arg with
  | str tag value => exact s.addStr_eq tag value
  | int tag value => exact s.addInt_eq tag value
  | u64 tag value => exact s.addU64_eq tag value

theorem addFields_eq (s : FixSerializer) (args : List FieldArg)
    : args.foldlM addField s = s.writeBytes (args.flatMap FieldArg.bytes) := by
  induction args generalizing s with
  | nil => exact s.writeBytes_nil.symm
  | cons arg args ih =>
    simp only [List.foldlM_cons, Option.bind_eq_bind, addField_eq, ih, writeBytes_writeBytes,
      List.flatMap_cons]

theorem begin_addFields_eq (s : FixSerializer) (m : OutMessage)
    : (s.begin m.beginString m.msgType).bind (m.args.foldlM addField)
        = (s.writeBytes (fieldBytes Tags.beginString m.beginString ++ bodyLengthPlaceholder)).bind
            fun s => s.markBody.writeBytes m.body := by
  have hbody (s : FixSerializer)
      : (s.writeBytes (fieldBytes Tags.msgType m.msgType)).bind (m.args.foldlM addField)
          = s.writeBytes m.body := by
    simp only [addFields_eq, writeBytes_writeBytes]
    rfl
  unfold begin
  rw [← s.writeBytes_writeBytes]
  simp only [Option.bind_eq_bind, writeTagValue_eq, Option.bind_assoc, hbody]

@[simp]
theorem asBytes_new (buffer : Bytes) : (new buffer).asBytes = [] := rfl

@[simp]
theorem asBytes_markBody (s : FixSerializer) : s.markBody.asBytes = s.asBytes := rfl

theorem length_placeholder : bodyLengthPlaceholder.length = 9 := by decide

theorem length_preamble (m : OutMessage)
    : m.preamble.length = (fieldBytes Tags.beginString m.beginString).length + 9 + m.body.length := by
  have htag : (decimal Tags.bodyLength.toNat).length = 1 := by
    rw [decimal_of_lt (by decide)]
    rfl
  simp only [OutMessage.preamble, OutMessage.bodyLengthText, List.length_append]
  simp [fieldBytes, htag]

theorem begin_addFields_of_lt {buffer : Bytes} {m : OutMessage}
    (h : buffer.length < m.preamble.length)
    : ((new buffer).begin m.beginString m.msgType).bind (m.args.foldlM addField) = none := by
  rw [length_preamble] at h
  rw [begin_addFields_eq]
  cases hs : (new buffer).writeBytes
      (fieldBytes Tags.beginString m.beginString ++ bodyLengthPlaceholder) with
  | none => rfl
  | some s =>
    rcases asBytes_of_writeBytes hs with ⟨-, hlen, hpos, -⟩
    rw [List.length_append, length_placeholder] at hpos
    apply writeBytes_of_lt
    simp only [markBody, new] at hlen hpos ⊢
    omega

theorem begin_addFields_of_le {buffer : Bytes} {m : OutMessage}
    (h : m.preamble.length ≤ buffer.length)
    : ∃ s, ((new buffer).begin m.beginString m.msgType).bind (m.args.foldlM addField) = some s
        ∧ s.asBytes = fieldBytes Tags.beginString m.beginString ++ bodyLengthPlaceholder ++ m.body
        ∧ s.bodyStart = (fieldBytes Tags.beginString m.beginString).length + 9
        ∧ s.pos = m.preamble.length ∧ s.buffer.length = buffer.length := by
  rw [length_preamble] at h ⊢
  rw [begin_addFields_eq]
  have hfits : (new buffer).pos
        + (fieldBytes Tags.beginString m.beginString ++ bodyLengthPlaceholder).length
      ≤ (new buffer).buffer.length := by
    rw [List.length_append, length_placeholder]
    simp only [new]
    omega
  rcases writeBytes_of_le hfits with ⟨s1, h1, -, -, -⟩
  rcases asBytes_of_writeBytes h1 with ⟨hbytes1, hlen1, hpos1, -⟩
  rw [List.length_append, length_placeholder] at hpos1
  simp only [new] at hlen1 hpos1
  have hfits' : s1.markBody.pos + m.body.length ≤ s1.markBody.buffer.length := by
    simp only [markBody]
    omega
  rcases writeBytes_of_le hfits' with ⟨s2, h2, -, -, -⟩
  rcases asBytes_of_writeBytes h2 with ⟨hbytes2, hlen2, hpos2, hbody2⟩
  simp only [markBody] at hlen2 hpos2 hbody2
  refine ⟨s2, ?_, ?_, by omega, by omega, by omega⟩
  . rw [h1, Option.bind_some, h2]
  . rw [hbytes2, asBytes_markBody, hbytes1, asBytes_new, List.nil_append]

theorem serialize_of_lt {buffer : Bytes} {m : OutMessage} (h : buffer.length < m.bytes.length)
    : serialize buffer m = none := by
  rw [m.length_bytes] at h
  unfold serialize
  simp only [Option.bind_eq_bind, ← Option.bind_assoc]
  by_cases hle : m.preamble.length ≤ buffer.length
  . rcases begin_addFields_of_le hle with ⟨s, hs, -, hbody, hpos, hlen⟩
    rw [hs, Option.bind_some, finalize_of_lt (by omega)]
  . rw [begin_addFields_of_lt (by omega), Option.bind_none]

theorem serialize_of_le {buffer : Bytes} {m : OutMessage} (h : m.bytes.length ≤ buffer.length)
    : ∃ s, serialize buffer m = some (s, m.bytes.length) ∧ s.buffer.length = buffer.length
        ∧ s.buffer.take m.bytes.length = m.bytes := by
  rw [m.length_bytes] at h ⊢
  have hle : m.preamble.length ≤ buffer.length := by omega
  rcases begin_addFields_of_le hle with ⟨s, hs, hbytes, hbody, hpos, hlen⟩
  have htag : decimal Tags.bodyLength.toNat = [57] := by
    rw [decimal_of_lt (by decide)]
    rfl
  have hplace : bodyLengthPlaceholder = ascii "9=" ++ List.replicate 6 48 ++ [Tags.soh] := by
    decide
  have hsplit : s.asBytes = (fieldBytes Tags.beginString m.beginString ++ ascii "9=")
      ++ List.replicate 6 48 ++ [Tags.soh] ++ m.body := by
    rw [hbytes, hplace]
    simp
  have hstart : s.bodyStart
      = (fieldBytes Tags.beginString m.beginString ++ ascii "9=").length + 7 := by
    rw [hbody, List.length_append]
    rfl
  have hpreamble : (fieldBytes Tags.beginString m.beginString ++ ascii "9=")
      ++ padded 6 m.body.length ++ [Tags.soh] ++ m.body = m.preamble := by
    have heq : ascii "9=" = [57, Tags.equals] := by decide
    simp [OutMessage.preamble, OutMessage.bodyLengthText, fieldBytes, htag, heq]
  rcases finalize_eq hsplit hstart (by omega) with ⟨s', hs', hlen', htake⟩
  refine ⟨s', ?_, by omega, ?_⟩
  . unfold serialize
    simp only [Option.bind_eq_bind, ← Option.bind_assoc]
    rw [hs, Option.bind_some, hs', hpos]
  . rw [hpreamble, hpos] at htake
    rw [htake, OutMessage.bytes, m.fieldBytes_checkSum]

end FixSerializer

end Velocitas
