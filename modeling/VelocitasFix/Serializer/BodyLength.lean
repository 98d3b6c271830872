import VelocitasFix.Data.Numeral
import VelocitasFix.Serializer.Message

/-!
This module contains what `finalize` writes into the six bytes that `begin` reserves for BodyLength.
-/

namespace Velocitas

open Ascii

namespace FixSerializer

-- What stands in the six bytes in front of the SOH that ends the BodyLength field.
def bodyLengthSlot (s : FixSerializer) : Bytes := slice s.asBytes (s.bodyStart - 7) 6

-- The number of bytes from behind the BodyLength field to the trailer of seven bytes.
def countedLength (s : FixSerializer) : Nat := s.pos - 7 - s.bodyStart

theorem finalize_keeps {s s' : FixSerializer} {n : Nat} (h : s.finalize = some (s', n))
    : s'.bodyStart = s.bodyStart ∧ s'.pos = n := by
  unfold finalize at h
  dsimp only at h
  split at h
  . contradiction
  . split at h
    . cases h
      exact ⟨rfl, rfl⟩
    . contradiction

theorem bodyStart_serialize {buffer : Bytes} {m : OutMessage} {s : FixSerializer} {n : Nat}
    (h : serialize buffer m = some (s, n))
    : s.bodyStart = (fieldBytes Tags.beginString m.beginString).length + 9 ∧ s.pos = n := by
  unfold serialize at h
  simp only [Option.bind_eq_bind, ← Option.bind_assoc] at h
  by_cases hle : m.preamble.length ≤ buffer.length
  . obtain ⟨s', hs', _, hstart, _, _⟩ := begin_addFields_of_le hle
    rw [hs', Option.bind_some] at h
    rw [(finalize_keeps h).1, hstart]
    exact ⟨rfl, (finalize_keeps h).2⟩
  . rw [begin_addFields_of_lt (by omega), Option.bind_none] at h
    contradiction

theorem drop_bytes (m : OutMessage)
    : m.bytes.drop (fieldBytes Tags.beginString m.beginString).length
        = ascii "9=" ++ (m.bodyLengthText
          ++ ([Tags.soh] ++ (m.body ++ checksumTrailer m.preamble))) := by
  have htag : decimal Tags.bodyLength.toNat = [57] := by
    rw [decimal_of_lt (by decide)]
    rfl
  have heq : ascii "9=" = [57, Tags.equals] := by decide
  have hlength : fieldBytes Tags.bodyLength m.bodyLengthText
      = ascii "9=" ++ m.bodyLengthText ++ [Tags.soh] := by
    rw [fieldBytes, htag, heq]
    rfl
  rw [OutMessage.bytes, m.fieldBytes_checkSum, OutMessage.preamble, hlength]
  simp only [List.append_assoc, List.drop_left]

structure BodyLengthAt (s : FixSerializer) (m : OutMessage) : Prop where
  tag : slice s.asBytes (s.bodyStart - 9) 2 = ascii "9="
  slot : s.bodyLengthSlot = m.bodyLengthText
  soh : slice s.asBytes (s.bodyStart - 1) 1 = [Tags.soh]
  trailer : slice s.asBytes (s.pos - 7) 3 = ascii "10="
  counted : s.countedLength = m.body.length

theorem serialize_bodyLengthAt {buffer : Bytes} {m : OutMessage}
    (h : m.bytes.length ≤ buffer.length)
    : ∃ s, serialize buffer m = some (s, m.bytes.length) ∧ s.BodyLengthAt m := by
  obtain ⟨s, hs, _, htake⟩ := serialize_of_le h
  obtain ⟨hstart, hpos⟩ := bodyStart_serialize hs
  have hbytes : s.asBytes = m.bytes := by
    rw [asBytes, hpos, htake]
  have hslotLen : m.bodyLengthText.length = 6 := length_padded 6 _
  have hpreamble := length_preamble m
  have hlen := m.length_bytes
  have hdropTag := drop_bytes m
  have hdropSlot := drop_of_drop_eq_append hdropTag
  have hdropSoh := drop_of_drop_eq_append hdropSlot
  have hdropBody := drop_of_drop_eq_append hdropSoh
  have hdropTrailer := drop_of_drop_eq_append hdropBody
  have htagLen : (ascii "9=").length = 2 := by decide
  rw [htagLen] at hdropSlot hdropSoh hdropBody hdropTrailer
  rw [hslotLen] at hdropSoh hdropBody hdropTrailer
  rw [List.length_singleton] at hdropBody hdropTrailer
  generalize (fieldBytes Tags.beginString m.beginString).length = start at *
  refine ⟨s, hs, ?_, ?_, ?_, ?_, ?_⟩
  . rw [hbytes, hstart, Nat.add_sub_cancel]
    exact slice_of_drop htagLen hdropTag
  . rw [bodyLengthSlot, hbytes, hstart]
    exact slice_of_drop hslotLen hdropSlot
  . rw [hbytes, hstart]
    exact slice_of_drop rfl hdropSoh
  . have hoffset : s.pos - 7 = start + 2 + 6 + 1 + m.body.length := by omega
    rw [hbytes, hoffset]
    have htrailer : checksumTrailer m.preamble
        = ascii "10=" ++ (Checksum.format (Checksum.compute m.preamble) ++ [Tags.soh]) := by
      rw [checksumTrailer, List.append_assoc]
      rfl
    rw [htrailer] at hdropTrailer
    exact slice_of_drop (by decide) hdropTrailer
  . rw [countedLength]
    omega

-- The six digits are the last six of the length.
theorem denotes_bodyLengthText_iff (m : OutMessage)
    : Denotes m.bodyLengthText m.body.length ↔ m.body.length < 10 ^ 6 := by
  have hvalue : value m.bodyLengthText = m.body.length % 10 ^ 6 := value_padded 6 _
  constructor
  . intro h
    rw [← h.2.2, hvalue]
    exact Nat.mod_lt _ (by decide)
  . intro hlt
    refine ⟨?_, allDigits_padded 6 _, ?_⟩
    . intro hnil
      have hlen : m.bodyLengthText.length = 6 := length_padded 6 _
      rw [hnil] at hlen
      contradiction
    . rw [hvalue, Nat.mod_eq_of_lt hlt]

theorem bodyLength_iff (buffer : Bytes) (m : OutMessage) (h : m.bytes.length ≤ buffer.length)
    : ∃ s, serialize buffer m = some (s, m.bytes.length)
        ∧ slice s.asBytes (s.bodyStart - 9) 2 = ascii "9="
        ∧ slice s.asBytes (s.bodyStart - 1) 1 = [Tags.soh]
        ∧ slice s.asBytes (s.pos - 7) 3 = ascii "10="
        ∧ (Denotes s.bodyLengthSlot s.countedLength ↔ m.body.length < 10 ^ 6) := by
  obtain ⟨s, hs, hat⟩ := serialize_bodyLengthAt h
  refine ⟨s, hs, hat.tag, hat.soh, hat.trailer, ?_⟩
  rw [hat.slot, hat.counted]
  exact denotes_bodyLengthText_iff m

theorem bodyLength_iff_orderSingle
    : (⟨ascii "FIX.4.4", ascii "D", [.u64 34 7]⟩ : OutMessage).bytes.length
          ≤ (List.replicate 64 (0 : UInt8)).length
        ∧ ∃ s, serialize (List.replicate 64 0) ⟨ascii "FIX.4.4", ascii "D", [.u64 34 7]⟩
            = some (s, (⟨ascii "FIX.4.4", ascii "D", [.u64 34 7]⟩ : OutMessage).bytes.length)
          ∧ slice s.asBytes (s.bodyStart - 9) 2 = ascii "9="
          ∧ slice s.asBytes (s.bodyStart - 1) 1 = [Tags.soh]
          ∧ slice s.asBytes (s.pos - 7) 3 = ascii "10="
          ∧ (Denotes s.bodyLengthSlot s.countedLength
            ↔ (⟨ascii "FIX.4.4", ascii "D", [.u64 34 7]⟩ : OutMessage).body.length < 10 ^ 6) :=
  ⟨by decide +kernel, bodyLength_iff (List.replicate 64 0)
    ⟨ascii "FIX.4.4", ascii "D", [.u64 34 7]⟩ (by decide +kernel)⟩

def newsMessage (length : Nat) : OutMessage :=
  ⟨ascii "FIX.4.4", ascii "B", [.str 58 (List.replicate length 65)]⟩

theorem le_length_newsMessage (length : Nat) : length ≤ (newsMessage length).body.length := by
  simp only [newsMessage, OutMessage.body, FieldArg.bytes, FieldArg.text, fieldBytes,
    List.length_append, List.flatMap_cons, List.length_cons, List.length_replicate]
  omega

-- A text of a million bytes: the length of the body takes seven digits.
theorem not_bodyLength
    : ¬ ∀ (buffer : Bytes) (m : OutMessage) (s : FixSerializer) (n : Nat),
        serialize buffer m = some (s, n) → Denotes s.bodyLengthSlot s.countedLength := by
  intro h
  have hlong := le_length_newsMessage (10 ^ 6)
  generalize newsMessage (10 ^ 6) = m at hlong
  obtain ⟨s, hs, hat⟩ :=
    @serialize_bodyLengthAt (List.replicate m.bytes.length 0) m (by rw [List.length_replicate])
  have hdenotes := h _ m s _ hs
  rw [hat.slot, hat.counted, denotes_bodyLengthText_iff] at hdenotes
  omega

end FixSerializer

end Velocitas
