import VelocitasFix.Parser.Soundness
import VelocitasFix.Parser.View

/-!
This module contains the completeness of the parser: it accepts every well-formed message, whatever
follows it in the buffer, and lists exactly the fields of the message.
-/

namespace Velocitas

open Ascii

theorem RawField.WellFormed.tag_toNat {f : RawField} (h : f.WellFormed) : f.tag.toNat = f.number := by
  rw [f.tag_eq_ofNat_number, UInt32.toNat_ofNat', Nat.mod_eq_of_lt h.2.2]

theorem RawField.WellFormed.tag_eq {f : RawField} (h : f.WellFormed) {tag : UInt32}
    (hnumber : f.number = tag.toNat)
    : f.tag = tag := by
  apply UInt32.toNat_inj.mp
  rw [h.tag_toNat, hnumber]

namespace WellFormedFields

variable {beginString bodyLength msgType checkSum : RawField} {body : List RawField}

def laxMessage (h : WellFormedFields beginString bodyLength msgType body checkSum)
    (hbody : ∀ f ∈ body, f.number ≠ 10)
    : LaxMessage where
  beginString := beginString
  bodyLength := bodyLength
  msgType := msgType
  body := body
  checkSum := checkSum
  beginString_tag := (h.fields _ (by simp)).tag_eq h.beginString_number
  bodyLength_tag := (h.fields _ (by simp)).tag_eq h.bodyLength_number
  msgType_tag := (h.fields _ (by simp)).tag_eq h.msgType_number
  body_tag := by
    intro f hf htag
    have hwf : f.WellFormed := h.fields f (by simp [hf])
    apply hbody f hf
    rw [← hwf.tag_toNat, htag]
    rfl
  checkSum_tagText := h.checkSum_tagText

theorem accepted (h : WellFormedFields beginString bodyLength msgType body checkSum)
    (hbody : ∀ f ∈ body, f.number ≠ 10)
    : (h.laxMessage hbody).Accepted where
  bodyLength_eq := by
    rw [statedLength_eq_ofNat_value]
    . apply congrArg UInt64.ofNat h.bodyLength_value
    . apply h.bodyLength_digits
  two_le_length := by
    change 2 ≤ checkSum.value.length
    rw [h.checkSum_length]
    omega
  checkSum_eq := by
    apply UInt8.toNat_inj.mp
    change _ = (Checksum.stated (checkSum.value ++ [Tags.soh]) 0).toNat
    rw [Checksum.compute_toNat, Checksum.stated_append h.checkSum_digits h.checkSum_length,
      h.checkSum_value, Nat.mod_mod]
    rfl

end WellFormedFields

namespace FixParser

theorem parse_complete {beginString bodyLength msgType checkSum : RawField} {body : List RawField}
    (h : WellFormedFields beginString bodyLength msgType body checkSum)
    (hbody : ∀ f ∈ body, f.number ≠ 10) (hcount : body.length + 4 ≤ 512) {m : Bytes}
    (hm : m = renderFields (beginString :: bodyLength :: msgType :: body ++ [checkSum]))
    (trailing : Bytes) (hmin : 20 ≤ m.length) (hmax : m.length + trailing.length ≤ 65536)
    : ∃ view, new.parse (m ++ trailing) = .ok (view, m.length)
        ∧ view.checksumValid = true
        ∧ view.entries.map (fun e => (e.1.toNat, e.2))
          = (beginString :: bodyLength :: msgType :: body ++ [checkSum]).map
            fun f => (f.number, f.value) := by
  have hlax : (h.laxMessage hbody).bytes = m := hm.symm
  have hfields : (h.laxMessage hbody).fields
      = beginString :: bodyLength :: msgType :: body ++ [checkSum] := rfl
  refine ⟨(finalState (m ++ trailing) (h.laxMessage hbody).fields).view.setChecksumValid true,
    ?_, rfl, ?_⟩
  . apply parse_new_eq_ok.mpr
    refine ⟨?_, ?_, h.laxMessage hbody, trailing, ?_, h.accepted hbody, rfl, ?_⟩
    . rw [List.length_append]
      omega
    . rw [List.length_append]
      omega
    . rw [hlax]
    . rw [hlax]
  . have hentries := @finalState_entries (h.laxMessage hbody).fields trailing
      (by rw [hfields]; simp [maxFields]; omega)
      (by rw [← LaxMessage.bytes, hlax, List.length_append]; omega)
    rw [← LaxMessage.bytes, hlax] at hentries
    change (finalState (m ++ trailing) (h.laxMessage hbody).fields).view.entries.map _ = _
    rw [hentries, hfields, List.map_map]
    apply List.map_congr_left
    intro f hf
    change (f.tag.toNat, f.value) = _
    rw [(h.fields f hf).tag_toNat]

-- A message with leading zeros in BodyLength, followed by bytes that imitate a trailer.
set_option maxRecDepth 2000 in
theorem parse_complete_heartbeat
    : ∃ view, new.parse (ascii "8=FIX.4.4" ++ [Tags.soh] ++ ascii "9=0005" ++ [Tags.soh]
            ++ ascii "35=0" ++ [Tags.soh] ++ ascii "10=051" ++ [Tags.soh]
            ++ ([Tags.soh] ++ ascii "10=000"))
          = .ok (view, 29)
        ∧ view.entries.map (fun e => (e.1.toNat, e.2))
          = [(8, ascii "FIX.4.4"), (9, ascii "0005"), (35, ascii "0"), (10, ascii "051")] := by
  have h : WellFormedFields ⟨ascii "8", ascii "FIX.4.4", by decide, by decide⟩
      ⟨ascii "9", ascii "0005", by decide, by decide⟩ ⟨ascii "35", ascii "0", by decide, by decide⟩ []
      ⟨ascii "10", ascii "051", by decide, by decide⟩ := by
    constructor
    all_goals decide +kernel
  obtain ⟨view, hparse, _, hentries⟩ := parse_complete h (by simp) (by simp) rfl
    ([Tags.soh] ++ ascii "10=000") (by decide +kernel) (by decide +kernel)
  exact ⟨view, hparse, hentries⟩

end FixParser

end Velocitas
