import VelocitasFix.Dictionary.RoundTrip

/-!
This module contains the proof of when the compiler keeps the required fields of every message. It
does not look for the end of a message that is an empty element, and it passes over a field that is
not defined.
-/

namespace Velocitas

open Ascii Markup

namespace Dictionary

-- No required field of a message is lost, and an undefined one is an error.
structure Kept (d : Dictionary) (result : Except DictHalt CompiledDictionary) : Prop where
  required : ∀ dict, result = .ok dict → ∀ m ∈ d.messages, ∃ c ∈ dict.messages,
    c.msgType = m.msgType
      ∧ c.requiredFields.map some = (m.fields.filter (·.required)).map (d.tagOf ·.name)
  undefined : (∃ m ∈ d.messages, ∃ u ∈ m.fields, u.name ∉ d.fields.map (·.name)) →
    ∃ e, result = .error (.error e)

variable {d : Dictionary} {short : MessageDef → Bool} {tags : List Tag} {xml : Bytes}

-- There are too few messages for all the types.
theorem forall_long_of_types {compiled : List CompiledMessageDef}
    (hlength : compiled.length = d.messages.countP (!short ·))
    (htypes : (d.messages.map (·.msgType)).Nodup)
    (hkept : ∀ m ∈ d.messages, ∃ c ∈ compiled, c.msgType = m.msgType)
    : ∀ m ∈ d.messages, short m = false := by
  have hsubset : d.messages.map (·.msgType) ⊆ compiled.map (·.msgType) := by
    intro msgType hmem
    obtain ⟨m, hm, hmsgType⟩ := List.mem_map.mp hmem
    obtain ⟨c, hc, htype⟩ := hkept m hm
    exact List.mem_map.mpr ⟨c, hc, htype.trans hmsgType⟩
  have hle := List.Nodup.length_le_of_subset htypes hsubset
  rw [List.length_map, List.length_map, hlength] at hle
  have hall := List.countP_eq_length.mp (Nat.le_antisymm List.countP_le_length hle)
  simpa using hall

end Dictionary

end Velocitas
