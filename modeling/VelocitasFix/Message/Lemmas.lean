import VelocitasFix.Data.Numeral
import VelocitasFix.Parser.View

/-!
This module contains what the accessors of a view read from the list of its fields.
-/

namespace Velocitas

open Ascii

namespace MessageView

theorem getField_eq (view : MessageView) (tag : UInt32)
    : view.getField tag = (view.entries.find? (·.1 = tag)).map Prod.snd := by
  rw [getField, entries, List.find?_map, Option.map_map]
  rfl

theorem getField_of_mem {view : MessageView} {tag : UInt32} {value : Bytes}
    (hmem : (tag, value) ∈ view.entries)
    (hunique : ∀ other, (tag, other) ∈ view.entries → other = value)
    : view.getField tag = some value := by
  rw [getField_eq]
  cases hfind : view.entries.find? (·.1 = tag) with
  | none =>
    rw [List.find?_eq_none] at hfind
    have := hfind (tag, value) hmem
    simp at this
  | some entry =>
    have htag := List.find?_some hfind
    have hentry := List.mem_of_find?_eq_some hfind
    cases entry with
    | mk other found =>
      have hother : other = tag := by simpa using htag
      rw [hother] at hentry
      rw [Option.map_some, hunique found hentry]

theorem msgType_of_mem {view : MessageView} {value : Bytes}
    (hmem : (Tags.msgType, value) ∈ view.entries)
    (hunique : ∀ other, (Tags.msgType, other) ∈ view.entries → other = value)
    : view.msgType = some value := by
  unfold msgType
  split
  . next entry hentry =>
    split
    . next htag =>
      rw [hunique (view.entryValue entry)]
      rw [← htag, entries]
      exact List.mem_map_of_mem (List.mem_of_getElem? hentry)
    . exact getField_of_mem hmem hunique
  . exact getField_of_mem hmem hunique

theorem parseU64_go_eq (bs : Bytes) (n : UInt64)
    : parseU64.go bs n = if AllDigits bs then
          some (bs.foldl (fun n b => n * 10 + (b - 48).toUInt64) n)
        else
          none :=
  digitLoop_eq (fun _ => rfl) (fun _ _ _ => rfl) bs n

theorem parseU64_go {bs : Bytes} (h : AllDigits bs) (n : UInt64)
    : parseU64.go bs n = some (bs.foldl (fun n b => n * 10 + (b - 48).toUInt64) n) := by
  rw [parseU64_go_eq, if_pos h]

theorem parseU64_decimal (n : UInt64) : parseU64 (decimal n.toNat) = some n := by
  have hdigits := allDigits_decimal n.toNat
  have hne : ¬ (decimal n.toNat).isEmpty = true := by
    simp [decimal_ne_nil]
  rw [parseU64, if_neg hne, parseU64_go hdigits]
  change some (FixParser.statedLength (decimal n.toNat)) = _
  rw [statedLength_eq_ofNat_value hdigits, value_decimal, UInt64.ofNat_toNat]

end MessageView

end Velocitas
