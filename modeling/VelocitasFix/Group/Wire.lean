import VelocitasFix.Group.RoundTrip
import VelocitasFix.Parser.Safety
import VelocitasFix.Serializer.RoundTrip

/-!
This module contains the round trip of repeating groups through the whole stack: the serializer writes
them into a message, the parser indexes the fields of the message, and the parser of groups gets every
group back from this index.
-/

namespace Velocitas

open Ascii

namespace OutMessage

-- The fields behind `before` are those of an instance of the definition, which ends behind them.
structure Carries (m : OutMessage) (before es : List FieldArg) (d : GroupDef)
    (group : RepeatingGroup) : Prop where
  wellFormed : d.WellFormed
  isInstance : GroupDef.Instance d (es.map fun arg => (arg.tag, arg.text)) group
  checksum_not_mem : Tags.checksum ∉ d.tags
  exists_after : ∃ after : List FieldArg, m.args = before ++ (es ++ after)
    ∧ ∀ arg ∈ after.head?, arg.tag ∉ d.tags

end OutMessage

namespace MessageView

variable {view : MessageView}

theorem Inside.shows (h : view.Inside) {e : FieldEntry} (he : e ∈ view.fields)
    : RepeatingGroup.Shows view.buffer e (e.tag, view.entryValue e) :=
  ⟨rfl, h.entry_le e he, rfl⟩

-- Where the index lists these tags and values, there are field entries that show them.
theorem Inside.exists_split (h : view.Inside) {xs ys zs : List (UInt32 × Bytes)}
    (hentries : view.entries = xs ++ (ys ++ zs))
    : ∃ before es after : List FieldEntry, view.fields = before ++ (es ++ after)
        ∧ before.length = xs.length ∧ es.length = ys.length
        ∧ List.Forall₂ (RepeatingGroup.Shows view.buffer) es ys
        ∧ after.map FieldEntry.tag = zs.map Prod.fst := by
  obtain ⟨before, rest, hfields, rfl, hrest⟩ := List.map_eq_append_iff.mp hentries
  obtain ⟨es, after, rfl, rfl, rfl⟩ := List.map_eq_append_iff.mp hrest
  refine ⟨before, es, after, hfields, (List.length_map _).symm, (List.length_map _).symm, ?_, ?_⟩
  . rw [List.forall₂_map_right_iff, List.forall₂_same]
    intro e he
    apply h.shows
    rw [hfields]
    exact List.mem_append_right _ (List.mem_append_left _ he)
  . rw [List.map_map]
    rfl

theorem Inside.parse_group (h : view.Inside) {m : OutMessage} (hentries : view.entries = m.entries)
    {before es : List FieldArg} {d : GroupDef} {group : RepeatingGroup}
    (hm : m.Carries before es d group)
    : RepeatingGroup.parse view.buffer view.fields (3 + before.length) d
        = some (group, 3 + before.length + es.length) := by
  obtain ⟨after, hargs, hafter⟩ := hm.exists_after
  let pair (arg : FieldArg) : UInt32 × Bytes := (arg.tag, arg.text)
  have hsplit : m.entries
      = ([(Tags.beginString, m.beginString), (Tags.bodyLength, m.bodyLengthText),
          (Tags.msgType, m.msgType)] ++ before.map pair)
        ++ (es.map pair ++ (after.map pair ++ [(Tags.checksum, m.checkSumText)])) := by
    simp [OutMessage.entries, hargs, pair]
  rw [hsplit] at hentries
  obtain ⟨fields, fields', rest, hfields, hbefore, hes, hshows, hrest⟩ := h.exists_split hentries
  have hstart : fields.length = 3 + before.length := by
    rw [hbefore, List.length_append, List.length_map]
    rfl
  have hcount : (fields ++ (fields' ++ rest)).length < 2 ^ 64 := by
    rw [← hfields]
    have hle := h.count_le
    unfold MessageView.fieldCount maxFields at hle
    omega
  have hends : RepeatingGroup.Ends d rest := by
    intro e he hmem
    have hnot : e.tag ∉ d.tags := by
      have htag : e.tag ∈ (rest.map FieldEntry.tag).head? := by
        rw [List.head?_map]
        exact Option.mem_map_of_mem _ he
      rw [hrest, List.map_append, List.map_map] at htag
      cases after with
      | nil =>
        rw [Option.mem_some.mp htag.symm]
        exact hm.checksum_not_mem
      | cons arg after =>
        rw [Option.mem_some.mp htag.symm]
        exact hafter arg rfl
    apply hnot
    rw [GroupDef.tags_eq]
    exact List.mem_cons_of_mem _ hmem
  have hparse := (@RepeatingGroup.parses view.buffer _ hcount _).instance_ hm.wellFormed
    hm.isInstance hshows List.drop_left hends (Nat.le_refl _)
  rw [← hfields, hstart, hes, List.length_map] at hparse
  exact hparse

end MessageView

-- One entry with two legs.
def marketDataSample : OutMessage where
  beginString := ascii "FIX.4.4"
  msgType := ascii "W"
  args := [.str 55 (ascii "EURUSD"), .u64 268 1, .str 269 (ascii "0"), .u64 555 2,
    .str 600 (ascii "EUR"), .str 600 (ascii "USD"), .str 624 (ascii "1"), .str 270 (ascii "1.09")]

end Velocitas
