import VelocitasFix.Data.Fault
import VelocitasFix.Message.Impl

/-!
This module contains the field index of a view and its accessors once more, with every index and every
range at the place where the source has it.
-/

namespace Velocitas

namespace Checked

open Fault

namespace MessageView

def addField (view : MessageView) (tag offset : UInt32) (length : UInt16)
    : Except Fault MessageView :=
  if view.fields.length < maxFields then do
    check (view.fields.length < maxFields)
    .ok (view.addField tag offset length)
  else
    .ok view

def entryValue (view : MessageView) (e : FieldEntry) : Except Fault Bytes :=
  range view.buffer e.offset.toNat (e.offset.toNat + e.length.toNat)

def fields (view : MessageView) : Except Fault (List FieldEntry) := do
  check (view.fieldCount ≤ maxFields)
  .ok view.fields

-- The entry at a position below the count, in the array of the view.
def entryAt (view : MessageView) (i : Nat) : Except Fault FieldEntry := do
  check (i < maxFields)
  index view.fields i

def getField (view : MessageView) (tag : UInt32) : Except Fault (Option Bytes) :=
  go view tag view.fieldCount 0
where
  go (view : MessageView) (tag : UInt32) : Nat → Nat → Except Fault (Option Bytes)
    | 0, _ => .ok none
    | remaining + 1, i => do
      let e ← entryAt view i
      if e.tag = tag then
        .ok (some (← entryValue view e))
      else
        go view tag remaining (i + 1)

def msgType (view : MessageView) : Except Fault (Option Bytes) := do
  let idx := view.msgTypeIdx
  if idx < view.fieldCount then
    let e ← entryAt view idx
    if e.tag = Tags.msgType then
      .ok (some (← entryValue view e))
    else
      getField view Tags.msgType
  else
    getField view Tags.msgType

end MessageView

end Checked

-- The entries are those of the array, and each of them selects a range of the buffer.
structure MessageView.Inside (view : MessageView) : Prop where
  count_le : view.fieldCount ≤ maxFields
  entry_le : ∀ e ∈ view.fields, e.offset.toNat + e.length.toNat ≤ view.buffer.length

namespace Checked

open Fault

namespace MessageView

variable {view : Velocitas.MessageView}

theorem computes_addField (view : Velocitas.MessageView) (tag offset : UInt32) (length : UInt16)
    : Computes (fun _ => addField view tag offset length) True (view.addField tag offset length) := by
  unfold addField
  split
  . next hlt =>
    apply (Computes.check hlt).bind_of_true
    exact .pure _
  . next hge =>
    rw [Velocitas.MessageView.addField, if_neg hge]
    exact .pure view

theorem computes_fields (h : view.Inside) : Computes (fun _ => fields view) True view.fields := by
  unfold fields
  apply (Computes.check h.count_le).bind_of_true
  exact .pure _

theorem computes_entryValue (h : view.Inside) {e : FieldEntry} (he : e ∈ view.fields)
    : Computes (fun _ => entryValue view e) True (view.entryValue e) := by
  have hrange := Computes.range (Nat.le_add_right e.offset.toNat e.length.toNat) (h.entry_le e he)
  rw [Nat.add_sub_cancel_left] at hrange
  exact hrange

theorem computes_entryAt (h : view.Inside) {i : Nat} (hi : i < view.fields.length)
    : Computes (fun _ => entryAt view i) True view.fields[i] := by
  have hcount := h.count_le
  unfold entryAt
  apply (Computes.check (Nat.lt_of_lt_of_le hi hcount)).bind_of_true
  exact .index hi

-- The induction is on the entries that are left.
theorem computes_getField_go (h : view.Inside) (tag : UInt32) {remaining i : Nat}
    (hi : i + remaining = view.fieldCount)
    : Computes (fun _ => getField.go view tag remaining i) True
        (((view.fields.drop i).find? (·.tag = tag)).map view.entryValue) := by
  unfold Velocitas.MessageView.fieldCount at hi
  induction remaining generalizing i with
  | zero =>
    rw [List.drop_eq_nil_of_le (by omega)]
    exact .pure none
  | succ remaining ih =>
    have hlt : i < view.fields.length := by omega
    unfold getField.go
    rw [List.drop_eq_getElem_cons hlt, List.find?_cons]
    apply (computes_entryAt h hlt).bind_of_true
    split
    . next htag =>
      simp only [htag, decide_true, Option.map_some]
      apply (computes_entryValue h (List.getElem_mem hlt)).bind_of_true
      exact .pure _
    . next htag =>
      simp only [htag, decide_false]
      apply ih
      omega

theorem computes_getField (h : view.Inside) (tag : UInt32)
    : Computes (fun _ => getField view tag) True (view.getField tag) :=
  computes_getField_go h tag (Nat.zero_add _)

theorem computes_msgType (h : view.Inside)
    : Computes (fun _ => msgType view) True view.msgType := by
  unfold msgType Velocitas.MessageView.msgType Velocitas.MessageView.fieldCount
  dsimp only
  by_cases hidx : view.msgTypeIdx < view.fields.length
  . rw [List.getElem?_eq_getElem hidx]
    dsimp only
    rw [if_pos hidx]
    apply (computes_entryAt h hidx).bind_of_true
    split
    . apply (computes_entryValue h (List.getElem_mem hidx)).bind_of_true
      exact .pure _
    . apply computes_getField h
  . rw [List.getElem?_eq_none (Nat.le_of_not_lt hidx)]
    dsimp only
    rw [if_neg hidx]
    apply computes_getField h

end MessageView

end Checked

end Velocitas
