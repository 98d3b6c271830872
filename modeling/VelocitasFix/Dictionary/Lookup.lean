import VelocitasFix.Data.DirectIndex
import VelocitasFix.Data.Fault
import VelocitasFix.Dictionary.Impl

/-!
This module contains the lookup of a field by its tag: it stays inside the index and the fields, and
finds what a search of the fields from their end finds.
-/

namespace Velocitas

namespace CompiledDictionary

-- What `from_xml` makes of the parts that it has parsed.
def indexed (fixVersion : Bytes) (fields : List CompiledFieldDef)
    (messages : List CompiledMessageDef) : CompiledDictionary :=
  { fixVersion, fields, messages, tagIndex := buildTagIndex fields }

def maxTag (fields : List CompiledFieldDef) : Nat := (fields.map (·.tag.toNat)).max?.getD 0

variable {fields : List CompiledFieldDef}

theorem toNat_tag_le {f : CompiledFieldDef} (h : f ∈ fields) : f.tag.toNat ≤ maxTag fields := by
  unfold maxTag
  cases hmax : (fields.map (·.tag.toNat)).max? with
  | none =>
    rw [List.max?_eq_none_iff, List.map_eq_nil_iff] at hmax
    rw [hmax] at h
    contradiction
  | some m => exact (List.max?_eq_some_iff.mp hmax).2 _ (List.mem_map_of_mem h)

theorem buildTagIndex_eq (fields : List CompiledFieldDef)
    : buildTagIndex fields = DirectIndex.build (·.tag.toNat) (maxTag fields + 1) fields := rfl

theorem length_buildTagIndex (fields : List CompiledFieldDef)
    : (buildTagIndex fields).length = maxTag fields + 1 := by
  rw [buildTagIndex_eq, DirectIndex.length_build]

theorem lt_of_mem_buildTagIndex {i : Nat} (h : some i ∈ buildTagIndex fields)
    : i < fields.length := by
  rw [buildTagIndex_eq] at h
  exact DirectIndex.lt_of_mem_build h

theorem lookupField_indexed (fixVersion : Bytes) (fields : List CompiledFieldDef)
    (messages : List CompiledMessageDef) (tag : UInt32)
    : (indexed fixVersion fields messages).lookupField tag
        = KeyedTable.row CompiledFieldDef.tag fields.reverse tag := by
  have hrow : KeyedTable.row CompiledFieldDef.tag fields.reverse tag
      = KeyedTable.row (·.tag.toNat) fields.reverse tag.toNat := by
    unfold KeyedTable.row
    congr 1
    funext f
    rw [decide_eq_decide, UInt32.toNat_inj]
  have hlength : (indexed fixVersion fields messages).tagIndex.length = maxTag fields + 1 :=
    length_buildTagIndex fields
  rw [lookupField, hlength, hrow]
  split
  . next hlt =>
    have hbuild := @DirectIndex.lookup_build _ (·.tag.toNat) _ fields _ hlt
    exact hbuild
  . next hge =>
    symm
    rw [KeyedTable.row_eq_none_iff, List.mem_map]
    rintro ⟨f, hf, htag⟩
    have hle := toNat_tag_le (List.mem_reverse.mp hf)
    rw [htag] at hle
    omega

end CompiledDictionary

namespace Checked

open Fault

namespace CompiledDictionary

def buildTagIndex (fields : List CompiledFieldDef) : Except Fault (List (Option Nat)) :=
  let maxTag := (fields.map (·.tag.toNat)).max?.getD 0
  let index : List (Option Nat) := List.replicate (maxTag + 1) none
  fields.zipIdx.foldlM (fun index (field, i) => store index field.tag.toNat (some i)) index

def lookupField (d : CompiledDictionary) (tag : UInt32)
    : Except Fault (Option CompiledFieldDef) :=
  if tag.toNat < d.tagIndex.length then do
    match ← index d.tagIndex tag.toNat with
    | none => .ok none
    | some i =>
      let field ← index d.fields i
      .ok (some field)
  else
    .ok none

def validateMessage (d : CompiledDictionary) (msgType : Bytes) (presentTags : List UInt32)
    : Except Fault (List Bytes) :=
  match d.lookupMessage msgType with
  | none => .ok [Velocitas.CompiledDictionary.unknownMessage msgType]
  | some msg =>
    (Velocitas.CompiledDictionary.missingTags msg presentTags).mapM fun tag => do
      let field ← lookupField d tag
      .ok (Velocitas.CompiledDictionary.missingField field tag)

open Velocitas.CompiledDictionary (toNat_tag_le indexed lt_of_mem_buildTagIndex)

theorem foldlM_store {ps : List (CompiledFieldDef × Nat)} {index : List (Option Nat)}
    (h : ∀ p ∈ ps, p.1.tag.toNat < index.length)
    : ps.foldlM (fun index (field, i) => store index field.tag.toNat (some i)) index
        = .ok (ps.foldl (fun index (field, i) => index.set field.tag.toNat (some i)) index) := by
  induction ps generalizing index with
  | nil => rfl
  | cons p ps ih =>
    rw [List.forall_mem_cons] at h
    have hstore := (Computes.store h.1 (some p.2)).release
    rw [List.foldlM_cons, List.foldl_cons]
    dsimp only
    rw [hstore, ← ih]
    . rfl
    . rw [List.length_set]
      exact h.2

theorem buildTagIndex_eq_ok (fields : List CompiledFieldDef)
    : buildTagIndex fields = .ok (Velocitas.CompiledDictionary.buildTagIndex fields) := by
  apply foldlM_store
  intro p hp
  rw [List.length_replicate]
  apply Nat.lt_succ_of_le
  exact toNat_tag_le (List.fst_mem_of_mem_zipIdx hp)

theorem lookupField_eq_ok (fixVersion : Bytes) (fields : List CompiledFieldDef)
    (messages : List CompiledMessageDef) (tag : UInt32)
    : lookupField (indexed fixVersion fields messages) tag
        = .ok ((indexed fixVersion fields messages).lookupField tag) := by
  generalize hd : indexed fixVersion fields messages = d
  have hindex : ∀ i, some i ∈ d.tagIndex → i < d.fields.length := by
    rw [← hd]
    intro i hi
    exact lt_of_mem_buildTagIndex hi
  unfold lookupField Velocitas.CompiledDictionary.lookupField
  split
  . next hlt =>
    have hentry := (@Computes.index _ d.tagIndex _ hlt).release
    rw [hentry, List.getD_eq_getElem?_getD, List.getElem?_eq_getElem hlt, Option.getD_some]
    have hmem := List.getElem_mem hlt
    cases hi : d.tagIndex[tag.toNat] with
    | none => rfl
    | some i =>
      rw [hi] at hmem
      have hfield := (Computes.index (hindex i hmem)).release
      rw [Option.bind_some, List.getElem?_eq_getElem (hindex i hmem)]
      show (Fault.index d.fields i >>= fun field => Except.ok (some field)) = _
      rw [hfield]
      rfl
  . rfl

theorem validateMessage_eq_ok (fixVersion : Bytes) (fields : List CompiledFieldDef)
    (messages : List CompiledMessageDef) (msgType : Bytes) (presentTags : List UInt32)
    : validateMessage (indexed fixVersion fields messages) msgType presentTags
        = .ok ((indexed fixVersion fields messages).validateMessage msgType presentTags) := by
  unfold validateMessage Velocitas.CompiledDictionary.validateMessage
  simp only [lookupField_eq_ok]
  cases (indexed fixVersion fields messages).lookupMessage msgType with
  | none => rfl
  | some msg =>
    dsimp only
    apply List.mapM_pure

end CompiledDictionary

end Checked

namespace CompiledDictionary

theorem validateMessage_eq_nil_iff {d : CompiledDictionary} {msgType : Bytes}
    {msg : CompiledMessageDef} (h : d.lookupMessage msgType = some msg) (presentTags : List UInt32)
    : d.validateMessage msgType presentTags = [] ↔ ∀ tag ∈ msg.requiredFields, tag ∈ presentTags := by
  rw [validateMessage, h]
  simp [missingTags]

-- A lookup as the documentation has it, and a validation that rests on it.
structure Exact (d : CompiledDictionary) : Prop where
  lookup_inside : ∀ tag, Checked.CompiledDictionary.lookupField d tag = .ok (d.lookupField tag)
  validate_inside : ∀ msgType presentTags,
    Checked.CompiledDictionary.validateMessage d msgType presentTags
      = .ok (d.validateMessage msgType presentTags)
  none_iff : ∀ tag, d.lookupField tag = none ↔ ∀ f ∈ d.fields, f.tag ≠ tag
  last : ∀ tag f, d.lookupField tag = some f →
    ∃ before after, d.fields = before ++ f :: after ∧ f.tag = tag ∧ ∀ g ∈ after, g.tag ≠ tag
  unique : (d.fields.map (·.tag)).Nodup →
    ∀ tag, d.lookupField tag = d.fields.find? (·.tag = tag)
  valid_iff : ∀ msgType msg presentTags, d.lookupMessage msgType = some msg →
    (d.validateMessage msgType presentTags = [] ↔ ∀ tag ∈ msg.requiredFields, tag ∈ presentTags)

theorem exact_indexed (fixVersion : Bytes) (fields : List CompiledFieldDef)
    (messages : List CompiledMessageDef)
    : (indexed fixVersion fields messages).Exact := by
  have hlookup := lookupField_indexed fixVersion fields messages
  constructor
  case lookup_inside =>
    exact Checked.CompiledDictionary.lookupField_eq_ok fixVersion fields messages
  case validate_inside =>
    exact Checked.CompiledDictionary.validateMessage_eq_ok fixVersion fields messages
  case none_iff =>
    intro tag
    rw [hlookup, KeyedTable.row, List.find?_eq_none]
    simp [indexed]
  case last =>
    intro tag f hf
    rw [hlookup] at hf
    obtain ⟨htag, after, before, hsplit, hafter⟩ := List.find?_eq_some_iff_append.mp hf
    refine ⟨before.reverse, after.reverse, ?_, by simpa using htag, ?_⟩
    . show fields = _
      rw [← List.reverse_reverse fields, hsplit]
      simp
    . intro g hg
      simpa using hafter g (List.mem_reverse.mp hg)
  case unique =>
    intro hnodup tag
    rw [hlookup]
    exact KeyedTable.row_reverse hnodup tag
  case valid_iff =>
    intro msgType msg presentTags hmsg
    exact validateMessage_eq_nil_iff hmsg presentTags

theorem exact_of_fromXml {xml : Bytes} {d : CompiledDictionary} (h : fromXml xml = .ok d)
    : d.Exact := by
  unfold fromXml at h
  cases hversion : parseVersion xml with
  | error e =>
    rw [hversion] at h
    contradiction
  | ok fixVersion =>
    cases hfields : parseFields xml with
    | error e =>
      rw [hversion, hfields] at h
      contradiction
    | ok fields =>
      cases hmessages : parseMessages xml (nameToTag fields) with
      | error e =>
        rw [hversion, hfields] at h
        dsimp only [bind, Except.bind] at h
        rw [hmessages] at h
        contradiction
      | ok messages =>
        rw [hversion, hfields] at h
        dsimp only [bind, Except.bind] at h
        rw [hmessages] at h
        rw [← Except.ok.inj h]
        exact exact_indexed fixVersion fields messages

theorem lookup_exact (fixVersion : Bytes) (fields : List CompiledFieldDef)
    (messages : List CompiledMessageDef)
    : Checked.CompiledDictionary.buildTagIndex fields = .ok (buildTagIndex fields)
        ∧ (indexed fixVersion fields messages).Exact :=
  ⟨Checked.CompiledDictionary.buildTagIndex_eq_ok fields, exact_indexed fixVersion fields messages⟩

end CompiledDictionary

end Velocitas
