import VelocitasFix.Data.KeyedTable
import VelocitasFix.Dictionary.Layout
import Mathlib.Data.List.Forall2

/-!
This module contains the proof that a dictionary survives being written as XML and compiled: no field,
value or message is lost, and none is changed.
-/

namespace Velocitas

open Ascii Search Markup

-- A document with the sections of a dictionary. There may be other elements around the sections, and
-- the messages may stand in front of the fields.
structure Dictionary.LaidOut (d : Dictionary) (short : MessageDef → Bool) (tags : List Tag)
    : Prop where
  wellFormed : ∀ t ∈ tags, t.WellFormed
  fieldless : ∀ m ∈ d.messages, short m = true → m.fields = []
  version : ∃ pre post,
    tags = pre ++ .opening (ascii "fix") [⟨ascii "major", d.major⟩, ⟨ascii "minor", d.minor⟩] :: post
      ∧ ∀ t ∈ pre, (Mark.start (ascii "fix")).marks t = false
  fields : Encloses tags (ascii "fields") (d.fields.flatMap (·.tags))
  messages : Encloses tags (ascii "messages") (d.messages.flatMap (MessageDef.tags short))

namespace CompiledDictionary

section Document

variable {d : Dictionary} {short : MessageDef → Bool} {tags : List Tag} {xml : Bytes}

theorem parseVersion_laidOut (h : d.LaidOut short tags) (hxml : Spaced tags xml)
    : parseVersion xml = .ok (ascii "FIX." ++ d.major ++ ascii "." ++ d.minor) := by
  obtain ⟨pre, post, htags, hpre⟩ := h.version
  have hwf := h.wellFormed
  rw [htags] at hxml hwf
  obtain ⟨i, t', rest, hfind, _, hdrop, hreorders, _⟩ :=
    hxml.exists_find (m := .start (ascii "fix")) (by decide) hwf hpre rfl
  rw [List.forall_mem_append, List.forall_mem_cons] at hwf
  have hmajor := extractAttr_render (ascii "major") hreorders hwf.2.1 (by decide) rfl
  have hminor := extractAttr_render (ascii "minor") hreorders hwf.2.1 (by decide) rfl
  have hbracket := Tag.find_bracket (hreorders.wellFormed hwf.2.1) rest
  unfold parseVersion
  rw [show find (ascii "<fix ") xml = some i from hfind]
  dsimp only [okOr, bind, Except.bind]
  rw [hdrop, show find (ascii ">") (t'.render ++ rest) = _ from hbracket]
  dsimp only
  rw [← Tag.length_render, List.take_left, hmajor, hminor]
  rfl

theorem parseFields_laidOut (h : d.LaidOut short tags) (hxml : Spaced tags xml)
    : parseFields xml = .ok d.fields := by
  obtain ⟨i, e, hfind, hclose, hspaced⟩ := hxml.exists_section h.wellFormed h.fields
  have hwf : ∀ t ∈ [.opening (ascii "fields") []] ++ d.fields.flatMap (·.tags), t.WellFormed :=
    fun t ht => h.wellFormed t (h.fields.subset ht)
  have hfields := @parseFieldsFrom_spaced [.opening (ascii "fields") []] _ _ _ hspaced hwf
    (by rw [List.forall_mem_singleton]; rfl) (List.length_take_le e _)
  unfold parseFields
  rw [show find (ascii "<fields>") xml = some i from hfind]
  dsimp only
  rw [show find (ascii "</fields>") (xml.drop i) = some e from hclose]
  exact hfields

theorem parseMessages_laidOut (h : d.LaidOut short tags) (hxml : Spaced tags xml)
    (nameToTag : Bytes → Option UInt32)
    : parseMessages xml nameToTag = .ok (compileFrom nameToTag short none d.messages) := by
  obtain ⟨i, e, hfind, hclose, hspaced⟩ := hxml.exists_section h.wellFormed h.messages
  have hwf : ∀ t ∈ [.opening (ascii "messages") []] ++ d.messages.flatMap (MessageDef.tags short),
      t.WellFormed :=
    fun t ht => h.wellFormed t (h.messages.subset ht)
  have hspaced' : Spaced ([.opening (ascii "messages") []]
      ++ d.messages.flatMap (MessageDef.tags short)) ((xml.drop i).take e) := hspaced
  have hmessages := parseMessagesFrom_spaced nameToTag hspaced' hwf
    (by rw [List.forall_mem_singleton]; rfl) (List.length_take_le e _)
  unfold parseMessages
  rw [show find (ascii "<messages>") xml = some i from hfind]
  dsimp only
  rw [show find (ascii "</messages>") (xml.drop i) = some e from hclose]
  exact hmessages

theorem fromXml_laidOut (h : d.LaidOut short tags) (hxml : Spaced tags xml)
    : fromXml xml = .ok
      { fixVersion := ascii "FIX." ++ d.major ++ ascii "." ++ d.minor
        fields := d.fields
        messages := compileFrom (nameToTag d.fields) short none d.messages
        tagIndex := buildTagIndex d.fields } := by
  unfold fromXml
  rw [parseVersion_laidOut h hxml, parseFields_laidOut h hxml]
  dsimp only [bind, Except.bind]
  rw [parseMessages_laidOut h hxml]
  rfl

end Document

end CompiledDictionary

namespace Dictionary

-- The layout without anything but the two sections.
def tags (d : Dictionary) (short : MessageDef → Bool) : List Tag :=
  .opening (ascii "fix") [⟨ascii "major", d.major⟩, ⟨ascii "minor", d.minor⟩]
    :: .opening (ascii "fields") []
    :: (d.fields.flatMap (·.tags) ++ .closing (ascii "fields")
    :: .opening (ascii "messages") []
    :: (d.messages.flatMap (MessageDef.tags short) ++ [.closing (ascii "messages"),
      .closing (ascii "fix")]))

-- No string holds a quote, a bracket or an equals sign.
structure Clean (d : Dictionary) : Prop where
  version : IsValue d.major ∧ IsValue d.minor
  fields : ∀ f ∈ d.fields, IsValue f.name ∧ IsValue f.fieldType
    ∧ ∀ v ∈ f.values, IsValue v.1 ∧ IsValue v.2
  messages : ∀ m ∈ d.messages, IsValue m.name ∧ IsValue m.msgType ∧ IsValue m.msgcat
    ∧ ∀ u ∈ m.fields, IsValue u.name

theorem isValue_decimal (n : Nat) : IsValue (decimal n) := by
  intro b hb hmem
  have hdigit := allDigits_decimal n b hb
  simp only [List.mem_cons, List.not_mem_nil, or_false] at hmem
  rcases hmem with rfl | rfl | rfl | rfl
  . exact absurd hdigit (by decide)
  . exact absurd hdigit (by decide)
  . exact absurd hdigit (by decide)
  . exact absurd hdigit (by decide)

variable {d : Dictionary}

theorem Clean.fieldTags (h : d.Clean) : ∀ t ∈ d.fields.flatMap (·.tags), t.WellFormed := by
  intro t ht
  obtain ⟨f, hf, ht⟩ := List.mem_flatMap.mp ht
  obtain ⟨hname, htype, hvalues⟩ := h.fields f hf
  have hattrs : ∀ a ∈ f.attrs, a.WellFormed := by
    simp only [CompiledFieldDef.attrs, List.forall_mem_cons]
    exact ⟨Attr.wellFormed_mk (by decide) (isValue_decimal _), Attr.wellFormed_mk (by decide) hname,
      Attr.wellFormed_mk (by decide) htype, nofun⟩
  have hvalueTags : ∀ t ∈ f.values.map valueTag, t.WellFormed := by
    rw [List.forall_mem_map]
    intro v hv
    refine ⟨(by decide : IsName (ascii "value")), ?_⟩
    change ∀ a ∈ [_, _], _
    rw [List.forall_mem_cons, List.forall_mem_singleton]
    exact ⟨Attr.wellFormed_mk (by decide) (hvalues v hv).1,
      Attr.wellFormed_mk (by decide) (hvalues v hv).2⟩
  have hfield : IsName (ascii "field") := by decide
  unfold CompiledFieldDef.tags at ht
  split at ht
  . rw [List.mem_singleton] at ht
    rw [ht]
    exact ⟨hfield, hattrs⟩
  . rw [List.mem_cons, List.mem_append, List.mem_singleton] at ht
    rcases ht with rfl | ht | rfl
    . exact ⟨hfield, hattrs⟩
    . exact hvalueTags t ht
    . exact ⟨hfield, nofun⟩

theorem Clean.messageTags (h : d.Clean) (short : MessageDef → Bool)
    : ∀ t ∈ d.messages.flatMap (MessageDef.tags short), t.WellFormed := by
  intro t ht
  obtain ⟨m, hm, ht⟩ := List.mem_flatMap.mp ht
  obtain ⟨hname, htype, hcat, huses⟩ := h.messages m hm
  have hattrs : ∀ a ∈ m.attrs, a.WellFormed := by
    simp only [MessageDef.attrs, List.forall_mem_cons]
    exact ⟨Attr.wellFormed_mk (by decide) hname, Attr.wellFormed_mk (by decide) htype,
      Attr.wellFormed_mk (by decide) hcat, nofun⟩
  have huseTags : ∀ t ∈ m.fields.map FieldUse.tag, t.WellFormed := by
    rw [List.forall_mem_map]
    intro u hu
    refine ⟨(by decide : IsName (ascii "field")), ?_⟩
    change ∀ a ∈ [_, _], _
    rw [List.forall_mem_cons, List.forall_mem_singleton]
    refine ⟨Attr.wellFormed_mk (by decide) (huses u hu), Attr.wellFormed_mk (by decide) ?_⟩
    split
    . decide
    . decide
  have hmessage : IsName (ascii "message") := by decide
  unfold MessageDef.tags at ht
  split at ht
  . rw [List.mem_singleton] at ht
    rw [ht]
    exact ⟨hmessage, hattrs⟩
  . rw [List.mem_cons, List.mem_append, List.mem_singleton] at ht
    rcases ht with rfl | ht | rfl
    . exact ⟨hmessage, hattrs⟩
    . exact huseTags t ht
    . exact ⟨hmessage, nofun⟩

theorem name_fieldTags (fields : List CompiledFieldDef)
    : ∀ t ∈ fields.flatMap (·.tags), t.name = ascii "field" ∨ t.name = ascii "value" := by
  intro t ht
  obtain ⟨f, _, ht⟩ := List.mem_flatMap.mp ht
  unfold CompiledFieldDef.tags at ht
  split at ht
  . rw [List.mem_singleton] at ht
    exact .inl (congrArg Tag.name ht)
  . rw [List.mem_cons, List.mem_append, List.mem_singleton] at ht
    rcases ht with ht | ht | ht
    . exact .inl (congrArg Tag.name ht)
    . obtain ⟨v, _, hv⟩ := List.mem_map.mp ht
      exact .inr (congrArg Tag.name hv.symm)
    . exact .inl (congrArg Tag.name ht)

theorem name_messageTags (short : MessageDef → Bool) (messages : List MessageDef)
    : ∀ t ∈ messages.flatMap (MessageDef.tags short),
      t.name = ascii "message" ∨ t.name = ascii "field" := by
  intro t ht
  obtain ⟨m, _, ht⟩ := List.mem_flatMap.mp ht
  unfold MessageDef.tags at ht
  split at ht
  . rw [List.mem_singleton] at ht
    exact .inl (congrArg Tag.name ht)
  . rw [List.mem_cons, List.mem_append, List.mem_singleton] at ht
    rcases ht with ht | ht | ht
    . exact .inl (congrArg Tag.name ht)
    . obtain ⟨u, _, hu⟩ := List.mem_map.mp ht
      exact .inr (congrArg Tag.name hu.symm)
    . exact .inl (congrArg Tag.name ht)

-- A search for another name passes over the tags of the fields.
theorem marks_fieldTags {m : Mark} (h : m.name ≠ ascii "field") (h' : m.name ≠ ascii "value")
    (fields : List CompiledFieldDef)
    : ∀ t ∈ fields.flatMap (·.tags), m.marks t = false := by
  intro t ht
  apply Mark.marks_of_name_ne
  cases name_fieldTags fields t ht with
  | inl hname => rw [hname]; exact h
  | inr hname => rw [hname]; exact h'

theorem marks_messageTags {m : Mark} (h : m.name ≠ ascii "message") (h' : m.name ≠ ascii "field")
    (short : MessageDef → Bool) (messages : List MessageDef)
    : ∀ t ∈ messages.flatMap (MessageDef.tags short), m.marks t = false := by
  intro t ht
  apply Mark.marks_of_name_ne
  cases name_messageTags short messages t ht with
  | inl hname => rw [hname]; exact h
  | inr hname => rw [hname]; exact h'

theorem Clean.laidOut (h : d.Clean) {short : MessageDef → Bool}
    (hshort : ∀ m ∈ d.messages, short m = true → m.fields = [])
    : d.LaidOut short (d.tags short) where
  wellFormed := by
    have hversion : ∀ a ∈ [⟨ascii "major", d.major⟩, ⟨ascii "minor", d.minor⟩],
        Attr.WellFormed a := by
      simp only [List.forall_mem_cons]
      exact ⟨Attr.wellFormed_mk (by decide) h.version.1, Attr.wellFormed_mk (by decide) h.version.2,
        nofun⟩
    have hplain (name : Bytes) (hname : IsName name)
        : (Tag.opening name []).WellFormed ∧ (Tag.closing name).WellFormed :=
      ⟨⟨hname, nofun⟩, ⟨hname, nofun⟩⟩
    have hfix : IsName (ascii "fix") := by decide
    have hfields := hplain (ascii "fields") (by decide)
    have hmessages := hplain (ascii "messages") (by decide)
    unfold tags
    rw [List.forall_mem_cons, List.forall_mem_cons, List.forall_mem_append, List.forall_mem_cons,
      List.forall_mem_cons, List.forall_mem_append, List.forall_mem_cons,
      List.forall_mem_singleton]
    exact ⟨⟨hfix, hversion⟩, hfields.1, h.fieldTags, hfields.2, hmessages.1, h.messageTags short,
      hmessages.2, (hplain _ hfix).2⟩
  fieldless := hshort
  version := ⟨[], _, rfl, nofun⟩
  fields := by
    refine ⟨⟨[_], _, rfl, ?_⟩, marks_fieldTags (by decide) (by decide) d.fields⟩
    rw [List.forall_mem_singleton]
    rfl
  messages := by
    refine ⟨⟨.opening (ascii "fix") [⟨ascii "major", d.major⟩, ⟨ascii "minor", d.minor⟩]
      :: .opening (ascii "fields") [] :: (d.fields.flatMap (·.tags) ++ [.closing (ascii "fields")]),
      [.closing (ascii "fix")], by simp [tags], ?_⟩,
      marks_messageTags (by decide) (by decide) short d.messages⟩
    rw [List.forall_mem_cons, List.forall_mem_cons, List.forall_mem_append,
      List.forall_mem_singleton]
    exact ⟨rfl, rfl, marks_fieldTags (by decide) (by decide) d.fields, rfl⟩

-- The tag of the field that is called like this.
def tagOf (d : Dictionary) (name : Bytes) : Option UInt32 :=
  (d.fields.find? (·.name = name)).map (·.tag)

-- A message and what it is compiled to.
structure Compiles (d : Dictionary) (m : MessageDef) (c : CompiledMessageDef) : Prop where
  name : c.name = m.name
  msgType : c.msgType = m.msgType
  category : c.category = .admin ↔ m.msgcat = ascii "admin"
  required : c.requiredFields.map some = (m.fields.filter (·.required)).map (d.tagOf ·.name)
  optional : c.optionalFields.map some = (m.fields.filter (!·.required)).map (d.tagOf ·.name)

-- With distinct names it makes no difference which of two definitions the compiler keeps.
theorem nameToTag_eq (h : (d.fields.map (·.name)).Nodup) (name : Bytes)
    : CompiledDictionary.nameToTag d.fields name = d.tagOf name :=
  congrArg (Option.map CompiledFieldDef.tag) (KeyedTable.row_reverse h name)

theorem isSome_tagOf {name : Bytes} (h : name ∈ d.fields.map (·.name)) : (d.tagOf name).isSome := by
  rw [tagOf, Option.isSome_map]
  exact KeyedTable.isSome_row_iff.mpr h

theorem map_tagsOf (hnames : (d.fields.map (·.name)).Nodup) {uses : List FieldUse}
    (huses : ∀ u ∈ uses, u.name ∈ d.fields.map (·.name)) (required : Bool)
    : (CompiledDictionary.tagsOf (CompiledDictionary.nameToTag d.fields) required uses).map some
        = (uses.filter (·.required = required)).map (d.tagOf ·.name) := by
  unfold CompiledDictionary.tagsOf
  have hdefined : ∀ u ∈ uses.filter (·.required = required), (d.tagOf u.name).isSome := by
    intro u hu
    exact isSome_tagOf (huses u (List.mem_of_mem_filter hu))
  generalize uses.filter (·.required = required) = used at hdefined
  induction used with
  | nil => rfl
  | cons u used ih =>
    rw [List.forall_mem_cons] at hdefined
    obtain ⟨tag, htag⟩ := Option.isSome_iff_exists.mp hdefined.1
    have hkept : CompiledDictionary.nameToTag d.fields u.name = some tag :=
      (nameToTag_eq hnames u.name).trans htag
    rw [List.filterMap_cons, hkept]
    dsimp only
    rw [List.map_cons, List.map_cons, htag, ih hdefined.2]

theorem compileMessage_compiles (hnames : (d.fields.map (·.name)).Nodup) {m : MessageDef}
    (huses : ∀ u ∈ m.fields, u.name ∈ d.fields.map (·.name))
    : d.Compiles m
        (CompiledDictionary.compileMessage (CompiledDictionary.nameToTag d.fields) m m.fields) where
  name := rfl
  msgType := rfl
  category := by
    change CompiledDictionary.categoryOf m.msgcat = _ ↔ _
    unfold CompiledDictionary.categoryOf
    split
    . next h => simp [h]
    . next h => simp [h]
  required := by
    have hmap := map_tagsOf hnames huses true
    simp only [Bool.decide_eq_true] at hmap
    exact hmap
  optional := by
    have hmap := map_tagsOf hnames huses false
    simp only [Bool.decide_eq_false] at hmap
    exact hmap

theorem fromXml_layout (d : Dictionary) (hclean : d.Clean)
    (hnames : (d.fields.map (·.name)).Nodup)
    (huses : ∀ m ∈ d.messages, ∀ u ∈ m.fields, u.name ∈ d.fields.map (·.name)) (xml : Bytes)
    (hxml : Spaced (d.tags fun _ => false) xml)
    : ∃ dict, CompiledDictionary.fromXml xml = .ok dict
        ∧ dict.fixVersion = ascii "FIX." ++ d.major ++ ascii "." ++ d.minor
        ∧ dict.fields = d.fields ∧ List.Forall₂ d.Compiles d.messages dict.messages := by
  refine ⟨_, CompiledDictionary.fromXml_laidOut (hclean.laidOut (by simp)) hxml, rfl, rfl, ?_⟩
  dsimp only
  rw [CompiledDictionary.compileFrom_long (fun _ _ => rfl), List.forall₂_map_right_iff,
    List.forall₂_same]
  intro m hm
  exact compileMessage_compiles hnames (huses m hm)

def sample : Dictionary where
  major := ascii "4"
  minor := ascii "4"
  fields :=
    [⟨11, ascii "ClOrdID", ascii "STRING", []⟩,
      ⟨54, ascii "Side", ascii "CHAR", [(ascii "1", ascii "BUY"), (ascii "2", ascii "SELL")]⟩]
  messages :=
    [⟨ascii "Heartbeat", ascii "0", ascii "admin", []⟩,
      ⟨ascii "NewOrderSingle", ascii "D", ascii "app",
        [⟨ascii "ClOrdID", true⟩, ⟨ascii "Side", false⟩]⟩]

theorem clean_sample : sample.Clean := ⟨by decide, by decide, by decide⟩

theorem fromXml_layout_sample
    : ∃ dict, CompiledDictionary.fromXml (document (ascii "\n  ") (sample.tags fun _ => false))
          = .ok dict
        ∧ dict.fixVersion = ascii "FIX." ++ sample.major ++ ascii "." ++ sample.minor
        ∧ dict.fields = sample.fields
        ∧ List.Forall₂ sample.Compiles sample.messages dict.messages :=
  fromXml_layout sample clean_sample (by decide) (by decide) _ (spaced_document (by decide) _)

end Dictionary

end Velocitas
