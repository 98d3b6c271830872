import VelocitasFix.Dictionary.Lookup
import VelocitasFix.Dictionary.RoundTrip
import VelocitasFix.Serializer.Reading

/-!
This module contains the way of a message from the one who writes it to the validation by a compiled
dictionary: what is reported of the message that has arrived is what the document of the dictionary
says of the message that was written.
-/

namespace Velocitas

open Ascii Markup

-- The frame of a message carries its own fields.
def OutMessage.HasField (m : OutMessage) (tag : UInt32) : Prop :=
  tag ∈ [Tags.beginString, Tags.bodyLength, Tags.msgType, Tags.checksum]
    ∨ tag ∈ m.args.map FieldArg.tag

instance (m : OutMessage) (tag : UInt32) : Decidable (m.HasField tag) :=
  inferInstanceAs (Decidable (_ ∨ _))

theorem OutMessage.mem_tags_iff (m : OutMessage) (tag : UInt32)
    : tag ∈ m.entries.map Prod.fst ↔ m.HasField tag := by
  simp only [entries, HasField, List.map_append, List.map_cons, List.map_nil, List.map_map,
    List.mem_append, List.mem_cons, List.not_mem_nil, or_false]
  change (((tag = _ ∨ tag = _ ∨ tag = _) ∨ tag ∈ m.args.map FieldArg.tag) ∨ tag = _) ↔ _
  tauto

namespace Dictionary

-- The definitions of the fields that a message must carry. A name without one is passed over.
def requiredFields (d : Dictionary) (definition : MessageDef) : List CompiledFieldDef :=
  (definition.fields.filter (·.required)).filterMap fun u => d.fields.find? (·.name = u.name)

-- The texts say what the document finds wrong with a message.
structure Reports (d : Dictionary) (m : OutMessage) (texts : List Bytes) : Prop where
  unknown : m.msgType ∉ d.messages.map (·.msgType) →
    texts = [ascii "unknown message type: " ++ m.msgType]
  missing : ∀ definition ∈ d.messages, definition.msgType = m.msgType →
    texts = ((d.requiredFields definition).filter (¬ m.HasField ·.tag)).map fun f =>
      ascii "missing required field: " ++ f.name ++ ascii " (tag " ++ decimal f.tag.toNat ++ ascii ")"
  accepted_iff : texts = [] ↔ ∃ definition ∈ d.messages, definition.msgType = m.msgType
    ∧ ∀ u ∈ definition.fields, u.required = true →
      ∀ f ∈ d.fields, f.name = u.name → m.HasField f.tag

section Compiled

variable {d : Dictionary}

theorem mem_of_mem_requiredFields {definition : MessageDef} {f : CompiledFieldDef}
    (h : f ∈ d.requiredFields definition)
    : f ∈ d.fields := by
  obtain ⟨u, _, hfind⟩ := List.mem_filterMap.mp h
  exact List.mem_of_find?_eq_some hfind

theorem mem_requiredFields_iff (hnames : (d.fields.map (·.name)).Nodup) {definition : MessageDef}
    {f : CompiledFieldDef}
    : f ∈ d.requiredFields definition
        ↔ f ∈ d.fields ∧ ∃ u ∈ definition.fields, u.required = true ∧ f.name = u.name := by
  have hrow (u : FieldUse) : d.fields.find? (·.name = u.name) = some f
      ↔ f ∈ d.fields ∧ f.name = u.name := KeyedTable.row_eq_some_iff hnames
  simp only [requiredFields, List.mem_filterMap, List.mem_filter, hrow]
  tauto

theorem tagsOf_required (hnames : (d.fields.map (·.name)).Nodup) (definition : MessageDef)
    : CompiledDictionary.tagsOf (CompiledDictionary.nameToTag d.fields) true definition.fields
        = (d.requiredFields definition).map (·.tag) := by
  unfold CompiledDictionary.tagsOf requiredFields
  rw [List.map_filterMap]
  simp only [Bool.decide_eq_true]
  congr 1
  funext u
  exact nameToTag_eq hnames u.name

variable (d) in
-- What the compiler makes of the document.
def compiled : CompiledDictionary :=
  .indexed (ascii "FIX." ++ d.major ++ ascii "." ++ d.minor) d.fields
    (d.messages.map fun definition =>
      CompiledDictionary.compileMessage (CompiledDictionary.nameToTag d.fields) definition
        definition.fields)

theorem fromXml_compiled (hclean : d.Clean) {xml : Bytes}
    (hxml : Spaced (d.tags fun _ => false) xml)
    : CompiledDictionary.fromXml xml = .ok d.compiled := by
  have hlaid : d.LaidOut (fun _ => false) (d.tags fun _ => false) := hclean.laidOut (by simp)
  rw [CompiledDictionary.fromXml_laidOut hlaid hxml,
    CompiledDictionary.compileFrom_long (fun _ _ => rfl)]
  rfl

theorem lookupField_compiled (htags : (d.fields.map (·.tag)).Nodup) {f : CompiledFieldDef}
    (hf : f ∈ d.fields)
    : d.compiled.lookupField f.tag = some f := by
  rw [compiled, CompiledDictionary.lookupField_indexed, KeyedTable.row_reverse htags,
    KeyedTable.row_eq_some_iff htags]
  exact ⟨hf, rfl⟩

theorem lookupMessage_compiled (msgType : Bytes)
    : d.compiled.lookupMessage msgType
        = (d.messages.find? (·.msgType = msgType)).map fun definition =>
          CompiledDictionary.compileMessage (CompiledDictionary.nameToTag d.fields) definition
            definition.fields :=
  List.find?_map

variable (hnames : (d.fields.map (·.name)).Nodup) (htags : (d.fields.map (·.tag)).Nodup)

include hnames htags

-- Every name in a report is the name of the field that is missing.
theorem validateMessage_compiled {definition : MessageDef} {msgType : Bytes}
    (hfind : d.messages.find? (·.msgType = msgType) = some definition) (present : List UInt32)
    : d.compiled.validateMessage msgType present
        = ((d.requiredFields definition).filter (·.tag ∉ present)).map fun f =>
          ascii "missing required field: " ++ f.name ++ ascii " (tag " ++ decimal f.tag.toNat
            ++ ascii ")" := by
  rw [CompiledDictionary.validateMessage, lookupMessage_compiled, hfind, Option.map_some]
  dsimp only
  rw [CompiledDictionary.missingTags]
  change ((CompiledDictionary.tagsOf _ true definition.fields).filter _).map _ = _
  rw [tagsOf_required hnames, List.filter_map, List.map_map]
  have hkept : ((fun tag => !present.contains tag) ∘ fun f : CompiledFieldDef => f.tag)
      = fun f => decide (f.tag ∉ present) := by
    funext f
    simp
  rw [hkept]
  apply List.map_congr_left
  intro f hf
  have hfield := mem_of_mem_requiredFields (List.mem_of_mem_filter hf)
  change CompiledDictionary.missingField (d.compiled.lookupField f.tag) f.tag = _
  rw [lookupField_compiled htags hfield]
  rfl

theorem reports_validateMessage (htypes : (d.messages.map (·.msgType)).Nodup) {m : OutMessage}
    {present : List UInt32} (hpresent : ∀ tag, tag ∈ present ↔ m.HasField tag)
    : d.Reports m (d.compiled.validateMessage m.msgType present) := by
  have hmissing (definition : MessageDef) (hmem : definition ∈ d.messages)
      (htype : definition.msgType = m.msgType)
      : d.compiled.validateMessage m.msgType present
          = ((d.requiredFields definition).filter (¬ m.HasField ·.tag)).map fun f =>
            ascii "missing required field: " ++ f.name ++ ascii " (tag " ++ decimal f.tag.toNat
              ++ ascii ")" := by
    have hfind : d.messages.find? (·.msgType = m.msgType) = some definition :=
      (KeyedTable.row_eq_some_iff htypes).mpr ⟨hmem, htype⟩
    rw [validateMessage_compiled hnames htags hfind]
    congr 2
    funext f
    rw [decide_eq_decide, hpresent]
  have hunknown (hnot : m.msgType ∉ d.messages.map (·.msgType))
      : d.compiled.validateMessage m.msgType present
          = [ascii "unknown message type: " ++ m.msgType] := by
    have hfind : d.messages.find? (·.msgType = m.msgType) = none :=
      KeyedTable.row_eq_none_iff.mpr hnot
    rw [CompiledDictionary.validateMessage, lookupMessage_compiled, hfind]
    rfl
  refine ⟨hunknown, hmissing, ?_⟩
  constructor
  . intro hnil
    by_cases hmem : m.msgType ∈ d.messages.map (·.msgType)
    . obtain ⟨definition, hdef, htype⟩ := List.mem_map.mp hmem
      refine ⟨definition, hdef, htype, ?_⟩
      intro u hu hrequired f hf hname
      rw [hmissing definition hdef htype, List.map_eq_nil_iff, List.filter_eq_nil_iff] at hnil
      have hcarried := hnil f ((mem_requiredFields_iff hnames).mpr ⟨hf, u, hu, hrequired, hname⟩)
      simpa using hcarried
    . rw [hunknown hmem] at hnil
      contradiction
  . rintro ⟨definition, hdef, htype, hall⟩
    rw [hmissing definition hdef htype, List.map_eq_nil_iff, List.filter_eq_nil_iff]
    intro f hf
    obtain ⟨hfield, u, hu, hrequired, hname⟩ := (mem_requiredFields_iff hnames).mp hf
    simpa using hall u hu hrequired f hfield hname

end Compiled

-- An order without the identifier that the document requires.
def namelessOrder : OutMessage where
  beginString := ascii "FIX.4.4"
  msgType := ascii "D"
  args := [.str Tags.senderCompId (ascii "BUY"), .str Tags.targetCompId (ascii "SELL"),
    .u64 Tags.msgSeqNum 2, .str Tags.sendingTime (ascii "20240101-00:00:00"), .str 54 (ascii "1")]

theorem readable_namelessOrder : namelessOrder.Readable 2 := by
  apply OutMessage.Readable.of_args _ _ _ _ _ _ rfl
  . simp only [List.forall_mem_singleton]
    exact ⟨⟨by decide, by decide⟩, (by decide : (54 : UInt32) ≠ Tags.msgType),
      (by decide : (54 : UInt32) ≠ Tags.msgSeqNum)⟩
  . decide
  . decide
  . decide
  . decide
  . decide
  . decide
  . decide +kernel

end Dictionary

end Velocitas
