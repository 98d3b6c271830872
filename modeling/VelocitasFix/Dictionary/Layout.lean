import VelocitasFix.Data.Markup
import VelocitasFix.Dictionary.Impl

/-!
This module contains dictionaries and how they are written as XML, and what the loops of the compiler
find in a text that is laid out like this.
-/

namespace Velocitas

open Ascii Search Markup

-- A field that a message mentions.
structure FieldUse where
  name : Bytes
  required : Bool
  deriving DecidableEq, Repr

structure MessageDef where
  name : Bytes
  msgType : Bytes
  msgcat : Bytes
  fields : List FieldUse
  deriving DecidableEq, Repr

structure Dictionary where
  major : Bytes
  minor : Bytes
  fields : List CompiledFieldDef
  messages : List MessageDef
  deriving DecidableEq, Repr

def valueTag (v : Bytes × Bytes) : Tag :=
  .empty (ascii "value") [⟨ascii "enum", v.1⟩, ⟨ascii "description", v.2⟩]

namespace CompiledFieldDef

def attrs (f : CompiledFieldDef) : List Attr :=
  [⟨ascii "number", decimal f.tag.toNat⟩, ⟨ascii "name", f.name⟩, ⟨ascii "type", f.fieldType⟩]

-- A field without values is an empty element.
def tags (f : CompiledFieldDef) : List Tag :=
  if f.values.isEmpty then
    [.empty (ascii "field") f.attrs]
  else
    .opening (ascii "field") f.attrs :: (f.values.map valueTag ++ [.closing (ascii "field")])

end CompiledFieldDef

def FieldUse.tag (u : FieldUse) : Tag :=
  .empty (ascii "field")
    [⟨ascii "name", u.name⟩, ⟨ascii "required", if u.required then ascii "Y" else ascii "N"⟩]

namespace MessageDef

def attrs (m : MessageDef) : List Attr :=
  [⟨ascii "name", m.name⟩, ⟨ascii "msgtype", m.msgType⟩, ⟨ascii "msgcat", m.msgcat⟩]

-- The tags of a message: an empty element if it is written in the short form.
def tags (short : MessageDef → Bool) (m : MessageDef) : List Tag :=
  if short m then
    [.empty (ascii "message") m.attrs]
  else
    .opening (ascii "message") m.attrs
      :: (m.fields.map FieldUse.tag ++ [.closing (ascii "message")])

end MessageDef

namespace CompiledDictionary

section Attributes

variable {t t' : Tag}

theorem extractAttr_render (key : Bytes) {a : Attr} (h : t.Reorders t') (ht : t.WellFormed)
    (hkey : IsName key) (ha : t.attrs.filter (key <:+ ·.name) = [a])
    : extractAttr t'.render key = some a.value := by
  obtain ⟨i, rest, hfind, hdrop⟩ := h.find_key ht hkey ha
  have hmem : a ∈ t.attrs := List.mem_of_mem_filter (p := (key <:+ ·.name)) (by rw [ha]; simp)
  have hvalue : (34 : UInt8) ∉ a.value := (ht.2 a hmem).2.not_mem (by simp)
  have hlen : (key ++ ascii "=\"").length = key.length + 2 := by
    rw [List.length_append]
    rfl
  unfold extractAttr
  dsimp only
  rw [show find (key ++ ascii "=\"") t'.render = some i from hfind]
  dsimp only
  rw [hlen, hdrop]
  change Option.map _ (find [34] (a.value ++ 34 :: rest)) = _
  rw [find_singleton hvalue rest, Option.map_some, List.take_left]

end Attributes

theorem parseU32_decimal (n : UInt32) : parseU32 (decimal n.toNat) = some n := by
  have hdigits := allDigits_decimal n.toNat
  have hhead : (decimal n.toNat).head? ≠ some 43 := by
    intro h
    have hmem := List.mem_of_mem_head? h
    exact hdigits.not_mem (by decide) hmem
  unfold parseU32
  rw [if_neg hhead, if_pos ⟨decimal_ne_nil _, hdigits, by rw [value_decimal]; exact n.toNat_lt⟩,
    value_decimal]
  simp

theorem parseEnumValuesFrom_spaced {values : List (Bytes × Bytes)} {text : Bytes} {fuel : Nat}
    (h : Spaced (values.map valueTag) text) (hwf : ∀ t ∈ values.map valueTag, t.WellFormed)
    (hfuel : text.length ≤ fuel)
    : parseEnumValuesFrom fuel text = values := by
  induction values generalizing text fuel with
  | nil =>
    cases fuel with
    | zero => rfl
    | succ fuel =>
      have hnone := h.find_eq_none (m := .start (ascii "value")) (by decide) hwf (by simp)
      rw [parseEnumValuesFrom, show find (ascii "<value ") text = none from hnone]
  | cons v values ih =>
    have hspaced : Spaced ([] ++ valueTag v :: values.map valueTag) text := h
    obtain ⟨i, e, t', hfind, hend, _, htake, hreorders, hrest, hlt⟩ :=
      hspaced.find_empty hwf (by simp) (List.cons_ne_nil _ _)
    have ht : (valueTag v).WellFormed := hwf _ List.mem_cons_self
    have henum := extractAttr_render (ascii "enum") hreorders ht (by decide) rfl
    have hdesc := extractAttr_render (ascii "description") hreorders ht (by decide) rfl
    cases fuel with
    | zero => omega
    | succ fuel =>
      have hih := @ih _ fuel hrest (fun t ht => hwf t (List.mem_cons_of_mem _ ht)) (by omega)
      rw [parseEnumValuesFrom, show find (ascii "<value ") text = some i from hfind]
      dsimp only
      rw [show find (ascii "/>") (text.drop i) = some e from hend]
      dsimp only
      rw [htake, henum, hdesc, hih]

-- The tags of the required, or of the optional, fields that a message mentions.
def tagsOf (nameToTag : Bytes → Option UInt32) (required : Bool) (uses : List FieldUse)
    : List UInt32 :=
  (uses.filter (·.required = required)).filterMap (nameToTag ·.name)

theorem parseMessageFieldsFrom_spaced (nameToTag : Bytes → Option UInt32) {pre : List Tag}
    {uses : List FieldUse} {text : Bytes} {fuel : Nat}
    (h : Spaced (pre ++ uses.map FieldUse.tag) text)
    (hwf : ∀ t ∈ pre ++ uses.map FieldUse.tag, t.WellFormed)
    (hpre : ∀ t ∈ pre, (Mark.start (ascii "field")).marks t = false) (hfuel : text.length ≤ fuel)
    : parseMessageFieldsFrom nameToTag fuel text
        = (tagsOf nameToTag true uses, tagsOf nameToTag false uses) := by
  induction uses generalizing pre text fuel with
  | nil =>
    cases fuel with
    | zero => rfl
    | succ fuel =>
      rw [List.map_nil, List.append_nil] at h hwf
      have hnone := h.find_eq_none (by decide) hwf hpre
      rw [parseMessageFieldsFrom, show find (ascii "<field ") text = none from hnone]
      rfl
  | cons u uses ih =>
    obtain ⟨i, e, t', hfind, hend, _, htake, hreorders, hrest, hlt⟩ :=
      h.find_empty hwf hpre (List.cons_ne_nil _ _)
    rw [List.forall_mem_append, List.map_cons, List.forall_mem_cons] at hwf
    have hname := extractAttr_render (ascii "name") hreorders hwf.2.1 (by decide) rfl
    have hrequired := extractAttr_render (ascii "required") hreorders hwf.2.1 (by decide) rfl
    cases fuel with
    | zero => omega
    | succ fuel =>
      have hih := @ih [] _ fuel hrest hwf.2.2 (by simp) (by omega)
      rw [parseMessageFieldsFrom, show find (ascii "<field ") text = some i from hfind]
      dsimp only
      rw [show find (ascii "/>") (text.drop i) = some e from hend]
      dsimp only
      rw [htake, hname, hrequired, hih, Option.bind_some]
      unfold tagsOf
      cases htag : nameToTag u.name with
      | none =>
        cases hu : u.required with
        | true => simp [hu, htag]
        | false => simp [hu, htag]
      | some tag =>
        cases hu : u.required with
        | true => simp [hu, htag]
        | false => simp [hu, htag, show ascii "N" ≠ ascii "Y" by decide]

-- The text between the first tag and the closing one.
theorem range_element (t : Tag) (rest : Bytes) (j : Nat)
    : range (t.render ++ rest) (t.head.length + 1) (t.render.length + j) = .ok (rest.take j) := by
  rw [range, ← Tag.length_render, if_neg (by omega), slice, List.drop_left,
    Nat.add_sub_cancel_left]

theorem parseField_render {f : CompiledFieldDef} {t t' : Tag} (h : t.Reorders t')
    (ht : t.WellFormed) (hattrs : t.attrs = f.attrs)
    : parseField t'.render f.values = .ok f := by
  have hnumber := extractAttr_render (ascii "number") h ht (by decide)
    (by rw [hattrs]; rfl)
  have hname := extractAttr_render (ascii "name") h ht (by decide) (by rw [hattrs]; rfl)
  have htype := extractAttr_render (ascii "type") h ht (by decide) (by rw [hattrs]; rfl)
  unfold parseField
  rw [hnumber, hname, htype]
  dsimp only [okOr, bind, Except.bind]
  rw [parseU32_decimal]
  rfl

section FieldsSection

variable {pre later : List Tag} {text : Bytes}

-- The first field of the text is read, and the text that is left is shorter and holds the later tags.
def ReadsField (f : CompiledFieldDef) (later : List Tag) (text : Bytes) : Prop :=
  ∃ behind, Spaced later behind ∧ behind.length < text.length
    ∧ ∀ fuel, parseFieldsFrom (fuel + 1) text = do
      let fields ← parseFieldsFrom fuel behind
      return f :: fields

theorem readsField_empty {f : CompiledFieldDef} (hvalues : f.values = [])
    (h : Spaced (pre ++ .empty (ascii "field") f.attrs :: later) text)
    (hwf : ∀ t ∈ pre ++ .empty (ascii "field") f.attrs :: later, t.WellFormed)
    (hpre : ∀ t ∈ pre, (Mark.start (ascii "field")).marks t = false)
    : ReadsField f later text := by
  obtain ⟨i, e, t', hfind, hend, hbracket, htake, hreorders, hspaced, hlt⟩ :=
    Spaced.find_empty h hwf hpre (List.cons_ne_nil _ _)
  have ht : (Tag.empty (ascii "field") f.attrs).WellFormed := hwf _ (by simp)
  have hfield := parseField_render hreorders ht rfl
  rw [hvalues] at hfield
  refine ⟨_, hspaced, hlt, ?_⟩
  intro fuel
  rw [parseFieldsFrom, show find (ascii "<field ") text = some i from hfind]
  dsimp only
  rw [show find (ascii "/>") (text.drop i) = some e from hend,
    show find (ascii ">") (text.drop i) = some (e + 1) from hbracket]
  dsimp only
  rw [Option.filter_some, if_pos (by simp)]
  dsimp only
  rw [htake, hfield]
  rfl

-- The bracket that closes the opening tag stands before the first slash of an empty one.
theorem find_slash_filter {attrs : List Attr} {t' : Tag}
    (hreorders : (Tag.opening (ascii "field") attrs).Reorders t') (ht' : t'.WellFormed)
    (rest : Bytes)
    : (find (ascii "/>") (t'.render ++ rest)).filter (· < t'.head.length) = none := by
  cases hreorders with
  | @opening _ _ attrs' _ =>
    have hskip := Tag.find_slash_opening ht' rest
    rw [show find (ascii "/>") _ = _ from hskip, Option.filter_eq_none_iff]
    intro n hn
    obtain ⟨k, _, hk⟩ := Option.map_eq_some_iff.mp hn
    rw [Tag.length_render] at hk
    simp only [decide_eq_true_eq]
    omega

theorem readsField_element {f : CompiledFieldDef}
    (h : Spaced (pre ++ .opening (ascii "field") f.attrs
      :: (f.values.map valueTag ++ .closing (ascii "field") :: later)) text)
    (hwf : ∀ t ∈ pre ++ .opening (ascii "field") f.attrs
      :: (f.values.map valueTag ++ .closing (ascii "field") :: later), t.WellFormed)
    (hpre : ∀ t ∈ pre, (Mark.start (ascii "field")).marks t = false)
    : ReadsField f later text := by
  have ht : (Tag.opening (ascii "field") f.attrs).WellFormed := hwf _ (by simp)
  have hother : ∀ u ∈ Tag.opening (ascii "field") f.attrs :: f.values.map valueTag,
      (Mark.closing (ascii "field")).marks u = false := by
    rw [List.forall_mem_cons, List.forall_mem_map]
    exact ⟨rfl, fun _ _ => rfl⟩
  obtain ⟨i, j, t', rest, hfind, hdrop, hreorders, hclose, hinner, hspaced, hlt⟩ :=
    h.exists_element (m := .start (ascii "field")) (by decide) hwf hpre rfl hother
  have ht' := hreorders.wellFormed ht
  have hfield := parseField_render hreorders ht rfl
  have hvaluesWf : ∀ u ∈ f.values.map valueTag, u.WellFormed := by
    intro u hu
    apply hwf
    simp only [List.mem_append, List.mem_cons]
    exact .inr (.inr (.inl hu))
  have hbody := parseEnumValuesFrom_spaced hinner hvaluesWf (Nat.le_refl _)
  have hslash := find_slash_filter hreorders ht' rest
  refine ⟨_, hspaced, ?_, ?_⟩
  . rw [List.length_drop]
    omega
  . intro fuel
    rw [parseFieldsFrom, show find (ascii "<field ") text = some i from hfind]
    dsimp only
    rw [hdrop, show find (ascii ">") (t'.render ++ rest) = _ from Tag.find_bracket ht' rest]
    dsimp only
    rw [hslash]
    dsimp only
    rw [show find (ascii "</field>") (t'.render ++ rest) = _ from hclose]
    dsimp only
    have hbehind : (t'.render ++ rest).drop (t'.render.length + j + (ascii "</field>").length)
        = rest.drop (j + (Mark.closing (ascii "field")).render.length) := by
      rw [Nat.add_assoc, ← List.drop_drop, List.drop_left]
      rfl
    rw [range_element, ← Tag.length_render, List.take_left, hbehind]
    dsimp only [bind, Except.bind]
    rw [parseEnumValues, hbody, hfield]

theorem readsField {f : CompiledFieldDef} (h : Spaced (pre ++ (f.tags ++ later)) text)
    (hwf : ∀ t ∈ pre ++ (f.tags ++ later), t.WellFormed)
    (hpre : ∀ t ∈ pre, (Mark.start (ascii "field")).marks t = false)
    : ReadsField f later text := by
  cases hvalues : f.values.isEmpty with
  | true =>
    have htags : f.tags = [.empty (ascii "field") f.attrs] := by
      rw [CompiledFieldDef.tags, if_pos hvalues]
    rw [htags] at h hwf
    exact readsField_empty (List.isEmpty_iff.mp hvalues) h hwf hpre
  | false =>
    have htags : f.tags = .opening (ascii "field") f.attrs
        :: (f.values.map valueTag ++ [.closing (ascii "field")]) := by
      rw [CompiledFieldDef.tags, if_neg (by rw [hvalues]; simp)]
    rw [htags, List.cons_append, List.append_assoc, List.singleton_append] at h hwf
    exact readsField_element h hwf hpre

end FieldsSection

theorem parseFieldsFrom_spaced {pre : List Tag} {fields : List CompiledFieldDef} {text : Bytes}
    {fuel : Nat} (h : Spaced (pre ++ fields.flatMap (·.tags)) text)
    (hwf : ∀ t ∈ pre ++ fields.flatMap (·.tags), t.WellFormed)
    (hpre : ∀ t ∈ pre, (Mark.start (ascii "field")).marks t = false) (hfuel : text.length ≤ fuel)
    : parseFieldsFrom fuel text = .ok fields := by
  induction fields generalizing pre text fuel with
  | nil =>
    cases fuel with
    | zero => rfl
    | succ fuel =>
      rw [List.flatMap_nil, List.append_nil] at h hwf
      have hnone := h.find_eq_none (by decide) hwf hpre
      rw [parseFieldsFrom, show find (ascii "<field ") text = none from hnone]
  | cons f fields ih =>
    rw [List.flatMap_cons] at h hwf
    have hrest : ∀ t ∈ fields.flatMap (·.tags), t.WellFormed := by
      intro t ht
      apply hwf
      simp only [List.mem_append]
      exact .inr (.inr ht)
    obtain ⟨behind, hspaced, hlt, hreads⟩ := readsField h hwf hpre
    cases fuel with
    | zero => exact absurd hlt (by omega)
    | succ fuel =>
      rw [hreads, @ih [] behind fuel hspaced hrest (by simp) (by omega)]
      rfl

-- A message element with the header of one message and the fields of, possibly, another one.
def compileMessage (nameToTag : Bytes → Option UInt32) (m : MessageDef) (uses : List FieldUse)
    : CompiledMessageDef where
  msgType := m.msgType
  name := m.name
  category := categoryOf m.msgcat
  requiredFields := tagsOf nameToTag true uses
  optionalFields := tagsOf nameToTag false uses

-- The header is that of the first message behind the last closing tag.
def compileFrom (nameToTag : Bytes → Option UInt32) (short : MessageDef → Bool)
    : Option MessageDef → List MessageDef → List CompiledMessageDef
  | _, [] => []
  | header, m :: messages =>
    if short m then
      compileFrom nameToTag short (some (header.getD m)) messages
    else
      compileMessage nameToTag (header.getD m) m.fields :: compileFrom nameToTag short none messages

section Messages

variable {nameToTag : Bytes → Option UInt32} {short : MessageDef → Bool}
  {messages shorts : List MessageDef}

theorem compileFrom_shorts (h : ∀ m ∈ shorts, short m = true) (header : MessageDef)
    : compileFrom nameToTag short (some header) (shorts ++ messages)
        = compileFrom nameToTag short (some header) messages := by
  induction shorts with
  | nil => rfl
  | cons m shorts ih =>
    rw [List.forall_mem_cons] at h
    rw [List.cons_append, compileFrom, if_pos h.1]
    exact ih h.2

-- Each closing tag ends one message.
theorem length_compileFrom (header : Option MessageDef) (messages : List MessageDef)
    : (compileFrom nameToTag short header messages).length = messages.countP (!short ·) := by
  induction messages generalizing header with
  | nil => rfl
  | cons m messages ih =>
    cases hm : short m with
    | true => rw [compileFrom, if_pos hm, ih, List.countP_cons_of_neg (by simp [hm])]
    | false =>
      rw [compileFrom, if_neg (by simp [hm]), List.length_cons, ih,
        List.countP_cons_of_pos (by simp [hm])]

-- Without a message in the short form each one keeps its own fields.
theorem compileFrom_long (h : ∀ m ∈ messages, short m = false)
    : compileFrom nameToTag short none messages
        = messages.map fun m => compileMessage nameToTag m m.fields := by
  induction messages with
  | nil => rfl
  | cons m messages ih =>
    rw [List.forall_mem_cons] at h
    rw [compileFrom, if_neg (by simp [h.1]), ih h.2]
    rfl

theorem flatMap_tags_shorts (h : ∀ m ∈ shorts, short m = true)
    : shorts.flatMap (MessageDef.tags short)
        = shorts.map fun m => .empty (ascii "message") m.attrs := by
  induction shorts with
  | nil => rfl
  | cons m shorts ih =>
    rw [List.forall_mem_cons] at h
    rw [List.flatMap_cons, MessageDef.tags, if_pos h.1, ih h.2]
    rfl

-- Up to the first message that is not in the short form.
theorem shorts_or_split (short : MessageDef → Bool) (messages : List MessageDef)
    : (∀ m ∈ messages, short m = true)
        ∨ ∃ shorts m rest, messages = shorts ++ m :: rest ∧ (∀ m ∈ shorts, short m = true)
          ∧ short m = false := by
  cases hfind : messages.find? (fun m => !short m) with
  | none =>
    left
    simpa using hfind
  | some m =>
    right
    obtain ⟨hm, shorts, rest, hsplit, hshorts⟩ := List.find?_eq_some_iff_append.mp hfind
    exact ⟨shorts, m, rest, hsplit, by simpa using hshorts, by simpa using hm⟩

-- One round of the loop: the header, and the fields up to the next closing tag.
theorem parseMessagesFrom_element (nameToTag : Bytes → Option UInt32)
    {pre inner post : List Tag} {t : Tag} {m : MessageDef} {uses : List FieldUse} {text : Bytes}
    (h : Spaced (pre ++ t :: ((inner ++ uses.map FieldUse.tag) ++ .closing (ascii "message") :: post))
      text)
    (hwf : ∀ u ∈ pre ++ t :: ((inner ++ uses.map FieldUse.tag)
      ++ .closing (ascii "message") :: post), u.WellFormed)
    (hpre : ∀ u ∈ pre, (Mark.start (ascii "message")).marks u = false)
    (ht : (Mark.start (ascii "message")).marks t = true) (hattrs : t.attrs = m.attrs)
    (hclosing : ∀ u ∈ t :: inner, (Mark.closing (ascii "message")).marks u = false)
    (hfields : ∀ u ∈ inner, (Mark.start (ascii "field")).marks u = false) (fuel : Nat)
    : ∃ rest, Spaced post rest ∧ rest.length < text.length
        ∧ parseMessagesFrom nameToTag (fuel + 1) text = (do
          let messages ← parseMessagesFrom nameToTag fuel rest
          return compileMessage nameToTag m uses :: messages) := by
  have hclosing' : ∀ u ∈ t :: (inner ++ uses.map FieldUse.tag),
      (Mark.closing (ascii "message")).marks u = false := by
    rw [List.forall_mem_cons] at hclosing
    rw [List.forall_mem_cons, List.forall_mem_append, List.forall_mem_map]
    exact ⟨hclosing.1, hclosing.2, fun _ _ => rfl⟩
  obtain ⟨i, j, t', rest, hfind, hdrop, hreorders, hclose, hinner, hspaced, hlt⟩ :=
    h.exists_element (m := .start (ascii "message")) (by decide) hwf hpre ht hclosing'
  rw [List.forall_mem_append, List.forall_mem_cons, List.forall_mem_append] at hwf
  have htWf := hwf.2.1
  have hname := extractAttr_render (ascii "name") hreorders htWf (by decide)
    (by rw [hattrs]; rfl)
  have htype := extractAttr_render (ascii "msgtype") hreorders htWf (by decide)
    (by rw [hattrs]; rfl)
  have hcat := extractAttr_render (ascii "msgcat") hreorders htWf (by decide)
    (by rw [hattrs]; rfl)
  have hbody := parseMessageFieldsFrom_spaced nameToTag hinner hwf.2.2.1 hfields (Nat.le_refl _)
  refine ⟨_, hspaced, ?_, ?_⟩
  . rw [List.length_drop]
    omega
  . have hbehind : (t'.render ++ rest).drop (t'.render.length + j + (ascii "</message>").length)
        = rest.drop (j + (Mark.closing (ascii "message")).render.length) := by
      rw [Nat.add_assoc, ← List.drop_drop, List.drop_left]
      rfl
    have hbracket := Tag.find_bracket (hreorders.wellFormed htWf) rest
    rw [parseMessagesFrom, show find (ascii "<message ") text = some i from hfind]
    dsimp only
    rw [hdrop, show find (ascii ">") (t'.render ++ rest) = _ from hbracket]
    dsimp only
    rw [show find (ascii "</message>") (t'.render ++ rest) = _ from hclose]
    dsimp only
    rw [hbehind, range_element, ← Tag.length_render, List.take_left, hname, htype, hcat]
    dsimp only [okOr, bind, Except.bind]
    rw [hbody]
    rfl

-- Without a closing tag there is no message.
theorem parseMessagesFrom_shorts {pre : List Tag} {text : Bytes}
    (h : Spaced (pre ++ shorts.flatMap (MessageDef.tags short)) text)
    (hwf : ∀ t ∈ pre ++ shorts.flatMap (MessageDef.tags short), t.WellFormed)
    (hpre : ∀ t ∈ pre, (Mark.start (ascii "message")).marks t = false)
    (hshorts : ∀ m ∈ shorts, short m = true) (fuel : Nat)
    : parseMessagesFrom nameToTag fuel text = .ok [] := by
  cases fuel with
  | zero => rfl
  | succ fuel =>
    cases shorts with
    | nil =>
      rw [List.flatMap_nil, List.append_nil] at h hwf
      have hnone := h.find_eq_none (by decide) hwf hpre
      rw [parseMessagesFrom, show find (ascii "<message ") text = none from hnone]
    | cons m shorts =>
      rw [flatMap_tags_shorts hshorts, List.map_cons] at h hwf
      obtain ⟨i, t', rest, hfind, _, hdrop, hreorders, hspaced⟩ :=
        h.exists_find (m := .start (ascii "message")) (by decide) hwf hpre rfl
      rw [List.forall_mem_append, List.forall_mem_cons] at hwf
      have htWf := hwf.2.1
      have hname := extractAttr_render (ascii "name") hreorders htWf (by decide) rfl
      have htype := extractAttr_render (ascii "msgtype") hreorders htWf (by decide) rfl
      have hcat := extractAttr_render (ascii "msgcat") hreorders htWf (by decide) rfl
      have hbracket := Tag.find_bracket (hreorders.wellFormed htWf) rest
      have hnone := hspaced.find_eq_none (m := .closing (ascii "message")) (by decide) hwf.2.2 (by
        rw [List.forall_mem_map]
        exact fun _ _ => rfl)
      have hclose := Mark.find_other (m := .closing (ascii "message")) (by decide)
        (hreorders.wellFormed htWf) (hreorders.marks_eq _) rest
      rw [hnone, Option.map_none] at hclose
      rw [parseMessagesFrom, show find (ascii "<message ") text = some i from hfind]
      dsimp only
      rw [hdrop, show find (ascii ">") (t'.render ++ rest) = _ from hbracket]
      dsimp only
      rw [show find (ascii "</message>") (t'.render ++ rest) = _ from hclose,
        ← Tag.length_render, List.take_left, hname, htype, hcat]
      rfl

-- The first closing tag belongs to the first message that is not in the short form; the tags in front
-- of it are those of the messages up to this one, and of its fields.
theorem exists_element {m : MessageDef} (hshorts : ∀ m ∈ shorts, short m = true)
    (hm : short m = false) (messages : List MessageDef)
    : ∃ t inner,
        (shorts ++ m :: messages).flatMap (MessageDef.tags short)
            = t :: ((inner ++ m.fields.map FieldUse.tag)
              ++ .closing (ascii "message") :: messages.flatMap (MessageDef.tags short))
          ∧ (Mark.start (ascii "message")).marks t = true ∧ t.attrs = (shorts.head?.getD m).attrs
          ∧ (∀ u ∈ t :: inner, (Mark.closing (ascii "message")).marks u = false)
          ∧ ∀ u ∈ inner, (Mark.start (ascii "field")).marks u = false := by
  have htags : MessageDef.tags short m = .opening (ascii "message") m.attrs
      :: (m.fields.map FieldUse.tag ++ [.closing (ascii "message")]) := by
    rw [MessageDef.tags, if_neg (by simp [hm])]
  rw [List.flatMap_append, List.flatMap_cons, flatMap_tags_shorts hshorts, htags]
  cases shorts with
  | nil =>
    refine ⟨.opening (ascii "message") m.attrs, [], by simp, rfl, rfl, ?_, nofun⟩
    rw [List.forall_mem_singleton]
    rfl
  | cons s shorts =>
    refine ⟨.empty (ascii "message") s.attrs,
      shorts.map (fun m => .empty (ascii "message") m.attrs) ++ [.opening (ascii "message") m.attrs],
      by simp, rfl, rfl, ?_, ?_⟩
    . rw [List.forall_mem_cons, List.forall_mem_append, List.forall_mem_map,
        List.forall_mem_singleton]
      exact ⟨rfl, fun _ _ => rfl, rfl⟩
    . rw [List.forall_mem_append, List.forall_mem_map, List.forall_mem_singleton]
      exact ⟨fun _ _ => rfl, rfl⟩

theorem compileFrom_split {m : MessageDef} (hshorts : ∀ m ∈ shorts, short m = true)
    (hm : short m = false)
    : compileFrom nameToTag short none (shorts ++ m :: messages)
        = compileMessage nameToTag (shorts.head?.getD m) m.fields
          :: compileFrom nameToTag short none messages := by
  cases shorts with
  | nil =>
    rw [List.nil_append, compileFrom, if_neg (by simp [hm])]
    rfl
  | cons s shorts =>
    rw [List.forall_mem_cons] at hshorts
    rw [List.cons_append, compileFrom, if_pos hshorts.1, Option.getD_none,
      compileFrom_shorts hshorts.2, compileFrom, if_neg (by simp [hm])]
    rfl

theorem parseMessagesFrom_spaced (nameToTag : Bytes → Option UInt32) {pre : List Tag}
    {text : Bytes} {fuel : Nat}
    (h : Spaced (pre ++ messages.flatMap (MessageDef.tags short)) text)
    (hwf : ∀ t ∈ pre ++ messages.flatMap (MessageDef.tags short), t.WellFormed)
    (hpre : ∀ t ∈ pre, (Mark.start (ascii "message")).marks t = false) (hfuel : text.length ≤ fuel)
    : parseMessagesFrom nameToTag fuel text
        = .ok (compileFrom nameToTag short none messages) := by
  induction fuel generalizing messages text pre with
  | zero =>
    cases messages with
    | nil => rfl
    | cons m messages =>
      have hpos : 0 < text.length := by
        rw [List.flatMap_cons, MessageDef.tags] at h
        split at h
        . exact h.length_pos
        . exact h.length_pos
      omega
  | succ fuel ih =>
    cases shorts_or_split short messages with
    | inl hshorts =>
      rw [parseMessagesFrom_shorts h hwf hpre hshorts]
      cases messages with
      | nil => rfl
      | cons m messages =>
        rw [List.forall_mem_cons] at hshorts
        have hnil : compileFrom nameToTag short (some m) (messages ++ []) = [] :=
          compileFrom_shorts hshorts.2 m
        rw [List.append_nil] at hnil
        rw [compileFrom, if_pos hshorts.1, Option.getD_none, hnil]
    | inr hsplit =>
      obtain ⟨shorts, m, rest, rfl, hshorts, hm⟩ := hsplit
      obtain ⟨t, inner, htags, ht, hattrs, hclosing, hfields⟩ :=
        exists_element hshorts hm rest
      rw [htags] at h hwf
      obtain ⟨text', hspaced, hlt, heq⟩ := parseMessagesFrom_element nameToTag h hwf
        hpre ht hattrs hclosing hfields fuel
      have hrest : ∀ t ∈ [] ++ rest.flatMap (MessageDef.tags short), t.WellFormed := by
        intro t ht
        apply hwf
        simp only [List.nil_append, List.mem_append, List.mem_cons] at ht ⊢
        exact .inr (.inr (.inr (.inr ht)))
      rw [heq, @ih _ [] _ hspaced hrest nofun (by omega), compileFrom_split hshorts hm]
      rfl

end Messages

end CompiledDictionary

end Velocitas
