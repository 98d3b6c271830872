import VelocitasFix.Data.Search
import VelocitasFix.Data.Slice
import VelocitasFix.Tags

/-!
This module contains the dictionary compiler. Strings are sequences of UTF-8 bytes; each loop over a
text takes the part of it that is left, and its length as the number of rounds.
-/

namespace Velocitas

open Ascii Search

structure CompiledFieldDef where
  tag : UInt32
  name : Bytes
  fieldType : Bytes
  values : List (Bytes × Bytes)
  deriving DecidableEq, Repr

inductive MessageCategory where
  | admin
  | application
  deriving DecidableEq, Repr

structure CompiledMessageDef where
  msgType : Bytes
  name : Bytes
  category : MessageCategory
  requiredFields : List UInt32
  optionalFields : List UInt32
  deriving DecidableEq, Repr

inductive DictError where
  | parseError (text : Bytes)
  | missingAttribute (text : Bytes)
  | invalidFormat (text : Bytes)
  deriving DecidableEq, Repr

-- A slice that ends before it starts is a panic.
inductive DictHalt where
  | error (e : DictError)
  | panic
  deriving DecidableEq, Repr

structure CompiledDictionary where
  fixVersion : Bytes
  fields : List CompiledFieldDef
  messages : List CompiledMessageDef
  tagIndex : List (Option Nat)
  deriving DecidableEq, Repr

namespace CompiledDictionary

def extractAttr (tagStr attrName : Bytes) : Option Bytes :=
  let pattern := attrName ++ ascii "=\""
  match find pattern tagStr with
  | none => none
  | some start =>
    let rest := tagStr.drop (start + pattern.length)
    (find (ascii "\"") rest).map rest.take

def okOr {α : Type} (x : Option α) (e : DictError) : Except DictHalt α :=
  match x with
  | some a => .ok a
  | none => .error (.error e)

-- `str::parse` for a `u32`: digits, with an optional plus sign in front.
def parseU32 (s : Bytes) : Option UInt32 :=
  let digits := if s.head? = some 43 then s.tail else s
  if digits ≠ [] ∧ AllDigits digits ∧ value digits < 2 ^ 32 then
    some (UInt32.ofNat (value digits))
  else
    none

-- The range `start..stop` of a text.
def range (text : Bytes) (start stop : Nat) : Except DictHalt Bytes :=
  if stop < start then .error .panic else .ok (slice text start (stop - start))

def parseVersion (xml : Bytes) : Except DictHalt Bytes := do
  let fixStart ← okOr (find (ascii "<fix ") xml) (.parseError (ascii "no <fix> tag found"))
  let text := xml.drop fixStart
  let fixEnd ← okOr (find (ascii ">") text) (.parseError (ascii "unclosed <fix> tag"))
  let fixTag := text.take (fixEnd + 1)
  let major ← okOr (extractAttr fixTag (ascii "major")) (.missingAttribute (ascii "major"))
  let minor ← okOr (extractAttr fixTag (ascii "minor")) (.missingAttribute (ascii "minor"))
  return ascii "FIX." ++ major ++ ascii "." ++ minor

def parseEnumValuesFrom : Nat → Bytes → List (Bytes × Bytes)
  | 0, _ => []
  | fuel + 1, body =>
    match find (ascii "<value ") body with
    | none => []
    | some tagStart =>
      let text := body.drop tagStart
      match find (ascii "/>") text with
      | none => []
      | some e =>
        let tagStr := text.take (e + 2)
        let values := parseEnumValuesFrom fuel (text.drop (e + 2))
        match extractAttr tagStr (ascii "enum"), extractAttr tagStr (ascii "description") with
        | some enumVal, some desc => (enumVal, desc) :: values
        | _, _ => values

def parseEnumValues (body : Bytes) : List (Bytes × Bytes) := parseEnumValuesFrom body.length body

def parseField (tagStr : Bytes) (values : List (Bytes × Bytes))
    : Except DictHalt CompiledFieldDef := do
  let numberStr ← okOr (extractAttr tagStr (ascii "number"))
    (.missingAttribute (ascii "field number"))
  let tag ← okOr (parseU32 numberStr)
    (.invalidFormat (ascii "invalid field number: " ++ numberStr))
  let name ← okOr (extractAttr tagStr (ascii "name")) (.missingAttribute (ascii "field name"))
  let fieldType ← okOr (extractAttr tagStr (ascii "type")) (.missingAttribute (ascii "field type"))
  return { tag, name, fieldType, values }

def parseFieldsFrom : Nat → Bytes → Except DictHalt (List CompiledFieldDef)
  | 0, _ => .ok []
  | fuel + 1, text =>
    match find (ascii "<field ") text with
    | none => .ok []
    | some tagStart =>
      let afterTag := text.drop tagStart
      match find (ascii "/>") afterTag, find (ascii ">") afterTag with
      | _, none => .ok []
      | selfClose, some openClose =>
        match selfClose.filter (· < openClose) with
        | some selfClose => do
          let field ← parseField (afterTag.take (selfClose + 2)) []
          let fields ← parseFieldsFrom fuel (afterTag.drop (selfClose + 2))
          return field :: fields
        | none =>
          match find (ascii "</field>") afterTag with
          | none => parseFieldsFrom fuel (afterTag.drop (openClose + 1))
          | some closeTag => do
            let body ← range afterTag (openClose + 1) closeTag
            let field ← parseField (afterTag.take (openClose + 1)) (parseEnumValues body)
            let fields ← parseFieldsFrom fuel (afterTag.drop (closeTag + (ascii "</field>").length))
            return field :: fields

def parseFields (xml : Bytes) : Except DictHalt (List CompiledFieldDef) :=
  match find (ascii "<fields>") xml with
  | none => .ok []
  | some fieldsStart => do
    let text := xml.drop fieldsStart
    let fieldsEnd ← okOr (find (ascii "</fields>") text)
      (.parseError (ascii "unclosed <fields> section"))
    parseFieldsFrom fieldsEnd (text.take fieldsEnd)

-- The tags of the required and of the optional fields; a name without a tag is passed over.
def parseMessageFieldsFrom (nameToTag : Bytes → Option UInt32)
    : Nat → Bytes → List UInt32 × List UInt32
  | 0, _ => ([], [])
  | fuel + 1, msgBody =>
    match find (ascii "<field ") msgBody with
    | none => ([], [])
    | some fieldStart =>
      let text := msgBody.drop fieldStart
      match find (ascii "/>") text with
      | none => ([], [])
      | some e =>
        let fieldTag := text.take (e + 2)
        let (requiredFields, optionalFields) :=
          parseMessageFieldsFrom nameToTag fuel (text.drop (e + 2))
        match (extractAttr fieldTag (ascii "name")).bind nameToTag with
        | none => (requiredFields, optionalFields)
        | some tag =>
          if extractAttr fieldTag (ascii "required") = some (ascii "Y") then
            (tag :: requiredFields, optionalFields)
          else
            (requiredFields, tag :: optionalFields)

def categoryOf (msgcat : Bytes) : MessageCategory :=
  if msgcat = ascii "admin" then .admin else .application

def parseMessagesFrom (nameToTag : Bytes → Option UInt32)
    : Nat → Bytes → Except DictHalt (List CompiledMessageDef)
  | 0, _ => .ok []
  | fuel + 1, msgs =>
    match find (ascii "<message ") msgs with
    | none => .ok []
    | some msgStart =>
      let text := msgs.drop msgStart
      match find (ascii ">") text with
      | none => .ok []
      | some headerEnd => do
        let msgTag := text.take (headerEnd + 1)
        let name ← okOr (extractAttr msgTag (ascii "name"))
          (.missingAttribute (ascii "message name"))
        let msgType ← okOr (extractAttr msgTag (ascii "msgtype"))
          (.missingAttribute (ascii "message msgtype"))
        let msgcat ← okOr (extractAttr msgTag (ascii "msgcat"))
          (.missingAttribute (ascii "message msgcat"))
        match find (ascii "</message>") text with
        | none => return []
        | some msgClose =>
          let msgBody ← range text (headerEnd + 1) msgClose
          let (requiredFields, optionalFields) :=
            parseMessageFieldsFrom nameToTag msgBody.length msgBody
          let messages ← parseMessagesFrom nameToTag fuel
            (text.drop (msgClose + (ascii "</message>").length))
          return { msgType, name, category := categoryOf msgcat, requiredFields, optionalFields }
            :: messages

def parseMessages (xml : Bytes) (nameToTag : Bytes → Option UInt32)
    : Except DictHalt (List CompiledMessageDef) :=
  match find (ascii "<messages>") xml with
  | none => .ok []
  | some msgsStart => do
    let text := xml.drop msgsStart
    let msgsEnd ← okOr (find (ascii "</messages>") text)
      (.parseError (ascii "unclosed <messages> section"))
    parseMessagesFrom nameToTag msgsEnd (text.take msgsEnd)

def buildTagIndex (fields : List CompiledFieldDef) : List (Option Nat) :=
  let maxTag := (fields.map (·.tag.toNat)).max?.getD 0
  let index : List (Option Nat) := List.replicate (maxTag + 1) none
  fields.zipIdx.foldl (fun index (field, i) => index.set field.tag.toNat (some i)) index

-- The table of `from_xml`: of two fields with the same name it keeps the later one.
def nameToTag (fields : List CompiledFieldDef) (name : Bytes) : Option UInt32 :=
  (fields.reverse.find? (·.name = name)).map (·.tag)

def fromXml (xml : Bytes) : Except DictHalt CompiledDictionary := do
  let fixVersion ← parseVersion xml
  let fields ← parseFields xml
  let messages ← parseMessages xml (nameToTag fields)
  return { fixVersion, fields, messages, tagIndex := buildTagIndex fields }

def lookupField (d : CompiledDictionary) (tag : UInt32) : Option CompiledFieldDef :=
  if tag.toNat < d.tagIndex.length then
    (d.tagIndex.getD tag.toNat none).bind (d.fields[·]?)
  else
    none

def lookupMessage (d : CompiledDictionary) (msgType : Bytes) : Option CompiledMessageDef :=
  d.messages.find? (·.msgType = msgType)

def missingField (field : Option CompiledFieldDef) (tag : UInt32) : Bytes :=
  let name := field.elim (ascii "Unknown") (·.name)
  ascii "missing required field: " ++ name ++ ascii " (tag " ++ decimal tag.toNat ++ ascii ")"

def unknownMessage (msgType : Bytes) : Bytes := ascii "unknown message type: " ++ msgType

-- The required tags of a message that are not present.
def missingTags (msg : CompiledMessageDef) (presentTags : List UInt32) : List UInt32 :=
  msg.requiredFields.filter fun tag => !presentTags.contains tag

def validateMessage (d : CompiledDictionary) (msgType : Bytes) (presentTags : List UInt32)
    : List Bytes :=
  match d.lookupMessage msgType with
  | none => [unknownMessage msgType]
  | some msg => (missingTags msg presentTags).map fun tag => missingField (d.lookupField tag) tag

end CompiledDictionary

end Velocitas
