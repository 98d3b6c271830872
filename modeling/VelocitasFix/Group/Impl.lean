import VelocitasFix.Message.Impl

/-!
This module contains the parser of repeating groups, over the field entries of a message. Its loops
and its recursion into nested groups take one bound on the number of rounds.
-/

namespace Velocitas

structure GroupDef where
  countTag : UInt32
  delimiterTag : UInt32
  memberTags : List UInt32
  nestedGroups : List GroupDef
  deriving Repr

-- An entry, whose nested groups are of type `G`.
structure GroupEntry (G : Type) where
  fields : List (UInt32 × Bytes)
  nested : List G
  deriving DecidableEq, Repr

structure RepeatingGroup where
  countTag : UInt32
  count : Nat
  entries : List (GroupEntry RepeatingGroup)
  deriving Repr

namespace GroupDef

def new (countTag delimiterTag : UInt32) (memberTags : List UInt32) : GroupDef where
  countTag := countTag
  delimiterTag := delimiterTag
  memberTags := memberTags
  nestedGroups := []

def withNested (d nested : GroupDef) : GroupDef :=
  { d with nestedGroups := d.nestedGroups ++ [nested] }

def isMember (d : GroupDef) (tag : UInt32) : Bool := d.memberTags.contains tag

def findNested (d : GroupDef) (tag : UInt32) : Option GroupDef :=
  d.nestedGroups.find? (·.countTag = tag)

end GroupDef

namespace RepeatingGroup

def fieldValue (buffer : Bytes) (entry : FieldEntry) : Bytes :=
  slice buffer entry.offset.toNat entry.length.toNat

-- The loop of `parse_u64`, but an empty value is zero.
def parseUsizeFromBuf (buffer : Bytes) (entry : FieldEntry) : Option UInt64 :=
  MessageView.parseU64.go (fieldValue buffer entry) 0

section Parse

variable (buffer : Bytes) (fieldEntries : List FieldEntry)

mutual

def parseFrom : Nat → Nat → GroupDef → Option (RepeatingGroup × Nat)
  | 0, _, _ => none
  | fuel + 1, startIndex, groupDef =>
    match fieldEntries[startIndex]? with
    | none => none
    | some countEntry =>
      if countEntry.tag ≠ groupDef.countTag then
        none
      else
        match parseUsizeFromBuf buffer countEntry with
        | none => none
        | some count =>
          if count = 0 then
            some ({ countTag := groupDef.countTag, count := 0, entries := [] }, startIndex + 1)
          else
            let (entries, idx) := parseEntries fuel count.toNat (startIndex + 1) groupDef
            some ({ countTag := groupDef.countTag, count := entries.length, entries }, idx)

-- The entries, at most as many as the count says, and the index behind the last one.
def parseEntries : Nat → Nat → Nat → GroupDef → List (GroupEntry RepeatingGroup) × Nat
  | 0, _, idx, _ => ([], idx)
  | _ + 1, 0, idx, _ => ([], idx)
  | fuel + 1, count + 1, idx, groupDef =>
    match fieldEntries[idx]? with
    | none => ([], idx)
    | some entry =>
      if entry.tag ≠ groupDef.delimiterTag then
        ([], idx)
      else
        let (rest, idx) := parseMembers fuel (idx + 1) groupDef
        let fields := (entry.tag, fieldValue buffer entry) :: rest.fields
        let (entries, idx) := parseEntries fuel count idx groupDef
        ({ fields, nested := rest.nested } :: entries, idx)

-- What is left of an entry behind its delimiter.
def parseMembers : Nat → Nat → GroupDef → GroupEntry RepeatingGroup × Nat
  | 0, idx, _ => (⟨[], []⟩, idx)
  | fuel + 1, idx, groupDef =>
    match fieldEntries[idx]? with
    | none => (⟨[], []⟩, idx)
    | some entry =>
      if entry.tag = groupDef.delimiterTag then
        (⟨[], []⟩, idx)
      else
        match (groupDef.findNested entry.tag).bind (parseFrom fuel idx) with
        | some (nestedGroup, next) =>
          let (rest, idx) := parseMembers fuel next groupDef
          ({ rest with nested := nestedGroup :: rest.nested }, idx)
        | none =>
          if groupDef.isMember entry.tag then
            let (rest, idx) := parseMembers fuel (idx + 1) groupDef
            ({ rest with fields := (entry.tag, fieldValue buffer entry) :: rest.fields }, idx)
          else
            (⟨[], []⟩, idx)

end

-- Between two fields there are at most two rounds.
def parse (startIndex : Nat) (groupDef : GroupDef) : Option (RepeatingGroup × Nat) :=
  parseFrom buffer fieldEntries (2 * (fieldEntries.length - startIndex)) startIndex groupDef

end Parse

end RepeatingGroup

namespace GroupEntry

variable {G : Type}

def getField (entry : GroupEntry G) (tag : UInt32) : Option Bytes :=
  (entry.fields.find? (·.1 = tag)).map Prod.snd

-- The function `parse_i64` of the view once more.
def parseI64Bytes (bytes : Bytes) : Option Int64 := MessageView.parseI64 bytes

def getFieldI64 (entry : GroupEntry G) (tag : UInt32) : Option Int64 :=
  entry.getField tag |>.bind parseI64Bytes

end GroupEntry

def mdEntriesGroup : GroupDef := .new 268 269 [269, 270, 271, 279]

def legsGroup : GroupDef := .new 555 600 [600, 624, 687]

end Velocitas
