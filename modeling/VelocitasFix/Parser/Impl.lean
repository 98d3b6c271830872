import VelocitasFix.Checksum.Impl
import VelocitasFix.Message.Impl

/-!
This module contains the message parser: the scan of the `tag=value` fields, the validation of the
structural fields, of BodyLength and of CheckSum, and the search for the end of a message that is
used to frame a stream. Machine arithmetic wraps, as it does in the release build.
-/

namespace Velocitas

inductive ParseError where
  | bufferTooShort
  | missingBeginString
  | missingBodyLength
  | invalidBodyLength
  | missingMsgType
  | invalidChecksum
  | malformedField
  | invalidTag
  | messageTooLarge
  deriving DecidableEq, Repr

structure FixParser where
  validateChecksum : Bool
  validateBodyLength : Bool
  maxMessageSize : Nat
  deriving DecidableEq, Repr

namespace FixParser

def new : FixParser :=
  { validateChecksum := true, validateBodyLength := true, maxMessageSize := 65536 }

def newUnchecked : FixParser :=
  { validateChecksum := false, validateBodyLength := false, maxMessageSize := 65536 }

def scanTag (buffer : Bytes) (tag : UInt32) (pos : Nat) : Except ParseError (UInt32 × Nat) :=
  if hpos:pos < buffer.length then
    if buffer[pos] = Tags.equals then
      .ok (tag, pos + 1)
    else if buffer[pos] < 48 || buffer[pos] > 57 then
      .error .invalidTag
    else
      scanTag buffer (tag * 10 + (buffer[pos] - 48).toUInt32) (pos + 1)
  else
    .error .malformedField
termination_by buffer.length - pos

def scanValue (buffer : Bytes) (pos : Nat) : Except ParseError Nat :=
  if hpos:pos < buffer.length then
    if buffer[pos] = Tags.soh then
      .ok pos
    else
      scanValue buffer (pos + 1)
  else
    .error .malformedField
termination_by buffer.length - pos

def statedLength (bytes : Bytes) : UInt64 :=
  bytes.foldl (fun n b => n * 10 + (b - 48).toUInt64) 0

structure ParseState where
  view : MessageView
  pos : Nat
  fieldNum : Nat
  bodyStart : Nat
  statedBodyLength : UInt64

def ParseState.init (buffer : Bytes) : ParseState :=
  { view := .new buffer, pos := 0, fieldNum := 0, bodyStart := 0, statedBodyLength := 0 }

def checkStructure (fieldNum : Nat) (tag : UInt32) : Except ParseError Unit :=
  match fieldNum with
  | 0 => if tag ≠ Tags.beginString then .error .missingBeginString else .ok ()
  | 1 => if tag ≠ Tags.bodyLength then .error .missingBodyLength else .ok ()
  | 2 => if tag ≠ Tags.msgType then .error .missingMsgType else .ok ()
  | _ => .ok ()

def recordField (st : ParseState) (tag : UInt32) (value : Bytes) (valueStart stop : Nat)
    : ParseState :=
  { view := st.view.addField tag (UInt32.ofNat valueStart) (UInt16.ofNat (stop - valueStart))
    pos := stop + 1
    fieldNum := if tag = Tags.checksum then st.fieldNum else st.fieldNum + 1
    bodyStart := if st.fieldNum = 1 then stop + 1 else st.bodyStart
    statedBodyLength := if st.fieldNum = 1 then statedLength value else st.statedBodyLength }

-- One round of the field loop; the tag decides whether the loop is left.
def parseField (buffer : Bytes) (st : ParseState) : Except ParseError (UInt32 × ParseState) :=
  match scanTag buffer 0 st.pos with
  | .error e => .error e
  | .ok (tag, valueStart) =>
    match scanValue buffer valueStart with
    | .error e => .error e
    | .ok stop =>
      match checkStructure st.fieldNum tag with
      | .error e => .error e
      | .ok () =>
        let value := slice buffer valueStart (stop - valueStart)
        .ok (tag, recordField st tag value valueStart stop)

theorem lt_of_scanTag {buffer : Bytes} {tag tag' : UInt32} {pos pos' : Nat}
    (h : scanTag buffer tag pos = .ok (tag', pos'))
    : pos < pos' := by
  unfold scanTag at h
  split at h
  . split at h
    . simp only [Except.ok.injEq, Prod.mk.injEq] at h
      omega
    . split at h
      . contradiction
      . have := lt_of_scanTag h
        omega
  . contradiction
termination_by buffer.length - pos

theorem le_of_scanValue {buffer : Bytes} {pos stop : Nat} (h : scanValue buffer pos = .ok stop)
    : pos ≤ stop := by
  unfold scanValue at h
  split at h
  . split at h
    . simp only [Except.ok.injEq] at h
      omega
    . have := le_of_scanValue h
      omega
  . contradiction
termination_by buffer.length - pos

theorem parseField_eq_ok {buffer : Bytes} {st st' : ParseState} {tag : UInt32}
    : parseField buffer st = .ok (tag, st')
        ↔
      ∃ valueStart stop,
        scanTag buffer 0 st.pos = .ok (tag, valueStart)
          ∧ scanValue buffer valueStart = .ok stop
          ∧ checkStructure st.fieldNum tag = .ok ()
          ∧ st' = recordField st tag (slice buffer valueStart (stop - valueStart)) valueStart stop
      := by
  unfold parseField
  constructor
  . intro h
    split at h
    . contradiction
    . next htag =>
      split at h
      . contradiction
      . next hval =>
        split at h
        . contradiction
        . next hcheck =>
          simp only [Except.ok.injEq, Prod.mk.injEq] at h
          rcases h with ⟨rfl, rfl⟩
          exact ⟨_, _, htag, hval, hcheck, rfl⟩
  . intro h
    rcases h with ⟨valueStart, stop, htag, hval, hcheck, rfl⟩
    simp [htag, hval, hcheck]

theorem lt_of_parseField {buffer : Bytes} {st st' : ParseState} {tag : UInt32}
    (h : parseField buffer st = .ok (tag, st'))
    : st.pos < st'.pos := by
  rw [parseField_eq_ok] at h
  rcases h with ⟨valueStart, stop, htag, hval, -, rfl⟩
  have := lt_of_scanTag htag
  have := le_of_scanValue hval
  simp only [recordField]
  omega

def parseFields (buffer : Bytes) (st : ParseState) : Except ParseError ParseState :=
  if st.pos < buffer.length then
    match h:parseField buffer st with
    | .error e => .error e
    | .ok (tag, st') =>
      have := lt_of_parseField h
      if tag = Tags.checksum then
        .ok st'
      else
        parseFields buffer st'
  else
    .ok st
termination_by buffer.length - st.pos

def findChecksumTagStart (buffer : Bytes) (stop : Nat) : Nat :=
  if stop < 7 then
    0
  else
    Checksum.trailerStart buffer (stop - 4)

def bodyLengthValid (buffer : Bytes) (st : ParseState) : Bool :=
  let checksumTagStart := findChecksumTagStart buffer st.pos
  if st.bodyStart > 0 && checksumTagStart > 0 then
    UInt64.ofNat checksumTagStart - UInt64.ofNat st.bodyStart = st.statedBodyLength
  else
    true

def parse (parser : FixParser) (buffer : Bytes) : Except ParseError (MessageView × Nat) :=
  let len := buffer.length
  if len < 20 then
    .error .bufferTooShort
  else if len > parser.maxMessageSize then
    .error .messageTooLarge
  else
    match parseFields buffer (.init buffer) with
    | .error e => .error e
    | .ok st =>
      let consumed := st.pos
      if parser.validateBodyLength && !bodyLengthValid buffer st then
        .error .invalidBodyLength
      else if parser.validateChecksum then
        let valid := Checksum.validate (buffer.take consumed)
        if !valid then
          .error .invalidChecksum
        else
          .ok (st.view.setChecksumValid valid, consumed)
      else
        .ok (st.view.setChecksumValid true, consumed)

def boundaryAt (buffer : Bytes) (i : Nat) : Bool :=
  Checksum.trailerAt buffer i && buffer[i + 7]? = some Tags.soh

def findMessageBoundary (buffer : Bytes) : Option Nat :=
  if buffer.length < 7 then
    none
  else
    go buffer 0
where
  go (buffer : Bytes) (i : Nat) : Option Nat :=
    if i + 8 ≤ buffer.length then
      if boundaryAt buffer i then
        some (i + 8)
      else
        go buffer (i + 1)
    else
      none
  termination_by buffer.length - i

end FixParser

end Velocitas
