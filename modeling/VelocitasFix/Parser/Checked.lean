import VelocitasFix.Checksum.Checked
import VelocitasFix.Message.Checked
import VelocitasFix.Parser.Soundness

/-!
This module contains the parser once more, with every index, every range and every machine operation
that can fail at the place where the source has it. Positions are natural numbers, and a difference of
positions below zero is a fault.
-/

namespace Velocitas

namespace Checked

open Fault

namespace FixParser

def scanTag (build : Build) (buffer : Bytes) (tag : UInt32) (pos : Nat)
    : Except Fault (Except ParseError (UInt32 × Nat)) :=
  if hpos:pos < buffer.length then do
    let b ← index buffer pos
    if b = Tags.equals then
      .ok (.ok (tag, pos + 1))
    else if b < 48 || b > 57 then
      .ok (.error .invalidTag)
    else
      let scaled ← arith build (tag.toNat * 10 < 2 ^ 32) (tag * 10)
      let digit ← Checksum.digitOf build b
      let tag ← arith build (scaled.toNat + digit.toNat < 2 ^ 32) (scaled + digit.toUInt32)
      scanTag build buffer tag (pos + 1)
  else
    .ok (.error .malformedField)
termination_by buffer.length - pos

def scanValue (buffer : Bytes) (pos : Nat) : Except Fault (Except ParseError Nat) :=
  if hpos:pos < buffer.length then do
    let b ← index buffer pos
    if b = Tags.soh then
      .ok (.ok pos)
    else
      scanValue buffer (pos + 1)
  else
    .ok (.error .malformedField)
termination_by buffer.length - pos

def statedLength (build : Build) : Bytes → UInt64 → Except Fault UInt64
  | [], n => .ok n
  | b :: rest, n => do
    let scaled ← arith build (n.toNat * 10 < 2 ^ 64) (n * 10)
    let digit ← Checksum.digitOf build b
    let n ← arith build (scaled.toNat + digit.toNat < 2 ^ 64) (scaled + digit.toUInt64)
    statedLength build rest n

def readBodyLength (build : Build) (buffer : Bytes) (st : FixParser.ParseState)
    (valueStart valueLen : Nat)
    : Except Fault UInt64 :=
  if st.fieldNum = 1 then do
    let value ← range buffer valueStart (valueStart + valueLen)
    statedLength build value 0
  else
    .ok st.statedBodyLength

def recordField (build : Build) (buffer : Bytes) (st : FixParser.ParseState) (tag : UInt32)
    (valueStart stop : Nat)
    : Except Fault FixParser.ParseState := do
  let valueLen ← sub stop valueStart
  let stated ← readBodyLength build buffer st valueStart valueLen
  let view ← MessageView.addField st.view tag (UInt32.ofNat valueStart) (UInt16.ofNat valueLen)
  .ok {
    view := view
    pos := stop + 1
    fieldNum := if tag = Tags.checksum then st.fieldNum else st.fieldNum + 1
    bodyStart := if st.fieldNum = 1 then stop + 1 else st.bodyStart
    statedBodyLength := stated
  }

def parseField (build : Build) (buffer : Bytes) (st : FixParser.ParseState)
    : Except Fault (Except ParseError (UInt32 × FixParser.ParseState)) := do
  match ← scanTag build buffer 0 st.pos with
  | .error e => .ok (.error e)
  | .ok (tag, valueStart) =>
    match ← scanValue buffer valueStart with
    | .error e => .ok (.error e)
    | .ok stop =>
      match FixParser.checkStructure st.fieldNum tag with
      | .error e => .ok (.error e)
      | .ok () =>
        let st ← recordField build buffer st tag valueStart stop
        .ok (.ok (tag, st))

-- The number that a run of digits adds to what was read before them.
def accumulated (n : Nat) (bytes : Bytes) : Nat :=
  bytes.foldl (fun n b => n * 10 + (b.toNat - 48)) n

theorem le_accumulated (n : Nat) (bytes : Bytes) : n ≤ accumulated n bytes := by
  induction bytes generalizing n with
  | nil => apply Nat.le_refl
  | cons b bytes ih =>
    have := ih (n * 10 + (b.toNat - 48))
    rw [accumulated, List.foldl_cons]
    unfold accumulated at this
    omega

def digitRun (bytes : Bytes) : Bytes := bytes.takeWhile fun b => decide (48 ≤ b) && decide (b ≤ 57)

section

variable {α : Type} {a : α} {p : Prop} {b : UInt8}

-- One step of the tag loop.
theorem computes_tagStep {tag : UInt32} (hb : 48 ≤ b.toNat)
    {next : Build → UInt32 → Except Fault α}
    (hnext : Computes (fun build => next build (tag * 10 + (b - 48).toUInt32)) p a)
    : Computes (fun build => do
          let scaled ← arith build (tag.toNat * 10 < 2 ^ 32) (tag * 10)
          let digit ← Checksum.digitOf build b
          let tag ← arith build (scaled.toNat + digit.toNat < 2 ^ 32) (scaled + digit.toUInt32)
          next build tag)
        (tag.toNat * 10 + (b.toNat - 48) < 2 ^ 32 ∧ p) a := by
  have hscaled (h : tag.toNat * 10 < 2 ^ 32) : (tag * 10).toNat = tag.toNat * 10 := by
    rw [UInt32.toNat_mul]
    exact Nat.mod_eq_of_lt h
  apply Computes.congr
  . apply (Computes.arith _).bind
    apply (Checksum.computes_digitOf b).bind
    apply (Computes.arith _).bind
    exact hnext
  . rw [← and_assoc, ← and_assoc, Checksum.toNat_sub_of_le hb]
    apply and_congr_left'
    constructor
    . intro h
      have := hscaled h.1.1
      omega
    . intro h
      have := hscaled (by omega)
      omega

-- One step of the BodyLength loop; here nothing else says that the byte is a digit.
theorem computes_lengthStep {n : UInt64} {next : Build → UInt64 → Except Fault α}
    (hnext : Computes (fun build => next build (n * 10 + (b - 48).toUInt64)) p a)
    : Computes (fun build => do
          let scaled ← arith build (n.toNat * 10 < 2 ^ 64) (n * 10)
          let digit ← Checksum.digitOf build b
          let n ← arith build (scaled.toNat + digit.toNat < 2 ^ 64) (scaled + digit.toUInt64)
          next build n)
        ((48 ≤ b.toNat ∧ n.toNat * 10 + (b.toNat - 48) < 2 ^ 64) ∧ p) a := by
  have hscaled (h : n.toNat * 10 < 2 ^ 64) : (n * 10).toNat = n.toNat * 10 := by
    rw [UInt64.toNat_mul]
    exact Nat.mod_eq_of_lt h
  apply Computes.congr
  . apply (Computes.arith _).bind
    apply (Checksum.computes_digitOf b).bind
    apply (Computes.arith _).bind
    exact hnext
  . rw [← and_assoc, ← and_assoc]
    apply and_congr_left'
    constructor
    . intro h
      obtain ⟨⟨hten, hb⟩, hsum⟩ := h
      have := hscaled hten
      have := Checksum.toNat_sub_of_le hb
      exact ⟨hb, by omega⟩
    . intro h
      obtain ⟨hb, hsum⟩ := h
      have := hscaled (by omega)
      have := Checksum.toNat_sub_of_le hb
      exact ⟨⟨by omega, hb⟩, by omega⟩

end

theorem digitRun_cons {b : UInt8} (h : ¬ (b < 48 || b > 57) = true) (bytes : Bytes)
    : digitRun (b :: bytes) = b :: digitRun bytes := by
  have hdigit : (decide (48 ≤ b) && decide (b ≤ 57)) = true := by
    simpa using h
  rw [digitRun, List.takeWhile_cons, hdigit]
  rfl

theorem digitRun_of_not {b : UInt8} (h : (b < 48 || b > 57) = true) (bytes : Bytes)
    : digitRun (b :: bytes) = [] := by
  have hdigit : (decide (48 ≤ b) && decide (b ≤ 57)) = false := by
    simp only [Bool.or_eq_true, decide_eq_true_eq] at h
    simp only [Bool.and_eq_false_iff, decide_eq_false_iff_not, UInt8.not_le]
    exact h
  rw [digitRun, List.takeWhile_cons, hdigit]
  rfl

theorem accumulated_cons_lt_iff {n : UInt32} {b : UInt8} (hb : 48 ≤ b.toNat) (bytes : Bytes)
    : (n.toNat * 10 + (b.toNat - 48) < 2 ^ 32
          ∧ accumulated (n * 10 + (b - 48).toUInt32).toNat bytes < 2 ^ 32)
        ↔
      accumulated n.toNat (b :: bytes) < 2 ^ 32 := by
  have hcons : accumulated n.toNat (b :: bytes)
      = accumulated (n.toNat * 10 + (b.toNat - 48)) bytes := rfl
  have hle := le_accumulated (n.toNat * 10 + (b.toNat - 48)) bytes
  have hnext (h : n.toNat * 10 + (b.toNat - 48) < 2 ^ 32)
      : (n * 10 + (b - 48).toUInt32).toNat = n.toNat * 10 + (b.toNat - 48) := by
    simp only [UInt32.toNat_add, UInt32.toNat_mul, UInt8.toNat_toUInt32,
      Checksum.toNat_sub_of_le hb, UInt32.reduceToNat]
    omega
  rw [hcons]
  constructor
  . intro h
    rw [hnext h.1] at h
    exact h.2
  . intro h
    have hfits : n.toNat * 10 + (b.toNat - 48) < 2 ^ 32 := Nat.lt_of_le_of_lt hle h
    rw [hnext hfits]
    exact ⟨hfits, h⟩

theorem computes_scanTag (buffer : Bytes) (tag : UInt32) (pos : Nat)
    : Computes (fun build => scanTag build buffer tag pos)
        (accumulated tag.toNat (digitRun (buffer.drop pos)) < 2 ^ 32)
        (Velocitas.FixParser.scanTag buffer tag pos) := by
  have hsafe : accumulated tag.toNat [] < 2 ^ 32 := tag.toNat_lt
  unfold scanTag Velocitas.FixParser.scanTag
  by_cases hpos : pos < buffer.length
  . simp only [dif_pos hpos]
    rw [List.drop_eq_getElem_cons hpos]
    apply (Computes.index hpos).bind_of_true
    by_cases hequals : buffer[pos] = Tags.equals
    . simp only [if_pos hequals]
      rw [digitRun_of_not (by rw [hequals]; decide)]
      exact (Computes.pure _).congr (iff_of_true trivial hsafe)
    . simp only [if_neg hequals]
      by_cases hrange : (buffer[pos] < 48 || buffer[pos] > 57) = true
      . simp only [if_pos hrange]
        rw [digitRun_of_not hrange]
        exact (Computes.pure _).congr (iff_of_true trivial hsafe)
      . simp only [if_neg hrange]
        have hb : 48 ≤ buffer[pos].toNat := by
          simp only [Bool.or_eq_true, decide_eq_true_eq, not_or, UInt8.not_lt,
            UInt8.le_iff_toNat_le] at hrange
          exact hrange.1
        have ih := computes_scanTag buffer (tag * 10 + (buffer[pos] - 48).toUInt32) (pos + 1)
        apply (computes_tagStep hb ih).congr
        rw [digitRun_cons hrange]
        exact accumulated_cons_lt_iff hb _
  . simp only [dif_neg hpos]
    rw [List.drop_eq_nil_of_le (Nat.le_of_not_lt hpos)]
    exact (Computes.pure _).congr (iff_of_true trivial hsafe)
termination_by buffer.length - pos

theorem computes_scanValue (buffer : Bytes) (pos : Nat)
    : Computes (fun _ => scanValue buffer pos) True (Velocitas.FixParser.scanValue buffer pos) := by
  unfold scanValue Velocitas.FixParser.scanValue
  by_cases hpos : pos < buffer.length
  . simp only [dif_pos hpos]
    apply (Computes.index hpos).bind_of_true
    by_cases hsoh : buffer[pos] = Tags.soh
    . simp only [if_pos hsoh]
      exact .pure _
    . simp only [if_neg hsoh]
      exact computes_scanValue buffer (pos + 1)
  . simp only [dif_neg hpos]
    exact .pure _
termination_by buffer.length - pos

-- The BodyLength loop neither leaves the digits from below nor the range of its type.
def LengthFits (n : Nat) (value : Bytes) : Prop :=
  (∀ b ∈ value, 48 ≤ b.toNat) ∧ accumulated n value < 2 ^ 64

theorem lengthFits_cons_iff {n : UInt64} {b : UInt8} (bytes : Bytes)
    : ((48 ≤ b.toNat ∧ n.toNat * 10 + (b.toNat - 48) < 2 ^ 64)
          ∧ LengthFits (n * 10 + (b - 48).toUInt64).toNat bytes)
        ↔
      LengthFits n.toNat (b :: bytes) := by
  have hcons : accumulated n.toNat (b :: bytes)
      = accumulated (n.toNat * 10 + (b.toNat - 48)) bytes := rfl
  have hle := le_accumulated (n.toNat * 10 + (b.toNat - 48)) bytes
  have hnext (hb : 48 ≤ b.toNat) (h : n.toNat * 10 + (b.toNat - 48) < 2 ^ 64)
      : (n * 10 + (b - 48).toUInt64).toNat = n.toNat * 10 + (b.toNat - 48) := by
    simp only [UInt64.toNat_add, UInt64.toNat_mul, UInt8.toNat_toUInt64,
      Checksum.toNat_sub_of_le hb, UInt64.reduceToNat]
    omega
  unfold LengthFits
  rw [hcons, List.forall_mem_cons]
  constructor
  . intro h
    obtain ⟨⟨hb, hfits⟩, hbytes, hrest⟩ := h
    rw [hnext hb hfits] at hrest
    exact ⟨⟨hb, hbytes⟩, hrest⟩
  . intro h
    obtain ⟨⟨hb, hbytes⟩, hrest⟩ := h
    have hfits : n.toNat * 10 + (b.toNat - 48) < 2 ^ 64 := Nat.lt_of_le_of_lt hle hrest
    rw [hnext hb hfits]
    exact ⟨⟨hb, hfits⟩, hbytes, hrest⟩

theorem computes_statedLength (value : Bytes) (n : UInt64)
    : Computes (fun build => statedLength build value n) (LengthFits n.toNat value)
        (value.foldl (fun n b => n * 10 + (b - 48).toUInt64) n) := by
  induction value generalizing n with
  | nil =>
    have hsafe : LengthFits n.toNat [] := ⟨by simp, n.toNat_lt⟩
    exact (Computes.pure n).congr (iff_of_true trivial hsafe)
  | cons b value ih =>
    unfold statedLength
    apply (computes_lengthStep (ih _)).congr
    exact lengthFits_cons_iff value

theorem computes_readBodyLength {buffer : Bytes} {valueStart valueLen : Nat}
    (h : valueStart + valueLen ≤ buffer.length) (st : FixParser.ParseState)
    : Computes (fun build => readBodyLength build buffer st valueStart valueLen)
        (st.fieldNum = 1 → LengthFits 0 (slice buffer valueStart valueLen))
        (if st.fieldNum = 1 then
          Velocitas.FixParser.statedLength (slice buffer valueStart valueLen)
        else
          st.statedBodyLength) := by
  unfold readBodyLength
  by_cases hlength : st.fieldNum = 1
  . have hvalue := Computes.range (Nat.le_add_right valueStart valueLen) h
    rw [Nat.add_sub_cancel_left] at hvalue
    simp only [hlength, forall_const]
    apply hvalue.bind_of_true
    exact computes_statedLength _ 0
  . simp only [if_neg hlength]
    exact (Computes.pure _).congr (by simp [hlength])

theorem computes_recordField {buffer : Bytes} {valueStart stop : Nat} (h : valueStart ≤ stop)
    (hle : stop ≤ buffer.length) (st : FixParser.ParseState) (tag : UInt32)
    : Computes (fun build => recordField build buffer st tag valueStart stop)
        (st.fieldNum = 1 → LengthFits 0 (slice buffer valueStart (stop - valueStart)))
        (Velocitas.FixParser.recordField st tag (slice buffer valueStart (stop - valueStart))
          valueStart stop) := by
  unfold recordField Velocitas.FixParser.recordField
  have hlength := @computes_readBodyLength buffer valueStart (stop - valueStart) (by omega) st
  apply (Computes.sub h).bind_of_true
  apply Computes.congr
  . apply hlength.bind
    apply (MessageView.computes_addField _ _ _ _).bind_of_true
    exact .pure _
  . rw [and_true]

-- What the next field of the loop needs for its arithmetic.
structure FieldFits (buffer : Bytes) (st : FixParser.ParseState) : Prop where
  tag : accumulated 0 (digitRun (buffer.drop st.pos)) < 2 ^ 32
  bodyLength : st.fieldNum = 1 → ∀ (f : RawField) (rest : Bytes),
    buffer.drop st.pos = f.render ++ rest → f.tag = Tags.bodyLength → LengthFits 0 f.value

theorem scan_of_drop {buffer rest : Bytes} {pos : Nat} {f : RawField}
    (h : buffer.drop pos = f.render ++ rest)
    : Velocitas.FixParser.scanTag buffer 0 pos = .ok (f.tag, pos + f.tagText.length + 1)
        ∧ Velocitas.FixParser.scanValue buffer (pos + f.tagText.length + 1)
          = .ok (pos + f.tagText.length + 1 + f.value.length)
        ∧ slice buffer (pos + f.tagText.length + 1) f.value.length = f.value := by
  have htag : buffer.drop pos = f.tagText ++ Tags.equals :: (f.value ++ Tags.soh :: rest) := by
    simp [h, RawField.render]
  have hval : buffer.drop (pos + f.tagText.length + 1) = f.value ++ Tags.soh :: rest := by
    have := drop_of_drop_eq_append htag
    exact drop_of_drop_eq_cons this
  refine ⟨Velocitas.FixParser.scanTag_of_drop 0 f.digits htag,
    Velocitas.FixParser.scanValue_of_drop f.sohFree hval, ?_⟩
  rw [slice, hval, List.take_left]

theorem lt_length_of_scanValue {buffer : Bytes} {pos stop : Nat}
    (h : Velocitas.FixParser.scanValue buffer pos = .ok stop)
    : stop < buffer.length := by
  obtain ⟨value, rest, _, hdrop, rfl⟩ := Velocitas.FixParser.exists_of_scanValue h
  have hlen := congrArg List.length hdrop
  rw [List.length_drop, List.length_append, List.length_cons] at hlen
  omega

-- Without a complete field there is no BodyLength to read.
theorem fieldFits_iff_of_not {buffer : Bytes} {st : FixParser.ParseState}
    (h : st.fieldNum = 1 → ∀ (f : RawField) (rest : Bytes),
      buffer.drop st.pos = f.render ++ rest → f.tag ≠ Tags.bodyLength)
    : accumulated 0 (digitRun (buffer.drop st.pos)) < 2 ^ 32 ↔ FieldFits buffer st := by
  constructor
  . intro htag
    exact ⟨htag, fun hnum f rest hdrop hf => absurd hf (h hnum f rest hdrop)⟩
  . intro hfits
    exact hfits.tag

theorem fieldFits_iff {buffer : Bytes} {st : FixParser.ParseState} {tag : UInt32}
    {valueStart stop : Nat}
    (hscan : Velocitas.FixParser.scanTag buffer 0 st.pos = .ok (tag, valueStart))
    (hend : Velocitas.FixParser.scanValue buffer valueStart = .ok stop)
    (hcheck : FixParser.checkStructure st.fieldNum tag = .ok ())
    : (accumulated 0 (digitRun (buffer.drop st.pos)) < 2 ^ 32
          ∧ (st.fieldNum = 1 → LengthFits 0 (slice buffer valueStart (stop - valueStart))))
        ↔
      FieldFits buffer st := by
  have hread {f : RawField} {rest : Bytes} (hdrop : buffer.drop st.pos = f.render ++ rest)
      : f.tag = tag ∧ slice buffer valueStart (stop - valueStart) = f.value := by
    obtain ⟨htag, hvalue, hslice⟩ := scan_of_drop hdrop
    rw [hscan, Except.ok.injEq, Prod.mk.injEq] at htag
    rw [← htag.2, hend, Except.ok.injEq] at hvalue
    rw [hvalue, htag.2, Nat.add_sub_cancel_left]
    exact ⟨htag.1.symm, hslice⟩
  obtain ⟨f, rest, hdrop, -, -, -⟩ := Velocitas.FixParser.exists_of_parseField
    (Velocitas.FixParser.parseField_eq_ok.mpr ⟨valueStart, stop, hscan, hend, hcheck, rfl⟩)
  constructor
  . intro h
    refine ⟨h.1, ?_⟩
    intro hnum f' rest' hdrop' _
    rw [← (hread hdrop').2]
    exact h.2 hnum
  . intro hfits
    refine ⟨hfits.tag, ?_⟩
    intro hnum
    rw [hnum, LaxMessage.checkStructure_eq_ok] at hcheck
    rw [(hread hdrop).2]
    apply hfits.bodyLength hnum f rest hdrop
    rw [(hread hdrop).1]
    exact hcheck.2.1 rfl

theorem computes_parseField (buffer : Bytes) (st : FixParser.ParseState)
    : Computes (fun build => parseField build buffer st) (FieldFits buffer st)
        (Velocitas.FixParser.parseField buffer st) := by
  have htag := computes_scanTag buffer 0 st.pos
  unfold parseField Velocitas.FixParser.parseField
  cases hscan : Velocitas.FixParser.scanTag buffer 0 st.pos with
  | error e =>
    rw [hscan] at htag
    apply Computes.congr
    . exact htag.bind (.pure _)
    . rw [and_true]
      apply fieldFits_iff_of_not
      intro _ f rest hdrop
      rw [(scan_of_drop hdrop).1] at hscan
      contradiction
  | ok found =>
    obtain ⟨tag, valueStart⟩ := found
    rw [hscan] at htag
    have hvalue := computes_scanValue buffer valueStart
    dsimp only
    cases hend : Velocitas.FixParser.scanValue buffer valueStart with
    | error e =>
      rw [hend] at hvalue
      apply Computes.congr
      . apply htag.bind
        apply hvalue.bind
        exact .pure _
      . rw [and_true, and_true]
        apply fieldFits_iff_of_not
        intro _ f rest hdrop
        have hfield := scan_of_drop hdrop
        rw [hscan, Except.ok.injEq, Prod.mk.injEq] at hfield
        rw [← hfield.1.2, hend] at hfield
        have := hfield.2.1
        contradiction
    | ok stop =>
      rw [hend] at hvalue
      dsimp only
      have hle := Velocitas.FixParser.le_of_scanValue hend
      have hlt := lt_length_of_scanValue hend
      cases hcheck : FixParser.checkStructure st.fieldNum tag with
      | error e =>
        apply Computes.congr
        . apply htag.bind
          apply hvalue.bind
          simp only [hcheck]
          exact .pure _
        . rw [and_true, and_true]
          apply fieldFits_iff_of_not
          intro hnum f rest hdrop hf
          have hfield := (scan_of_drop hdrop).1
          rw [hscan, Except.ok.injEq, Prod.mk.injEq] at hfield
          rw [hnum, hfield.1, hf] at hcheck
          contradiction
      | ok _ =>
        apply Computes.congr
        . apply htag.bind
          apply hvalue.bind
          simp only [hcheck]
          apply (computes_recordField hle (by omega) st tag).bind
          exact .pure _
        . rw [and_true, true_and]
          exact fieldFits_iff hscan hend hcheck

end FixParser

end Checked

end Velocitas
