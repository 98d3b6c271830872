import VelocitasFix.Group.Progress
import VelocitasFix.Data.Reserving
import VelocitasFix.Parser.Safety
import VelocitasFix.Message.Lemmas
import Mathlib.Data.List.TakeWhile

/-!
This module contains the group parser once more, with the vectors it reserves for the entries, every
index and every machine operation that can fail, and the condition under which the counts of a message
make it reserve no more than the message can fill.
-/

namespace Velocitas

-- `size_of::<GroupEntry>()`: two vectors.
def groupEntrySize : Nat := 48

-- `isize::MAX`.
def maxVecBytes : Nat := 2 ^ 63 - 1

namespace Checked

open Fault Reserving

namespace RepeatingGroup

def fieldValue (buffer : Bytes) (entry : FieldEntry) : Except Fault Bytes :=
  range buffer entry.offset.toNat (entry.offset.toNat + entry.length.toNat)

def parseUsize (build : Build) : Bytes → UInt64 → Except Fault (Option UInt64)
  | [], result => .ok (some result)
  | b :: rest, result =>
    if b < 48 || b > 57 then
      .ok none
    else do
      let scaled ← arith build (result.toNat * 10 < 2 ^ 64) (result * 10)
      let digit ← Checksum.digitOf build b
      let result ← arith build (scaled.toNat + digit.toNat < 2 ^ 64) (scaled + digit.toUInt64)
      parseUsize build rest result

def parseUsizeFromBuf (build : Build) (buffer : Bytes) (entry : FieldEntry)
    : Except Fault (Option UInt64) := do
  let value ← fieldValue buffer entry
  parseUsize build value 0

def withCapacity (count remaining : Nat) : Reserving Unit :=
  reserve groupEntrySize maxVecBytes count remaining

section Parse

variable (build : Build) (buffer : Bytes) (fieldEntries : List FieldEntry)

mutual

def parseFrom : Nat → Nat → GroupDef → Reserving (Option (RepeatingGroup × Nat))
  | 0, _, _ => pure none
  | fuel + 1, startIndex, groupDef =>
    if startIndex < fieldEntries.length then do
      let countEntry ← ofFault (index fieldEntries startIndex)
      if countEntry.tag ≠ groupDef.countTag then
        pure none
      else
        match ← ofFault (parseUsizeFromBuf build buffer countEntry) with
        | none => pure none
        | some count =>
          if count = 0 then
            pure (some ({ countTag := groupDef.countTag, count := 0, entries := [] }, startIndex + 1))
          else
            withCapacity count.toNat (fieldEntries.length - (startIndex + 1))
            let (entries, idx) ← parseEntries fuel count.toNat (startIndex + 1) groupDef
            pure (some ({ countTag := groupDef.countTag, count := entries.length, entries }, idx))
    else
      pure none

def parseEntries : Nat → Nat → Nat → GroupDef → Reserving (List (GroupEntry RepeatingGroup) × Nat)
  | 0, _, idx, _ => pure ([], idx)
  | _ + 1, 0, idx, _ => pure ([], idx)
  | fuel + 1, count + 1, idx, groupDef =>
    if idx < fieldEntries.length then do
      let entry ← ofFault (index fieldEntries idx)
      if entry.tag ≠ groupDef.delimiterTag then
        pure ([], idx)
      else
        let value ← ofFault (fieldValue buffer entry)
        let (rest, idx) ← parseMembers fuel (idx + 1) groupDef
        let fields := (entry.tag, value) :: rest.fields
        let (entries, idx) ← parseEntries fuel count idx groupDef
        pure ({ fields, nested := rest.nested } :: entries, idx)
    else
      pure ([], idx)

def parseMembers : Nat → Nat → GroupDef → Reserving (GroupEntry RepeatingGroup × Nat)
  | 0, idx, _ => pure (⟨[], []⟩, idx)
  | fuel + 1, idx, groupDef =>
    if idx < fieldEntries.length then do
      let entry ← ofFault (index fieldEntries idx)
      if entry.tag = groupDef.delimiterTag then
        pure (⟨[], []⟩, idx)
      else
        let nested ← (match groupDef.findNested entry.tag with
          | none => pure none
          | some nestedDef => parseFrom fuel idx nestedDef)
        match nested with
        | some (nestedGroup, next) =>
          let (rest, idx) ← parseMembers fuel next groupDef
          pure ({ rest with nested := nestedGroup :: rest.nested }, idx)
        | none =>
          if groupDef.isMember entry.tag then
            let value ← ofFault (fieldValue buffer entry)
            let (rest, idx) ← parseMembers fuel (idx + 1) groupDef
            pure ({ rest with fields := (entry.tag, value) :: rest.fields }, idx)
          else
            pure (⟨[], []⟩, idx)
    else
      pure (⟨[], []⟩, idx)

end

def parse (startIndex : Nat) (groupDef : GroupDef) : Reserving (Option (RepeatingGroup × Nat)) :=
  parseFrom build buffer fieldEntries (2 * (fieldEntries.length - startIndex)) startIndex groupDef

end Parse

end RepeatingGroup

end Checked

namespace RepeatingGroup

section Counts

variable (buffer : Bytes) (fieldEntries : List FieldEntry)

mutual

-- The indices of the count fields that the parser comes to, nested ones included.
def countsFrom : Nat → Nat → GroupDef → List Nat
  | 0, _, _ => []
  | fuel + 1, startIndex, groupDef =>
    match fieldEntries[startIndex]? with
    | none => []
    | some countEntry =>
      if countEntry.tag ≠ groupDef.countTag then
        []
      else
        match parseUsizeFromBuf buffer countEntry with
        | none => [startIndex]
        | some count => startIndex :: countsEntries fuel count.toNat (startIndex + 1) groupDef

def countsEntries : Nat → Nat → Nat → GroupDef → List Nat
  | 0, _, _, _ => []
  | _ + 1, 0, _, _ => []
  | fuel + 1, count + 1, idx, groupDef =>
    match fieldEntries[idx]? with
    | none => []
    | some entry =>
      if entry.tag ≠ groupDef.delimiterTag then
        []
      else
        let next := (parseMembers buffer fieldEntries fuel (idx + 1) groupDef).2
        countsMembers fuel (idx + 1) groupDef ++ countsEntries fuel count next groupDef

def countsMembers : Nat → Nat → GroupDef → List Nat
  | 0, _, _ => []
  | fuel + 1, idx, groupDef =>
    match fieldEntries[idx]? with
    | none => []
    | some entry =>
      if entry.tag = groupDef.delimiterTag then
        []
      else
        let nested := match groupDef.findNested entry.tag with
          | none => []
          | some nestedDef => countsFrom fuel idx nestedDef
        match (groupDef.findNested entry.tag).bind (parseFrom buffer fieldEntries fuel idx) with
        | some (_, next) => nested ++ countsMembers fuel next groupDef
        | none =>
          if groupDef.isMember entry.tag then
            nested ++ countsMembers fuel (idx + 1) groupDef
          else
            nested

end

def countFields (startIndex : Nat) (groupDef : GroupDef) : List Nat :=
  countsFrom buffer fieldEntries (2 * (fieldEntries.length - startIndex)) startIndex groupDef

-- The leading digits of the count fit a `usize`, and it counts no more than the fields behind it.
def CountFits (i : Nat) : Prop :=
  ∀ entry, fieldEntries[i]? = some entry →
    Ascii.value (Checked.FixParser.digitRun (fieldValue buffer entry)) < 2 ^ 64
      ∧ (Ascii.AllDigits (fieldValue buffer entry) →
        Ascii.value (fieldValue buffer entry) ≤ fieldEntries.length - (i + 1))

end Counts

end RepeatingGroup

namespace Checked

open Fault Reserving

namespace RepeatingGroup

open Velocitas.Checked.FixParser (LengthFits digitRun digitRun_cons digitRun_of_not
  lengthFits_cons_iff)

theorem computes_parseUsize (bytes : Bytes) (result : UInt64)
    : Computes (fun build => parseUsize build bytes result)
        (LengthFits result.toNat (digitRun bytes)) (MessageView.parseU64.go bytes result) := by
  have hsafe (n : UInt64) : LengthFits n.toNat [] := ⟨by simp, n.toNat_lt⟩
  induction bytes generalizing result with
  | nil => exact (Computes.pure _).congr (iff_of_true trivial (hsafe result))
  | cons b rest ih =>
    unfold parseUsize MessageView.parseU64.go
    by_cases hrange : (b < 48 || b > 57) = true
    . simp only [if_pos hrange]
      rw [digitRun_of_not hrange]
      exact (Computes.pure _).congr (iff_of_true trivial (hsafe result))
    . simp only [if_neg hrange]
      rw [digitRun_cons hrange]
      apply (FixParser.computes_lengthStep (ih _)).congr
      exact lengthFits_cons_iff _

theorem lengthFits_digitRun_iff (bytes : Bytes)
    : LengthFits 0 (digitRun bytes) ↔ Ascii.value (digitRun bytes) < 2 ^ 64 := by
  have hdigits : ∀ b ∈ digitRun bytes, 48 ≤ b.toNat := by
    intro b hb
    have hdigit := List.mem_takeWhile_imp hb
    rw [Bool.and_eq_true, decide_eq_true_eq, UInt8.le_iff_toNat_le] at hdigit
    exact hdigit.1
  exact and_iff_right hdigits

variable {buffer : Bytes} {fieldEntries : List FieldEntry}

theorem computes_fieldValue {entry : FieldEntry}
    (h : entry.offset.toNat + entry.length.toNat ≤ buffer.length)
    : Computes (fun _ => fieldValue buffer entry) True
        (Velocitas.RepeatingGroup.fieldValue buffer entry) := by
  have hrange := Computes.range (Nat.le_add_right entry.offset.toNat entry.length.toNat) h
  rw [Nat.add_sub_cancel_left] at hrange
  exact hrange

theorem computes_parseUsizeFromBuf {entry : FieldEntry}
    (h : entry.offset.toNat + entry.length.toNat ≤ buffer.length)
    : Computes (fun build => parseUsizeFromBuf build buffer entry)
        (Ascii.value (digitRun (Velocitas.RepeatingGroup.fieldValue buffer entry)) < 2 ^ 64)
        (Velocitas.RepeatingGroup.parseUsizeFromBuf buffer entry) := by
  unfold parseUsizeFromBuf
  apply (computes_fieldValue h).bind_of_true
  rw [← lengthFits_digitRun_iff]
  exact computes_parseUsize _ 0

variable (buffer fieldEntries)

-- What the parser needs of the message: the entries lie inside the buffer, and there are not too many.
structure Indexed : Prop where
  entry_le : ∀ e ∈ fieldEntries, e.offset.toNat + e.length.toNat ≤ buffer.length
  length_le : fieldEntries.length ≤ maxFields

open Velocitas.RepeatingGroup (countsFrom countsEntries countsMembers CountFits)

structure Spares (fuel : Nat) : Prop where
  group : ∀ idx d, Sparing (fun build => parseFrom build buffer fieldEntries fuel idx d)
    (∀ i ∈ countsFrom buffer fieldEntries fuel idx d, CountFits buffer fieldEntries i)
    (Velocitas.RepeatingGroup.parseFrom buffer fieldEntries fuel idx d)
  entries : ∀ count idx d,
    Sparing (fun build => parseEntries build buffer fieldEntries fuel count idx d)
      (∀ i ∈ countsEntries buffer fieldEntries fuel count idx d, CountFits buffer fieldEntries i)
      (Velocitas.RepeatingGroup.parseEntries buffer fieldEntries fuel count idx d)
  members : ∀ idx d, Sparing (fun build => parseMembers build buffer fieldEntries fuel idx d)
    (∀ i ∈ countsMembers buffer fieldEntries fuel idx d, CountFits buffer fieldEntries i)
    (Velocitas.RepeatingGroup.parseMembers buffer fieldEntries fuel idx d)

variable {buffer fieldEntries}

theorem sparing_pure {α : Type} {p : Prop} (a : α) (h : p)
    : Sparing (fun _ => (pure a : Reserving α)) p a :=
  (Sparing.pure a).congr (iff_of_true trivial h)

theorem sparing_index {idx : Nat} (h : idx < fieldEntries.length)
    : Sparing (fun _ => ofFault (index fieldEntries idx)) True fieldEntries[idx] :=
  .ofFault (.index h)

theorem digitRun_of_allDigits {bytes : Bytes} (h : Ascii.AllDigits bytes) : digitRun bytes = bytes := by
  apply List.takeWhile_eq_self_iff.mpr
  intro b hb
  rw [Bool.and_eq_true, decide_eq_true_eq, decide_eq_true_eq]
  exact h b hb

-- When the digits fit, the decoded count is the number they stand for.
theorem countFits_iff {idx : Nat} (h : idx < fieldEntries.length)
    : CountFits buffer fieldEntries idx
        ↔ Ascii.value (digitRun (Velocitas.RepeatingGroup.fieldValue buffer fieldEntries[idx]))
              < 2 ^ 64
          ∧ ∀ count, Velocitas.RepeatingGroup.parseUsizeFromBuf buffer fieldEntries[idx] = some count →
              count.toNat ≤ fieldEntries.length - (idx + 1) := by
  have hself : CountFits buffer fieldEntries idx ↔ _ :=
    ⟨fun hfits => hfits _ (List.getElem?_eq_getElem h),
      fun hfits entry hentry => by
        rw [List.getElem?_eq_getElem h] at hentry
        rw [← Option.some.inj hentry]
        exact hfits⟩
  rw [hself]
  apply and_congr_right
  intro hfits
  unfold Velocitas.RepeatingGroup.parseUsizeFromBuf
  generalize Velocitas.RepeatingGroup.fieldValue buffer fieldEntries[idx] = v at hfits
  rw [MessageView.parseU64_go_eq]
  by_cases hdigits : Ascii.AllDigits v
  . rw [digitRun_of_allDigits hdigits] at hfits
    have hvalue := congrArg UInt64.toNat (statedLength_eq_ofNat_value hdigits)
    rw [UInt64.toNat_ofNat_of_lt' hfits, Velocitas.FixParser.statedLength] at hvalue
    rw [if_pos hdigits]
    simp only [hdigits, forall_const, Option.some.injEq, forall_eq', hvalue]
  . rw [if_neg hdigits]
    simp only [hdigits, false_implies, reduceCtorEq, implies_true]

theorem countsEntries_zero (fuel idx : Nat) (d : GroupDef)
    : countsEntries buffer fieldEntries fuel 0 idx d = [] := by
  cases fuel with
  | zero => rw [countsEntries]
  | succ fuel => rw [countsEntries]

theorem Spares.parseFrom (hindexed : Indexed buffer fieldEntries) {fuel : Nat}
    (ih : Spares buffer fieldEntries fuel) (idx : Nat) (d : GroupDef)
    : Sparing (fun build => parseFrom build buffer fieldEntries (fuel + 1) idx d)
        (∀ i ∈ countsFrom buffer fieldEntries (fuel + 1) idx d, CountFits buffer fieldEntries i)
        (Velocitas.RepeatingGroup.parseFrom buffer fieldEntries (fuel + 1) idx d) := by
  unfold RepeatingGroup.parseFrom countsFrom Velocitas.RepeatingGroup.parseFrom
  by_cases hlt : idx < fieldEntries.length
  . simp only [if_pos hlt]
    rw [List.getElem?_eq_getElem hlt]
    dsimp only
    apply (sparing_index hlt).bind_of_true
    by_cases htag : fieldEntries[idx].tag ≠ d.countTag
    . simp only [if_pos htag]
      exact sparing_pure _ (by simp)
    . simp only [if_neg htag]
      have hinside := hindexed.entry_le _ (List.getElem_mem hlt)
      have hfits := @countFits_iff buffer fieldEntries idx hlt
      have hdecode := Sparing.ofFault (computes_parseUsizeFromBuf hinside)
      generalize Velocitas.RepeatingGroup.parseUsizeFromBuf buffer fieldEntries[idx] = decoded
        at hfits hdecode
      -- What the rest needs once the count is decoded.
      refine (hdecode.bind (q := ∀ count, decoded = some count →
        count.toNat ≤ fieldEntries.length - (idx + 1)
          ∧ ∀ i ∈ countsEntries buffer fieldEntries fuel count.toNat (idx + 1) d,
            CountFits buffer fieldEntries i) ?_).congr ?_
      . cases decoded with
        | none => exact sparing_pure _ (by simp)
        | some count =>
          dsimp only
          by_cases hzero : count = 0
          . simp only [if_pos hzero]
            apply sparing_pure
            simp [hzero, countsEntries_zero]
          . simp only [if_neg hzero]
            have hsize : (fieldEntries.length - (idx + 1)) * groupEntrySize ≤ maxVecBytes := by
              have hle := hindexed.length_le
              unfold maxFields at hle
              unfold groupEntrySize maxVecBytes
              omega
            apply ((Sparing.reserve hsize).bind ((ih.entries count.toNat (idx + 1) d).map _)).congr
            simp only [Option.some.injEq, forall_eq']
      . cases decoded with
        | none => simp [hfits]
        | some count =>
          simp only [Option.some.injEq, forall_eq'] at hfits ⊢
          rw [List.forall_mem_cons, hfits, and_assoc]
  . simp only [if_neg hlt]
    rw [List.getElem?_eq_none (Nat.le_of_not_lt hlt)]
    exact sparing_pure _ (by simp)

theorem Spares.parseEntries (hindexed : Indexed buffer fieldEntries) {fuel : Nat}
    (ih : Spares buffer fieldEntries fuel) (count idx : Nat) (d : GroupDef)
    : Sparing (fun build => parseEntries build buffer fieldEntries (fuel + 1) count idx d)
        (∀ i ∈ countsEntries buffer fieldEntries (fuel + 1) count idx d,
          CountFits buffer fieldEntries i)
        (Velocitas.RepeatingGroup.parseEntries buffer fieldEntries (fuel + 1) count idx d) := by
  cases count with
  | zero =>
    rw [Velocitas.RepeatingGroup.parseEntries, countsEntries]
    unfold RepeatingGroup.parseEntries
    exact sparing_pure _ (by simp)
  | succ count =>
    unfold RepeatingGroup.parseEntries countsEntries Velocitas.RepeatingGroup.parseEntries
    by_cases hlt : idx < fieldEntries.length
    . simp only [if_pos hlt]
      rw [List.getElem?_eq_getElem hlt]
      dsimp only
      apply (sparing_index hlt).bind_of_true
      by_cases htag : fieldEntries[idx].tag ≠ d.delimiterTag
      . simp only [if_pos htag]
        exact sparing_pure _ (by simp)
      . simp only [if_neg htag]
        have hinside := hindexed.entry_le _ (List.getElem_mem hlt)
        apply (Sparing.ofFault (computes_fieldValue hinside)).bind_of_true
        apply ((ih.members (idx + 1) d).bind ((ih.entries count _ d).map _)).congr
        exact List.forall_mem_append.symm
    . simp only [if_neg hlt]
      rw [List.getElem?_eq_none (Nat.le_of_not_lt hlt)]
      exact sparing_pure _ (by simp)

theorem Spares.parseMembers (hindexed : Indexed buffer fieldEntries) {fuel : Nat}
    (ih : Spares buffer fieldEntries fuel) (idx : Nat) (d : GroupDef)
    : Sparing (fun build => parseMembers build buffer fieldEntries (fuel + 1) idx d)
        (∀ i ∈ countsMembers buffer fieldEntries (fuel + 1) idx d, CountFits buffer fieldEntries i)
        (Velocitas.RepeatingGroup.parseMembers buffer fieldEntries (fuel + 1) idx d) := by
  unfold RepeatingGroup.parseMembers countsMembers Velocitas.RepeatingGroup.parseMembers
  by_cases hlt : idx < fieldEntries.length
  . simp only [if_pos hlt]
    rw [List.getElem?_eq_getElem hlt]
    dsimp only
    apply (sparing_index hlt).bind_of_true
    by_cases htag : fieldEntries[idx].tag = d.delimiterTag
    . simp only [if_pos htag]
      exact sparing_pure _ (by simp)
    . simp only [if_neg htag]
      have hinside := hindexed.entry_le _ (List.getElem_mem hlt)
      have hvalue := Sparing.ofFault (computes_fieldValue hinside)
      generalize fieldEntries[idx].tag = tag
      have hnested : Sparing
          (fun build => match d.findNested tag with
            | none => pure none
            | some nestedDef => RepeatingGroup.parseFrom build buffer fieldEntries fuel idx nestedDef)
          (∀ i ∈ match d.findNested tag with
            | none => []
            | some nestedDef => countsFrom buffer fieldEntries fuel idx nestedDef,
            CountFits buffer fieldEntries i)
          ((d.findNested tag).bind
            (Velocitas.RepeatingGroup.parseFrom buffer fieldEntries fuel idx)) := by
        cases d.findNested tag with
        | none => exact sparing_pure _ (by simp)
        | some nestedDef => exact ih.group idx nestedDef
      generalize (d.findNested tag).bind
        (Velocitas.RepeatingGroup.parseFrom buffer fieldEntries fuel idx) = nested at hnested
      cases nested with
      | some found =>
        apply (hnested.bind ((ih.members found.2 d).map _)).congr
        exact List.forall_mem_append.symm
      | none =>
        dsimp only
        by_cases hmember : d.isMember tag = true
        . simp only [if_pos hmember]
          apply (hnested.bind (hvalue.bind_of_true ((ih.members (idx + 1) d).map _))).congr
          exact List.forall_mem_append.symm
        . simp only [if_neg hmember]
          refine (hnested.bind (q := True) ?_).congr (by rw [and_true])
          exact sparing_pure _ trivial
  . simp only [if_neg hlt]
    rw [List.getElem?_eq_none (Nat.le_of_not_lt hlt)]
    exact sparing_pure _ (by simp)

theorem spares (hindexed : Indexed buffer fieldEntries) (fuel : Nat)
    : Spares buffer fieldEntries fuel := by
  induction fuel with
  | zero =>
    constructor
    case group =>
      intro idx d
      rw [countsFrom, Velocitas.RepeatingGroup.parseFrom]
      unfold parseFrom
      exact sparing_pure _ (by simp)
    case entries =>
      intro count idx d
      rw [countsEntries, Velocitas.RepeatingGroup.parseEntries]
      unfold parseEntries
      exact sparing_pure _ (by simp)
    case members =>
      intro idx d
      rw [countsMembers, Velocitas.RepeatingGroup.parseMembers]
      unfold parseMembers
      exact sparing_pure _ (by simp)
  | succ fuel ih => exact ⟨ih.parseFrom hindexed, ih.parseEntries hindexed, ih.parseMembers hindexed⟩

theorem sparing_parse {view : MessageView} (h : view.Inside) (startIndex : Nat) (d : GroupDef)
    : Sparing (fun build => parse build view.buffer view.fields startIndex d)
        (∀ i ∈ Velocitas.RepeatingGroup.countFields view.buffer view.fields startIndex d,
          CountFits view.buffer view.fields i)
        (Velocitas.RepeatingGroup.parse view.buffer view.fields startIndex d) :=
  (spares ⟨h.entry_le, h.count_le⟩ _).group startIndex d

theorem reserves_no_more_iff (parser : FixParser) (buffer : Bytes) (view : MessageView) (n : Nat)
    (hparse : parser.parse buffer = .ok (view, n)) (startIndex : Nat) (d : GroupDef)
    : (∀ build, (parse build view.buffer view.fields startIndex d).Clean)
        ↔ ∀ i ∈ Velocitas.RepeatingGroup.countFields view.buffer view.fields startIndex d,
            CountFits view.buffer view.fields i :=
  (sparing_parse (FixParser.inside_of_parse hparse) startIndex d).clean_iff

theorem parse_eq_ok_of_toOption {parser : FixParser} {buffer : Bytes} {view : MessageView} {n : Nat}
    (h : (parser.parse buffer).toOption = some (view, n))
    : parser.parse buffer = .ok (view, n) := by
  cases hparse : parser.parse buffer with
  | error e =>
    rw [hparse] at h
    contradiction
  | ok result =>
    rw [hparse] at h
    rw [Option.some.inj h]

def modestView : MessageView where
  buffer := ascii "8=FIX.4.4\x019=17\x0135=X\x01268=1\x01269=0\x0110=028\x01"
  fields := [⟨8, 2, 7⟩, ⟨9, 12, 2⟩, ⟨35, 18, 1⟩, ⟨268, 24, 1⟩, ⟨269, 30, 1⟩, ⟨10, 35, 3⟩]
  msgTypeIdx := 2
  checksumValid := true

theorem reserves_no_more_iff_modestView
    : (∀ build, (parse build modestView.buffer modestView.fields 3 mdEntriesGroup).Clean)
        ↔ ∀ i ∈ Velocitas.RepeatingGroup.countFields modestView.buffer modestView.fields 3
              mdEntriesGroup,
            CountFits modestView.buffer modestView.fields i :=
  reserves_no_more_iff .new modestView.buffer modestView 39
    (parse_eq_ok_of_toOption (by decide +kernel)) 3 mdEntriesGroup

def hostileView : MessageView where
  buffer := ascii "8=FIX.4.4\x019=30\x0135=X\x01268=18446744073709551615\x0110=238\x01"
  fields := [⟨8, 2, 7⟩, ⟨9, 12, 2⟩, ⟨35, 18, 1⟩, ⟨268, 24, 20⟩, ⟨10, 48, 3⟩]
  msgTypeIdx := 2
  checksumValid := true

-- One field is left behind the count 2^64 - 1.
theorem not_reserves_no_more
    : ¬ ∀ (parser : FixParser) (buffer : Bytes) (view : MessageView) (n : Nat),
        parser.parse buffer = .ok (view, n) → ∀ (startIndex : Nat) (d : GroupDef) (build : Build),
          (parse build view.buffer view.fields startIndex d).Clean := by
  intro h
  have hclean := h .new hostileView.buffer hostileView 52
    (parse_eq_ok_of_toOption (by decide +kernel)) 3 mdEntriesGroup .release
  have hrequest : (parse .release hostileView.buffer hostileView.fields 3
      mdEntriesGroup).reservations = [⟨18446744073709551615, 1⟩] := by
    decide +kernel
  have hle := hclean.capacity_le ⟨18446744073709551615, 1⟩ (by
    rw [hrequest]
    exact List.mem_singleton_self _)
  exact absurd hle (by decide)

end RepeatingGroup

end Checked

end Velocitas
