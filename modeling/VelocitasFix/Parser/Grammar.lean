import VelocitasFix.Parser.Impl

/-!
This module contains the grammar of a wire buffer as the field loop reads it: a sequence of raw
fields, each a run of digits, an equals sign, a value without SOH and the SOH that ends it. It shows
that the field loop succeeds on exactly the buffers that start with such a sequence of fields and
computes what the state after each of them is.
-/

namespace Velocitas

open Ascii

@[ext]
structure RawField where
  tagText : Bytes
  value : Bytes
  digits : AllDigits tagText
  sohFree : Tags.soh ∉ value

namespace RawField

def render (f : RawField) : Bytes :=
  f.tagText ++ Tags.equals :: (f.value ++ [Tags.soh])

def tag (f : RawField) : UInt32 :=
  f.tagText.foldl (fun t b => t * 10 + (b - 48).toUInt32) 0

def number (f : RawField) : Nat := Ascii.value f.tagText

@[simp]
theorem length_render (f : RawField)
    : f.render.length = f.tagText.length + f.value.length + 2 := by
  simp only [render, List.length_append, List.length_cons, List.length_nil]
  omega

theorem tag_eq_ofNat_number (f : RawField) : f.tag = UInt32.ofNat f.number := by
  apply foldl_eq_of_value UInt32.ofNat _ f.digits
  intro n b hb
  apply UInt32.toNat_inj.mp
  simp only [UInt32.toNat_add, UInt32.toNat_mul, UInt32.toNat_ofNat', UInt8.toNat_toUInt32,
    hb.toNat_sub, UInt32.reduceToNat]
  omega

end RawField

def renderFields (fs : List RawField) : Bytes := fs.flatMap RawField.render

@[simp]
theorem renderFields_nil : renderFields [] = [] := rfl

@[simp]
theorem renderFields_cons (f : RawField) (fs : List RawField)
    : renderFields (f :: fs) = f.render ++ renderFields fs := rfl

@[simp]
theorem renderFields_append (fs gs : List RawField)
    : renderFields (fs ++ gs) = renderFields fs ++ renderFields gs := by
  simp [renderFields]

theorem statedLength_eq_ofNat_value {bs : Bytes} (h : AllDigits bs)
    : FixParser.statedLength bs = UInt64.ofNat (Ascii.value bs) := by
  apply foldl_eq_of_value UInt64.ofNat _ h
  intro n b hb
  apply UInt64.toNat_inj.mp
  simp only [UInt64.toNat_add, UInt64.toNat_mul, UInt64.toNat_ofNat', UInt8.toNat_toUInt64,
    hb.toNat_sub, UInt64.reduceToNat]
  omega

namespace FixParser

theorem scanTag_of_drop {buffer txt rest : Bytes} {pos : Nat} (tag : UInt32) (hd : AllDigits txt)
    (h : buffer.drop pos = txt ++ Tags.equals :: rest)
    : scanTag buffer tag pos =
        .ok (txt.foldl (fun t b => t * 10 + (b - 48).toUInt32) tag, pos + txt.length + 1) := by
  induction txt generalizing tag pos with
  | nil =>
    have hpos := lt_length_of_drop_eq_cons h
    unfold scanTag
    rw [dif_pos hpos, if_pos (getElem_of_drop_eq_cons h hpos)]
    rfl
  | cons b txt ih =>
    rw [allDigits_cons] at hd
    have hpos := lt_length_of_drop_eq_cons h
    have hb := getElem_of_drop_eq_cons h hpos
    have hne : b ≠ Tags.equals := by
      intro heq
      rw [heq] at hd
      exact absurd hd.1 (by decide)
    have hrange : ¬ (b < 48 || b > 57) = true := by
      have := hd.1
      simp only [IsDigit] at this
      simp [this]
    unfold scanTag
    rw [dif_pos hpos, hb, if_neg hne, if_neg hrange]
    have hdrop : buffer.drop (pos + 1) = txt ++ Tags.equals :: rest :=
      drop_of_drop_eq_cons h
    rw [ih _ hd.2 hdrop]
    simp only [List.foldl_cons, List.length_cons]
    congr 2
    omega

theorem exists_of_scanTag {buffer : Bytes} {tag tag' : UInt32} {pos pos' : Nat}
    (h : scanTag buffer tag pos = .ok (tag', pos'))
    : ∃ txt rest, AllDigits txt ∧ buffer.drop pos = txt ++ Tags.equals :: rest
        ∧ pos' = pos + txt.length + 1 := by
  unfold scanTag at h
  split at h
  . next hpos =>
    split at h
    . next heq =>
      simp only [Except.ok.injEq, Prod.mk.injEq] at h
      refine ⟨[], buffer.drop (pos + 1), allDigits_nil, ?_, ?_⟩
      . rw [List.drop_eq_getElem_cons hpos, heq]
        rfl
      . rw [← h.2]
        rfl
    . split at h
      . contradiction
      . next hrange =>
        rcases exists_of_scanTag h with ⟨txt, rest, hd, hdrop, hpos'⟩
        refine ⟨buffer[pos] :: txt, rest, ?_, ?_, ?_⟩
        . rw [allDigits_cons]
          refine ⟨?_, hd⟩
          simpa [IsDigit] using hrange
        . rw [List.drop_eq_getElem_cons hpos, hdrop]
          rfl
        . rw [hpos', List.length_cons]
          omega
  . contradiction
termination_by buffer.length - pos

theorem scanValue_of_drop {buffer value rest : Bytes} {pos : Nat} (hsoh : Tags.soh ∉ value)
    (h : buffer.drop pos = value ++ Tags.soh :: rest)
    : scanValue buffer pos = .ok (pos + value.length) := by
  induction value generalizing pos with
  | nil =>
    have hpos := lt_length_of_drop_eq_cons h
    unfold scanValue
    rw [dif_pos hpos, if_pos (getElem_of_drop_eq_cons h hpos)]
    rfl
  | cons b value ih =>
    have hpos := lt_length_of_drop_eq_cons h
    have hb := getElem_of_drop_eq_cons h hpos
    rw [List.mem_cons, not_or] at hsoh
    unfold scanValue
    rw [dif_pos hpos, hb, if_neg (Ne.symm hsoh.1)]
    have hdrop : buffer.drop (pos + 1) = value ++ Tags.soh :: rest :=
      drop_of_drop_eq_cons h
    rw [ih hsoh.2 hdrop, List.length_cons]
    congr 1
    omega

theorem exists_of_scanValue {buffer : Bytes} {pos stop : Nat}
    (h : scanValue buffer pos = .ok stop)
    : ∃ value rest, Tags.soh ∉ value ∧ buffer.drop pos = value ++ Tags.soh :: rest
        ∧ stop = pos + value.length := by
  unfold scanValue at h
  split at h
  . next hpos =>
    split at h
    . next heq =>
      simp only [Except.ok.injEq] at h
      refine ⟨[], buffer.drop (pos + 1), by simp, ?_, ?_⟩
      . rw [List.drop_eq_getElem_cons hpos, heq]
        rfl
      . rw [← h]
        rfl
    . next hne =>
      rcases exists_of_scanValue h with ⟨value, rest, hsoh, hdrop, hstop⟩
      refine ⟨buffer[pos] :: value, rest, ?_, ?_, ?_⟩
      . rw [List.mem_cons, not_or]
        exact ⟨Ne.symm hne, hsoh⟩
      . rw [List.drop_eq_getElem_cons hpos, hdrop]
        rfl
      . rw [hstop, List.length_cons]
        omega
  . contradiction
termination_by buffer.length - pos

def ParseState.record (st : ParseState) (f : RawField) : ParseState :=
  let valueStart := st.pos + f.tagText.length + 1
  recordField st f.tag f.value valueStart (valueStart + f.value.length)

@[simp]
theorem ParseState.record_pos (st : ParseState) (f : RawField)
    : (st.record f).pos = st.pos + f.render.length := by
  simp only [record, recordField, RawField.length_render]
  omega

theorem parseField_of_drop {buffer rest : Bytes} {st : ParseState} {f : RawField}
    (h : buffer.drop st.pos = f.render ++ rest)
    (hcheck : checkStructure st.fieldNum f.tag = .ok ())
    : parseField buffer st = .ok (f.tag, st.record f) := by
  have htag : buffer.drop st.pos = f.tagText ++ Tags.equals :: (f.value ++ Tags.soh :: rest) := by
    simp [h, RawField.render]
  have hval : buffer.drop (st.pos + f.tagText.length + 1) = f.value ++ Tags.soh :: rest := by
    have := drop_of_drop_eq_append htag
    exact drop_of_drop_eq_cons this
  rw [parseField_eq_ok]
  refine ⟨_, _, scanTag_of_drop 0 f.digits htag, scanValue_of_drop f.sohFree hval, hcheck, ?_⟩
  have hslice : slice buffer (st.pos + f.tagText.length + 1) f.value.length = f.value := by
    rw [slice, hval]
    simp
  simp only [ParseState.record, RawField.tag, Nat.add_sub_cancel_left, hslice]

theorem exists_of_parseField {buffer : Bytes} {st st' : ParseState} {tag : UInt32}
    (h : parseField buffer st = .ok (tag, st'))
    : ∃ (f : RawField) (rest : Bytes), buffer.drop st.pos = f.render ++ rest
        ∧ checkStructure st.fieldNum f.tag = .ok () ∧ tag = f.tag ∧ st' = st.record f := by
  have hok := h
  rw [parseField_eq_ok] at h
  rcases h with ⟨valueStart, stop, htag, hval, hcheck, -⟩
  rcases exists_of_scanTag htag with ⟨txt, rest, hd, hdrop, rfl⟩
  rcases exists_of_scanValue hval with ⟨value, rest', hsoh, hdrop', rfl⟩
  have hrest : rest = value ++ Tags.soh :: rest' := by
    rw [← hdrop']
    have := drop_of_drop_eq_append hdrop
    exact (drop_of_drop_eq_cons this).symm
  let f : RawField := ⟨txt, value, hd, hsoh⟩
  have hrender : buffer.drop st.pos = f.render ++ rest' := by
    simp [f, hdrop, hrest, RawField.render]
  have hftag : tag = f.tag := by
    rw [scanTag_of_drop 0 hd hdrop] at htag
    simp only [Except.ok.injEq, Prod.mk.injEq] at htag
    exact htag.1.symm
  have hfield := parseField_of_drop hrender (hftag ▸ hcheck)
  rw [hok] at hfield
  simp only [Except.ok.injEq, Prod.mk.injEq] at hfield
  exact ⟨f, rest', hrender, hftag ▸ hcheck, hftag, hfield.2⟩

/-
The field runs the loop accepts from field number `n` on: it is left at the first field with the
checksum tag and otherwise at the end of the buffer.
-/
def FieldRun : Nat → List RawField → Bytes → Prop
  | _, [], rest => rest = []
  | n, f :: fs, rest =>
    checkStructure n f.tag = .ok ()
      ∧ if f.tag = Tags.checksum then fs = [] else FieldRun (n + 1) fs rest

theorem ParseState.record_fieldNum {st : ParseState} {f : RawField} (h : f.tag ≠ Tags.checksum)
    : (st.record f).fieldNum = st.fieldNum + 1 := by
  simp [record, recordField, h]

theorem parseFields_of_parseField_error {buffer : Bytes} {st : ParseState} {e : ParseError}
    (hpos : st.pos < buffer.length) (h : parseField buffer st = .error e)
    : parseFields buffer st = .error e := by
  unfold parseFields
  rw [if_pos hpos]
  split
  . next heq =>
    rw [h] at heq
    rw [Except.error.inj heq]
  . next heq =>
    rw [h] at heq
    contradiction

theorem parseFields_of_parseField {buffer : Bytes} {st st' : ParseState} {tag : UInt32}
    (hpos : st.pos < buffer.length) (h : parseField buffer st = .ok (tag, st'))
    : parseFields buffer st
        =
      if tag = Tags.checksum then .ok st' else parseFields buffer st' := by
  conv => lhs; unfold parseFields
  rw [if_pos hpos]
  split
  . next heq =>
    rw [h] at heq
    contradiction
  . next heq =>
    rw [h] at heq
    simp only [Except.ok.injEq, Prod.mk.injEq] at heq
    rcases heq with ⟨rfl, rfl⟩
    rfl

theorem parseFields_of_drop {buffer rest : Bytes} {st : ParseState} {fs : List RawField}
    (h : buffer.drop st.pos = renderFields fs ++ rest) (hrun : FieldRun st.fieldNum fs rest)
    : parseFields buffer st = .ok (fs.foldl ParseState.record st) := by
  induction fs generalizing st with
  | nil =>
    simp only [FieldRun] at hrun
    simp only [hrun, renderFields_nil, List.append_nil, List.drop_eq_nil_iff] at h
    unfold parseFields
    rw [if_neg (by omega)]
    rfl
  | cons f fs ih =>
    rcases hrun with ⟨hcheck, hrun⟩
    rw [renderFields_cons, List.append_assoc] at h
    have hpos : st.pos < buffer.length := by
      apply lt_length_of_drop_ne_nil
      rw [h]
      simp [RawField.render]
    rw [parseFields_of_parseField hpos (parseField_of_drop h hcheck)]
    split
    . next hsum =>
      rw [if_pos hsum] at hrun
      simp [hrun]
    . next hsum =>
      rw [if_neg hsum] at hrun
      apply ih
      . rw [ParseState.record_pos]
        exact drop_of_drop_eq_append h
      . rw [ParseState.record_fieldNum hsum]
        exact hrun

theorem exists_of_parseFields {buffer : Bytes} {st st' : ParseState} (hle : st.pos ≤ buffer.length)
    (h : parseFields buffer st = .ok st')
    : ∃ fs rest, buffer.drop st.pos = renderFields fs ++ rest ∧ FieldRun st.fieldNum fs rest
        ∧ st' = fs.foldl ParseState.record st := by
  unfold parseFields at h
  split at h
  . next hpos =>
    split at h
    . contradiction
    . next tag st1 hfield =>
      rcases exists_of_parseField hfield with ⟨f, rest, hdrop, hcheck, rfl, rfl⟩
      dsimp at h
      split at h
      . next hsum =>
        simp only [Except.ok.injEq] at h
        refine ⟨[f], rest, ?_, ?_, ?_⟩
        . simp [hdrop]
        . exact ⟨hcheck, by simp [hsum]⟩
        . simp [← h]
      . next hsum =>
        have hlt := lt_of_parseField hfield
        have hle' : (st.record f).pos ≤ buffer.length := by
          have := congrArg List.length hdrop
          simp only [List.length_drop, List.length_append] at this
          rw [ParseState.record_pos]
          omega
        rcases exists_of_parseFields hle' h with ⟨fs, rest', hdrop', hrun, rfl⟩
        refine ⟨f :: fs, rest', ?_, ?_, rfl⟩
        . rw [ParseState.record_pos, drop_of_drop_eq_append hdrop] at hdrop'
          simp [hdrop, hdrop']
        . rw [ParseState.record_fieldNum hsum] at hrun
          simp [FieldRun, hcheck, hsum, hrun]
  . next hpos =>
    simp only [Except.ok.injEq] at h
    refine ⟨[], [], ?_, rfl, h.symm⟩
    simp only [renderFields_nil, List.append_nil, List.drop_eq_nil_iff]
    omega
termination_by buffer.length - st.pos

theorem parseFields_eq_ok {buffer : Bytes} {st : ParseState}
    : parseFields buffer (.init buffer) = .ok st
        ↔
      ∃ fs rest, buffer = renderFields fs ++ rest ∧ FieldRun 0 fs rest
        ∧ st = fs.foldl ParseState.record (.init buffer) := by
  constructor
  . intro h
    exact exists_of_parseFields (Nat.zero_le _) h
  . intro h
    rcases h with ⟨fs, rest, hbuf, hrun, rfl⟩
    exact parseFields_of_drop hbuf hrun

end FixParser

end Velocitas
