import VelocitasFix.Parser.Trailing

/-!
This module contains the two ways to read the type of a message from its view: the cached index, which
follows the last field with the tag, and the search, which finds the first one.
-/

namespace Velocitas

open Ascii

def FieldEntry.value (e : FieldEntry) (buffer : Bytes) : Bytes :=
  slice buffer e.offset.toNat e.length.toNat

namespace MessageView

def typeEntries (view : MessageView) : List FieldEntry :=
  view.fields.filter (·.tag = Tags.msgType)

-- The cached index stands at the last entry of the type, if there is one.
def TypeCached (view : MessageView) : Prop :=
  ∀ e ∈ view.typeEntries.getLast?, view.fields[view.msgTypeIdx]? = some e

theorem typeCached_new (buffer : Bytes) : (new buffer).TypeCached := by
  intro e he
  simp [typeEntries, new] at he

theorem TypeCached.addField {view : MessageView} (h : view.TypeCached) (tag offset : UInt32)
    (length : UInt16)
    : (view.addField tag offset length).TypeCached := by
  unfold MessageView.addField
  split
  . intro e he
    by_cases htag : tag = Tags.msgType
    . simp only [typeEntries, List.filter_append, List.filter_cons, htag, decide_true, ↓reduceIte,
        List.filter_nil, List.getLast?_concat, Option.mem_some_iff] at he
      simp [← he, htag]
    . simp only [typeEntries, List.filter_append, List.filter_cons, htag, decide_false,
        Bool.false_eq_true, ↓reduceIte, List.filter_nil, List.append_nil] at he
      have hidx := h e he
      have hlt : view.msgTypeIdx < view.fields.length := by
        rw [List.getElem?_eq_some_iff] at hidx
        exact hidx.1
      simp only [htag, ↓reduceIte]
      rw [List.getElem?_append_left hlt, hidx]
  . exact h

theorem getField_msgType (view : MessageView)
    : view.getField Tags.msgType = view.typeEntries.head?.map (·.value view.buffer) := by
  rw [getField, typeEntries, List.head?_filter]
  rfl

theorem TypeCached.msgType {view : MessageView} (h : view.TypeCached)
    : view.msgType = view.typeEntries.getLast?.map (·.value view.buffer) := by
  cases hlast : view.typeEntries.getLast? with
  | none =>
    -- No entry has the tag, so both the cache and the search miss.
    rw [List.getLast?_eq_none_iff] at hlast
    have hfield : view.getField Tags.msgType = none := by
      rw [getField_msgType, hlast]
      rfl
    unfold MessageView.msgType
    split
    . next e he =>
      split
      . next htag =>
        have hmem : e ∈ view.typeEntries := by
          rw [typeEntries, List.mem_filter]
          exact ⟨List.mem_of_getElem? he, by simp [htag]⟩
        rw [hlast] at hmem
        contradiction
      . exact hfield
    . exact hfield
  | some e =>
    have hidx := h e hlast
    have hmem := List.mem_of_getLast? hlast
    rw [typeEntries, List.mem_filter] at hmem
    have htag : e.tag = Tags.msgType := by simpa using hmem.2
    unfold MessageView.msgType
    rw [hidx]
    dsimp
    rw [if_pos htag]
    rfl

end MessageView

namespace FixParser

theorem typeCached_foldl_record {st : ParseState} (h : st.view.TypeCached) (fs : List RawField)
    : (fs.foldl ParseState.record st).view.TypeCached := by
  induction fs generalizing st with
  | nil => exact h
  | cons f fs ih =>
    rw [List.foldl_cons]
    apply ih
    apply h.addField

theorem typeCached_of_parse {parser : FixParser} {buffer : Bytes} {view : MessageView} {n : Nat}
    (h : parser.parse buffer = .ok (view, n))
    : view.TypeCached := by
  obtain ⟨_, _, st, hst, _, _, rfl, _⟩ := parse_eq_ok.mp h
  obtain ⟨fs, _, _, _, rfl⟩ := parseFields_eq_ok.mp hst
  exact typeCached_foldl_record (MessageView.typeCached_new buffer) fs

end FixParser

-- What the index holds of the fields with tag 35, in the order of the message.
def recordedTypes (buffer : Bytes) (fs : List RawField) : List Bytes :=
  (((indexFrom 0 fs).take maxFields).filter (·.tag = Tags.msgType)).map (·.value buffer)

structure TypeUnambiguous (buffer : Bytes) (f8 f9 f35 : RawField) (fs : List RawField) : Prop where
  recorded : (f35.indexed (f8.render.length + f9.render.length)).value buffer = f35.value
  last : (recordedTypes buffer (f8 :: f9 :: f35 :: fs)).getLast? = some f35.value

theorem head?_recordedTypes (buffer : Bytes) {f8 f9 f35 : RawField} (fs : List RawField)
    (h8 : f8.tag = Tags.beginString) (h9 : f9.tag = Tags.bodyLength) (h35 : f35.tag = Tags.msgType)
    : (recordedTypes buffer (f8 :: f9 :: f35 :: fs)).head?
        = some ((f35.indexed (f8.render.length + f9.render.length)).value buffer) := by
  have hne8 : ¬ (f8.indexed 0).tag = Tags.msgType := by
    change ¬ f8.tag = _
    rw [h8]
    decide
  have hne9 : ¬ (f9.indexed (0 + f8.render.length)).tag = Tags.msgType := by
    change ¬ f9.tag = _
    rw [h9]
    decide
  have heq35 : (f35.indexed (0 + f8.render.length + f9.render.length)).tag = Tags.msgType := h35
  have htake : (indexFrom 0 (f8 :: f9 :: f35 :: fs)).take maxFields
      = f8.indexed 0 :: f9.indexed (0 + f8.render.length)
        :: f35.indexed (0 + f8.render.length + f9.render.length)
        :: (indexFrom (0 + f8.render.length + f9.render.length + f35.render.length) fs).take 509 := by
    rfl
  rw [recordedTypes, htake, List.filter_cons, if_neg (by simpa using hne8), List.filter_cons,
    if_neg (by simpa using hne9), List.filter_cons, if_pos (by simpa using heq35), List.map_cons,
    List.head?_cons, Nat.zero_add]

theorem RawField.value_indexed {buffer rest : Bytes} {pos : Nat} {f : RawField}
    (h : buffer.drop pos = f.render ++ rest) (hmax : buffer.length ≤ 65536)
    : (f.indexed pos).value buffer = f.value := by
  have hbound := congrArg List.length h
  simp only [List.length_drop, List.length_append, f.length_render] at hbound
  have hoffset : (f.indexed pos).offset.toNat = pos + f.tagText.length + 1 := by
    rw [indexed, UInt32.toNat_ofNat', Nat.mod_eq_of_lt (by omega)]
  have hlength : (f.indexed pos).length.toNat = f.value.length := by
    rw [indexed, UInt16.toNat_ofNat', Nat.mod_eq_of_lt (by omega)]
  rw [FieldEntry.value, hoffset, hlength, f.slice_value h]

theorem map_value_filter_indexFrom {buffer rest : Bytes} {pos : Nat} {fs : List RawField} (k : Nat)
    (h : buffer.drop pos = renderFields fs ++ rest) (hmax : buffer.length ≤ 65536)
    : (((indexFrom pos fs).take k).filter (·.tag = Tags.msgType)).map (·.value buffer)
        = ((fs.take k).filter (·.tag = Tags.msgType)).map RawField.value := by
  induction fs generalizing pos k with
  | nil => simp [indexFrom]
  | cons f fs ih =>
    rw [renderFields_cons, List.append_assoc] at h
    cases k with
    | zero => simp
    | succ k =>
      have htag : (f.indexed pos).tag = f.tag := rfl
      rw [indexFrom, List.take_succ_cons, List.take_succ_cons, List.filter_cons, List.filter_cons,
        htag]
      split
      . rw [List.map_cons, List.map_cons, f.value_indexed h hmax, ih k (drop_of_drop_eq_append h)]
      . rw [ih k (drop_of_drop_eq_append h)]

-- Up to the default size of a message the widths of the index do not matter.
theorem typeUnambiguous_iff {buffer rest : Bytes} {f8 f9 f35 : RawField} {fs : List RawField}
    (h : buffer = renderFields (f8 :: f9 :: f35 :: fs) ++ rest) (hmax : buffer.length ≤ 65536)
    : TypeUnambiguous buffer f8 f9 f35 fs
        ↔
      (((f8 :: f9 :: f35 :: fs).take maxFields).filter (·.tag = Tags.msgType)).getLast?.map
        RawField.value = some f35.value := by
  have htypes : recordedTypes buffer (f8 :: f9 :: f35 :: fs)
      = (((f8 :: f9 :: f35 :: fs).take maxFields).filter (·.tag = Tags.msgType)).map
        RawField.value :=
    map_value_filter_indexFrom maxFields h hmax
  constructor
  . intro hcond
    have hlast := hcond.last
    rw [htypes, List.getLast?_map] at hlast
    exact hlast
  . intro hlast
    constructor
    . have hdrop : buffer.drop (f8.render.length + f9.render.length)
          = f35.render ++ (renderFields fs ++ rest) := by
        rw [h, ← List.length_append]
        simp only [renderFields_cons, List.append_assoc]
        rw [← List.append_assoc, List.drop_left]
      apply f35.value_indexed hdrop hmax
    . rw [htypes, List.getLast?_map, hlast]

namespace FixParser

theorem exists_of_fieldRun_of_three {fs : List RawField} {rest : Bytes} (h : FieldRun 0 fs rest)
    (hthree : 3 ≤ fs.length)
    : ∃ f8 f9 f35 fs', fs = f8 :: f9 :: f35 :: fs' ∧ f8.tag = Tags.beginString
        ∧ f9.tag = Tags.bodyLength ∧ f35.tag = Tags.msgType := by
  match fs, hthree with
  | f8 :: f9 :: f35 :: fs, _ =>
    rcases h with ⟨h8, h⟩
    have htag8 := (LaxMessage.checkStructure_eq_ok.mp h8).1 rfl
    rw [htag8, if_neg (by decide)] at h
    rcases h with ⟨h9, h⟩
    have htag9 := (LaxMessage.checkStructure_eq_ok.mp h9).2.1 rfl
    rw [htag9, if_neg (by decide)] at h
    rcases h with ⟨h35, _⟩
    have htag35 := (LaxMessage.checkStructure_eq_ok.mp h35).2.2 rfl
    exact ⟨f8, f9, f35, fs, rfl, htag8, htag9, htag35⟩

theorem msgType_agrees_iff {parser : FixParser} {buffer : Bytes} {view : MessageView} {n : Nat}
    (h : parser.parse buffer = .ok (view, n)) (hthree : 3 ≤ view.fieldCount)
    : ∃ f8 f9 f35 fs, buffer.take n = renderFields (f8 :: f9 :: f35 :: fs)
        ∧ ((view.msgType = view.getField Tags.msgType
              ∧ view.getField Tags.msgType = some f35.value)
          ↔ TypeUnambiguous buffer f8 f9 f35 fs) := by
  have hcached := (typeCached_of_parse h).msgType
  have hbuffer := buffer_of_parse h
  obtain ⟨_, _, st, hst, _, _, hview, rfl⟩ := parse_eq_ok.mp h
  obtain ⟨fs, rest, hsplit, hrun, rfl⟩ := parseFields_eq_ok.mp hst
  have hfields : view.fields = (indexFrom 0 fs).take maxFields := by
    rw [hview]
    apply finalState_fields
  have hlen : 3 ≤ fs.length := by
    rw [MessageView.fieldCount, hfields, List.length_take, length_indexFrom] at hthree
    omega
  obtain ⟨f8, f9, f35, fs, rfl, h8, h9, h35⟩ := exists_of_fieldRun_of_three hrun hlen
  have htypes : view.typeEntries.map (·.value view.buffer)
      = recordedTypes buffer (f8 :: f9 :: f35 :: fs) := by
    rw [MessageView.typeEntries, hfields, hbuffer]
    rfl
  have hfirst : view.getField Tags.msgType
      = some ((f35.indexed (f8.render.length + f9.render.length)).value buffer) := by
    rw [view.getField_msgType, ← List.head?_map, htypes, head?_recordedTypes buffer fs h8 h9 h35]
  have hlast : view.msgType = (recordedTypes buffer (f8 :: f9 :: f35 :: fs)).getLast? := by
    rw [hcached, ← List.getLast?_map, htypes]
  refine ⟨f8, f9, f35, fs, ?_, ?_⟩
  . have hpos := finalState_pos buffer (f8 :: f9 :: f35 :: fs)
    rw [finalState] at hpos
    rw [hpos, hsplit, List.take_left]
  . rw [hfirst, hlast]
    constructor
    . intro hboth
      rcases hboth with ⟨hagree, hvalue⟩
      rw [Option.some.injEq] at hvalue
      exact ⟨hvalue, by rw [hagree, hvalue]⟩
    . intro hcond
      rw [hcond.last, hcond.recorded]
      exact ⟨rfl, rfl⟩

theorem msgType_agrees_iff_threeDigit
    : ∃ view, new.parse threeDigitMessage.bytes = .ok (view, 26) ∧ 3 ≤ view.fieldCount
        ∧ ∃ f8 f9 f35 fs, threeDigitMessage.bytes.take 26 = renderFields (f8 :: f9 :: f35 :: fs)
          ∧ ((view.msgType = view.getField Tags.msgType
                ∧ view.getField Tags.msgType = some f35.value)
            ↔ TypeUnambiguous threeDigitMessage.bytes f8 f9 f35 fs) := by
  have hlen : threeDigitMessage.bytes.length = 26 := by decide +kernel
  have hm : threeDigitMessage.Accepted := by
    refine ⟨?_, ?_, ?_⟩
    all_goals decide +kernel
  obtain ⟨view, hparse⟩ := @exists_parse _ hm [] (by simp [hlen]) (by simp [hlen])
  rw [hlen, List.append_nil] at hparse
  have hthree : 3 ≤ view.fieldCount := by
    rw [fieldCount_of_parse hparse]
    decide +kernel
  exact ⟨view, hparse, hthree, msgType_agrees_iff hparse hthree⟩

-- An order to whoever looks the type up, and a Logon to the engine.
theorem msgType_not_agrees
    : ∃ view, new.parse retypedMessage.bytes = .ok (view, retypedMessage.bytes.length)
        ∧ view.fieldCount = 5 ∧ view.msgType = some (ascii "A")
        ∧ view.getField Tags.msgType = some (ascii "D") := by
  have hlen : retypedMessage.bytes.length = 32 := by decide +kernel
  have hm : retypedMessage.Accepted := by
    refine ⟨?_, ?_, ?_⟩
    all_goals decide +kernel
  have hparse := parse_new_eq_ok.mpr ⟨by omega, by omega, retypedMessage, [],
    (List.append_nil _).symm, hm, rfl, rfl⟩
  refine ⟨_, hparse, ?_, ?_, ?_⟩
  all_goals decide +kernel

end FixParser

end Velocitas
