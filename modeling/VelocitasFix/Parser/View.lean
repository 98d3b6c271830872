import VelocitasFix.Parser.Acceptance

/-!
This module contains the field index that the parser builds: below the capacity of the view and the
range of the offsets it lists every field with the exact slice of its value.
-/

namespace Velocitas

def MessageView.entries (view : MessageView) : List (UInt32 × Bytes) :=
  view.fields.map fun e => (e.tag, view.entryValue e)

def RawField.entry (f : RawField) : UInt32 × Bytes := (f.tag, f.value)

theorem MessageView.entries_addField {view : MessageView} (h : view.fields.length < maxFields)
    (tag offset : UInt32) (length : UInt16)
    : (view.addField tag offset length).entries
        = view.entries ++ [(tag, slice view.buffer offset.toNat length.toNat)] := by
  simp [addField, h, entries, entryValue]

theorem MessageView.buffer_addField (view : MessageView) (tag offset : UInt32) (length : UInt16)
    : (view.addField tag offset length).buffer = view.buffer := by
  unfold addField
  split
  . rfl
  . rfl

theorem MessageView.length_fields_addField_le (view : MessageView) (tag offset : UInt32)
    (length : UInt16)
    : (view.addField tag offset length).fields.length ≤ view.fields.length + 1 := by
  unfold addField
  split
  . simp
  . omega

namespace FixParser

theorem ParseState.record_buffer (st : ParseState) (f : RawField)
    : (st.record f).view.buffer = st.view.buffer :=
  st.view.buffer_addField _ _ _

theorem buffer_foldl_record (st : ParseState) (fs : List RawField)
    : (fs.foldl ParseState.record st).view.buffer = st.view.buffer := by
  induction fs generalizing st with
  | nil => rfl
  | cons f fs ih => rw [List.foldl_cons, ih, st.record_buffer]

theorem finalState_buffer (buffer : Bytes) (fs : List RawField)
    : (finalState buffer fs).view.buffer = buffer :=
  buffer_foldl_record (.init buffer) fs

theorem buffer_of_parse {parser : FixParser} {buffer : Bytes} {view : MessageView} {n : Nat}
    (h : parser.parse buffer = .ok (view, n))
    : view.buffer = buffer := by
  obtain ⟨_, _, st, hst, _, _, rfl, _⟩ := parse_eq_ok.mp h
  obtain ⟨fs, _, _, _, rfl⟩ := parseFields_eq_ok.mp hst
  apply finalState_buffer

theorem ParseState.record_entries {st : ParseState} {f : RawField} {rest : Bytes}
    (hcap : st.view.fields.length < maxFields) (hlen : st.view.buffer.length ≤ 65536)
    (hdrop : st.view.buffer.drop st.pos = f.render ++ rest)
    : (st.record f).view.entries = st.view.entries ++ [f.entry] := by
  have hbound := congrArg List.length hdrop
  simp only [List.length_drop, List.length_append, RawField.length_render] at hbound
  have hvalue : slice st.view.buffer (st.pos + f.tagText.length + 1) f.value.length = f.value := by
    have hsplit : st.view.buffer.drop st.pos
        = f.tagText ++ Tags.equals :: (f.value ++ Tags.soh :: rest) := by
      simp [hdrop, RawField.render]
    rw [slice, drop_of_drop_eq_cons (drop_of_drop_eq_append hsplit), List.take_left]
  have hoffset : (UInt32.ofNat (st.pos + f.tagText.length + 1)).toNat
      = st.pos + f.tagText.length + 1 := by
    rw [UInt32.toNat_ofNat', Nat.mod_eq_of_lt (by omega)]
  have hlength : (UInt16.ofNat f.value.length).toNat = f.value.length := by
    rw [UInt16.toNat_ofNat', Nat.mod_eq_of_lt (by omega)]
  simp only [record, recordField, Nat.add_sub_cancel_left]
  rw [MessageView.entries_addField hcap, hoffset, hlength, hvalue]
  rfl

theorem foldl_record_entries {st : ParseState} {fs : List RawField} {rest : Bytes}
    (hcap : st.view.fields.length + fs.length ≤ maxFields) (hlen : st.view.buffer.length ≤ 65536)
    (hdrop : st.view.buffer.drop st.pos = renderFields fs ++ rest)
    : (fs.foldl ParseState.record st).view.entries = st.view.entries ++ fs.map RawField.entry := by
  induction fs generalizing st with
  | nil => simp
  | cons f fs ih =>
    rw [renderFields_cons, List.append_assoc] at hdrop
    rw [List.length_cons] at hcap
    have hcount : (st.record f).view.fields.length ≤ st.view.fields.length + 1 :=
      st.view.length_fields_addField_le _ _ _
    have hnext : (st.record f).view.buffer.drop (st.record f).pos = renderFields fs ++ rest := by
      rw [st.record_buffer, st.record_pos]
      exact drop_of_drop_eq_append hdrop
    rw [List.foldl_cons, ih (by omega) (by rw [st.record_buffer]; exact hlen) hnext,
      ParseState.record_entries (by omega) hlen hdrop]
    simp

theorem finalState_entries {fs : List RawField} {rest : Bytes} (hcap : fs.length ≤ maxFields)
    (hlen : (renderFields fs ++ rest).length ≤ 65536)
    : (finalState (renderFields fs ++ rest) fs).view.entries = fs.map RawField.entry := by
  have hinit : (ParseState.init (renderFields fs ++ rest)).view.entries = [] := rfl
  unfold finalState
  rw [@foldl_record_entries _ fs rest (by simpa [ParseState.init, MessageView.new] using hcap)
    hlen rfl, hinit]
  rfl

-- Whether or not there is room for all of them, what is recorded is a field.
theorem mem_entries_foldl_record {st : ParseState} {fs : List RawField} {rest : Bytes}
    {entry : UInt32 × Bytes} (hlen : st.view.buffer.length ≤ 65536)
    (hdrop : st.view.buffer.drop st.pos = renderFields fs ++ rest)
    (h : entry ∈ (fs.foldl ParseState.record st).view.entries)
    : entry ∈ st.view.entries ∨ ∃ f ∈ fs, entry = f.entry := by
  induction fs generalizing st with
  | nil => exact .inl h
  | cons f fs ih =>
    rw [renderFields_cons, List.append_assoc] at hdrop
    have hnext : (st.record f).view.buffer.drop (st.record f).pos = renderFields fs ++ rest := by
      rw [st.record_buffer, st.record_pos]
      exact drop_of_drop_eq_append hdrop
    rw [List.foldl_cons] at h
    rcases ih (by rw [st.record_buffer]; exact hlen) hnext h with h | ⟨g, hg, h⟩
    . by_cases hcap : st.view.fields.length < maxFields
      . rw [ParseState.record_entries hcap hlen hdrop, List.mem_append, List.mem_singleton] at h
        cases h with
        | inl h => exact .inl h
        | inr h => exact .inr ⟨f, List.mem_cons_self, h⟩
      . left
        simpa [ParseState.record, recordField, MessageView.addField, hcap] using h
    . exact .inr ⟨g, List.mem_cons_of_mem _ hg, h⟩

theorem sohFree_of_mem_entries {buffer : Bytes} {view : MessageView} {n : Nat}
    {entry : UInt32 × Bytes} (h : new.parse buffer = .ok (view, n)) (hentry : entry ∈ view.entries)
    : Tags.soh ∉ entry.2 := by
  obtain ⟨_, hlen, m, rest, hbuffer, _, rfl, _⟩ := parse_new_eq_ok.mp h
  have hdrop : (ParseState.init buffer).view.buffer.drop (ParseState.init buffer).pos
      = renderFields m.fields ++ rest := hbuffer
  rcases mem_entries_foldl_record hlen hdrop hentry with hnil | ⟨f, _, rfl⟩
  . exact absurd hnil List.not_mem_nil
  . exact f.sohFree

end FixParser

end Velocitas
