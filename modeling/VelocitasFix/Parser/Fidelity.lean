import VelocitasFix.Parser.Boundary
import VelocitasFix.Parser.View

/-!
This module contains the field index of a parsed message in full: what the parser records for each
field it reads, and the exact condition under which the index says what the bytes say.
-/

namespace Velocitas

-- The entry of a field that starts at `pos`, in the widths of the index.
def RawField.indexed (f : RawField) (pos : Nat) : FieldEntry where
  tag := f.tag
  offset := UInt32.ofNat (pos + f.tagText.length + 1)
  length := UInt16.ofNat f.value.length

def indexFrom : Nat → List RawField → List FieldEntry
  | _, [] => []
  | pos, f :: fs => f.indexed pos :: indexFrom (pos + f.render.length) fs

-- The entry says what the bytes say of the field `f` that starts at `pos`.
structure FieldEntry.Exact (e : FieldEntry) (buffer : Bytes) (pos : Nat) (f : RawField) : Prop where
  tag : e.tag.toNat = f.number
  offset : e.offset.toNat = pos + f.tagText.length + 1
  length : e.length.toNat = f.value.length
  value : slice buffer e.offset.toNat e.length.toNat = f.value

def ExactFrom (buffer : Bytes) : Nat → List RawField → List FieldEntry → Prop
  | _, [], [] => True
  | pos, f :: fs, e :: es => e.Exact buffer pos f ∧ ExactFrom buffer (pos + f.render.length) fs es
  | _, _, _ => False

-- The numbers of the field that starts at `pos` are in the ranges of the index.
structure RawField.Fits (f : RawField) (pos : Nat) : Prop where
  tag : f.number < 2 ^ 32
  offset : pos + f.tagText.length + 1 < 2 ^ 32
  length : f.value.length < 2 ^ 16

def FitsFrom : Nat → List RawField → Prop
  | _, [] => True
  | pos, f :: fs => f.Fits pos ∧ FitsFrom (pos + f.render.length) fs

theorem RawField.slice_value {buffer rest : Bytes} {pos : Nat} {f : RawField}
    (h : buffer.drop pos = f.render ++ rest)
    : slice buffer (pos + f.tagText.length + 1) f.value.length = f.value := by
  have hsplit : buffer.drop pos = f.tagText ++ Tags.equals :: (f.value ++ Tags.soh :: rest) := by
    simp [h, render]
  rw [slice, drop_of_drop_eq_cons (drop_of_drop_eq_append hsplit), List.take_left]

theorem RawField.exact_indexed_iff {buffer rest : Bytes} {pos : Nat} {f : RawField}
    (h : buffer.drop pos = f.render ++ rest)
    : (f.indexed pos).Exact buffer pos f ↔ f.Fits pos := by
  constructor
  . intro hexact
    obtain ⟨htag, hoffset, hlength, _⟩ := hexact
    constructor
    . rw [← htag]
      apply UInt32.toNat_lt
    . rw [← hoffset]
      apply UInt32.toNat_lt
    . rw [← hlength]
      apply UInt16.toNat_lt
  . intro hfits
    have htag : (f.indexed pos).tag.toNat = f.number := by
      change f.tag.toNat = _
      rw [f.tag_eq_ofNat_number]
      apply UInt32.toNat_ofNat_of_lt hfits.tag
    have hoffset : (f.indexed pos).offset.toNat = pos + f.tagText.length + 1 :=
      UInt32.toNat_ofNat_of_lt hfits.offset
    have hlength : (f.indexed pos).length.toNat = f.value.length :=
      UInt16.toNat_ofNat_of_lt hfits.length
    refine ⟨htag, hoffset, hlength, ?_⟩
    rw [hoffset, hlength]
    apply f.slice_value h

-- The induction is on the fields; `k` is the room that is left in the index.
theorem exactFrom_take_iff {buffer rest : Bytes} {pos : Nat} {fs : List RawField} (k : Nat)
    (h : buffer.drop pos = renderFields fs ++ rest)
    : ExactFrom buffer pos fs ((indexFrom pos fs).take k) ↔ fs.length ≤ k ∧ FitsFrom pos fs := by
  induction fs generalizing pos k with
  | nil => simp [indexFrom, ExactFrom, FitsFrom]
  | cons f fs ih =>
    rw [renderFields_cons, List.append_assoc] at h
    cases k with
    | zero => simp [ExactFrom]
    | succ k =>
      have hrest := drop_of_drop_eq_append h
      simp only [indexFrom, List.take_succ_cons, ExactFrom, FitsFrom, List.length_cons,
        f.exact_indexed_iff h, ih k hrest, Nat.succ_le_succ_iff]
      apply and_left_comm

theorem length_indexFrom (pos : Nat) (fs : List RawField)
    : (indexFrom pos fs).length = fs.length := by
  induction fs generalizing pos with
  | nil => rfl
  | cons f fs ih => rw [indexFrom, List.length_cons, List.length_cons, ih]

-- The widths of the index only ever make an entry smaller.
theorem RawField.indexed_le (f : RawField) (pos : Nat)
    : (f.indexed pos).offset.toNat + (f.indexed pos).length.toNat ≤ pos + f.render.length := by
  have hoffset : (f.indexed pos).offset.toNat ≤ pos + f.tagText.length + 1 := by
    rw [indexed, UInt32.toNat_ofNat']
    apply Nat.mod_le
  have hlength : (f.indexed pos).length.toNat ≤ f.value.length := by
    rw [indexed, UInt16.toNat_ofNat']
    apply Nat.mod_le
  rw [f.length_render]
  omega

theorem mem_indexFrom_le {pos : Nat} {fs : List RawField} {e : FieldEntry}
    (h : e ∈ indexFrom pos fs)
    : e.offset.toNat + e.length.toNat ≤ pos + (renderFields fs).length := by
  induction fs generalizing pos with
  | nil => simp [indexFrom] at h
  | cons f fs ih =>
    rw [indexFrom, List.mem_cons] at h
    rw [renderFields_cons, List.length_append]
    cases h with
    | inl heq =>
      have := f.indexed_le pos
      rw [heq]
      omega
    | inr hmem =>
      have := ih hmem
      omega

theorem count_soh_renderFields (fs : List RawField)
    : (renderFields fs).count Tags.soh = fs.length := by
  induction fs with
  | nil => rfl
  | cons f fs ih =>
    have hinit := List.count_eq_zero.mpr f.soh_not_mem_init
    rw [renderFields_cons, List.count_append, ih, f.render_eq_init_append, List.count_append, hinit,
      List.length_cons]
    simp
    omega

theorem take_take_append {α : Type} (k : Nat) (xs ys : List α)
    : (xs.take k ++ ys).take k = (xs ++ ys).take k := by
  rw [List.take_append, List.take_append, List.take_take, Nat.min_self, List.length_take]
  congr 2
  omega

namespace FixParser

theorem record_fields (st : ParseState) (f : RawField) (h : st.view.fields.length ≤ maxFields)
    : (st.record f).view.fields = (st.view.fields ++ [f.indexed st.pos]).take maxFields := by
  simp only [ParseState.record, recordField, Nat.add_sub_cancel_left, MessageView.addField]
  split
  . next hlt =>
    rw [List.take_of_length_le]
    . rfl
    . rw [List.length_append, List.length_singleton]
      omega
  . next hge =>
    have heq : st.view.fields.length = maxFields := by omega
    rw [← heq, List.take_left]

theorem foldl_record_fields (st : ParseState) (fs : List RawField)
    (h : st.view.fields.length ≤ maxFields)
    : (fs.foldl ParseState.record st).view.fields
        = (st.view.fields ++ indexFrom st.pos fs).take maxFields := by
  induction fs generalizing st with
  | nil =>
    rw [indexFrom, List.append_nil, List.take_of_length_le h]
    rfl
  | cons f fs ih =>
    have hfields := record_fields st f h
    have hle : (st.record f).view.fields.length ≤ maxFields := by
      rw [hfields, List.length_take]
      omega
    rw [List.foldl_cons, ih _ hle, hfields, ParseState.record_pos, indexFrom, take_take_append,
      List.append_assoc, List.singleton_append]

theorem finalState_fields (buffer : Bytes) (fs : List RawField)
    : (finalState buffer fs).view.fields = (indexFrom 0 fs).take maxFields := by
  apply foldl_record_fields
  apply Nat.zero_le

-- The fields of the consumed bytes are the ones that the loop read.
theorem exists_fields_of_parse {parser : FixParser} {buffer : Bytes} {view : MessageView} {n : Nat}
    (h : parser.parse buffer = .ok (view, n))
    : ∃ fs rest, buffer = renderFields fs ++ rest ∧ buffer.take n = renderFields fs
        ∧ view.fields = (indexFrom 0 fs).take maxFields := by
  obtain ⟨_, _, st, hst, _, _, rfl, rfl⟩ := parse_eq_ok.mp h
  obtain ⟨fs, rest, hbuffer, _, rfl⟩ := parseFields_eq_ok.mp hst
  have hpos := finalState_pos buffer fs
  refine ⟨fs, rest, hbuffer, ?_, finalState_fields buffer fs⟩
  change buffer.take (finalState buffer fs).pos = _
  rw [hpos, hbuffer, List.take_left]

theorem view_exact_iff {parser : FixParser} {buffer : Bytes} {view : MessageView} {n : Nat}
    (h : parser.parse buffer = .ok (view, n))
    : ∃ fs, buffer.take n = renderFields fs ∧ (buffer.take n).count Tags.soh = fs.length
        ∧ ((view.fieldCount = (buffer.take n).count Tags.soh ∧ ExactFrom buffer 0 fs view.fields)
          ↔ fs.length ≤ maxFields ∧ FitsFrom 0 fs) := by
  obtain ⟨fs, rest, hbuffer, htake, hfields⟩ := exists_fields_of_parse h
  have hcount : (buffer.take n).count Tags.soh = fs.length := by
    rw [htake, count_soh_renderFields]
  refine ⟨fs, htake, hcount, ?_⟩
  have hdrop : buffer.drop 0 = renderFields fs ++ rest := hbuffer
  rw [hcount, hfields, exactFrom_take_iff maxFields hdrop]
  constructor
  . intro hboth
    exact hboth.2
  . intro hboth
    refine ⟨?_, hboth⟩
    rw [MessageView.fieldCount, hfields, List.length_take, length_indexFrom]
    omega

theorem view_exact_iff_threeDigit
    : ∃ view, new.parse threeDigitMessage.bytes = .ok (view, 26)
        ∧ ∃ fs, threeDigitMessage.bytes.take 26 = renderFields fs
          ∧ (threeDigitMessage.bytes.take 26).count Tags.soh = fs.length
          ∧ ((view.fieldCount = (threeDigitMessage.bytes.take 26).count Tags.soh
              ∧ ExactFrom threeDigitMessage.bytes 0 fs view.fields)
            ↔ fs.length ≤ maxFields ∧ FitsFrom 0 fs) := by
  have hlen : threeDigitMessage.bytes.length = 26 := by decide +kernel
  have hm : threeDigitMessage.Accepted := by
    refine ⟨?_, ?_, ?_⟩
    all_goals decide +kernel
  obtain ⟨view, hparse⟩ := @exists_parse _ hm [] (by simp [hlen]) (by simp [hlen])
  rw [hlen, List.append_nil] at hparse
  exact ⟨view, hparse, view_exact_iff hparse⟩

theorem fieldCount_of_parse {parser : FixParser} {buffer : Bytes} {view : MessageView} {n : Nat}
    (h : parser.parse buffer = .ok (view, n))
    : view.fieldCount = min maxFields ((buffer.take n).count Tags.soh) := by
  obtain ⟨fs, _, _, htake, hfields⟩ := exists_fields_of_parse h
  rw [MessageView.fieldCount, hfields, List.length_take, length_indexFrom, htake,
    count_soh_renderFields]

-- The parser accepts a message of 513 fields and silently leaves the last one out of the index.
theorem view_not_exact
    : ∃ view n, new.parse crowdedMessage.bytes = .ok (view, n)
        ∧ (crowdedMessage.bytes.take n).count Tags.soh = 513 ∧ view.fieldCount = 512 := by
  have hm : crowdedMessage.Accepted := by
    refine ⟨?_, ?_, ?_⟩
    all_goals decide +kernel
  have hlen : crowdedMessage.bytes.length = 1556 := by decide +kernel
  have hparse := parse_new_eq_ok.mpr ⟨by omega, by omega, crowdedMessage, [],
    (List.append_nil _).symm, hm, rfl, rfl⟩
  have hcount : (crowdedMessage.bytes.take crowdedMessage.bytes.length).count Tags.soh = 513 := by
    rw [List.take_length]
    decide +kernel
  refine ⟨_, _, hparse, hcount, ?_⟩
  rw [fieldCount_of_parse hparse, hcount]
  rfl

end FixParser

end Velocitas
