import VelocitasFix.Parser.Fidelity

/-!
This module contains the independence of the parser from what follows a message: the bytes up to the
end of an accepted message decide the result, whatever stands behind them.
-/

namespace Velocitas

namespace FixParser

-- The index points into the consumed bytes only.
theorem entry_le_of_parse {parser : FixParser} {buffer : Bytes} {view : MessageView} {n : Nat}
    (h : parser.parse buffer = .ok (view, n)) {e : FieldEntry} (he : e ∈ view.fields)
    : e.offset.toNat + e.length.toNat ≤ n := by
  obtain ⟨_, _, st, hst, _, _, rfl, rfl⟩ := parse_eq_ok.mp h
  obtain ⟨fs, _, _, _, rfl⟩ := parseFields_eq_ok.mp hst
  have hfields : e ∈ (indexFrom 0 fs).take maxFields := by
    rw [← finalState_fields buffer fs]
    exact he
  have hle := mem_indexFrom_le (List.mem_of_mem_take hfields)
  have hpos := finalState_pos buffer fs
  rw [finalState] at hpos
  omega

theorem finalState_entries_congr {buffer other : Bytes} {fs : List RawField}
    (htake : other.take (renderFields fs).length = buffer.take (renderFields fs).length)
    : (finalState other fs).view.entries = (finalState buffer fs).view.entries := by
  rw [MessageView.entries, MessageView.entries, finalState_fields, finalState_fields]
  apply List.map_congr_left
  intro e he
  have hle := mem_indexFrom_le (List.mem_of_mem_take he)
  rw [MessageView.entryValue, MessageView.entryValue, finalState_buffer, finalState_buffer,
    slice_congr_of_take htake (by omega)]

theorem parse_of_take {buffer other : Bytes} {view : MessageView} {n : Nat}
    (h : new.parse buffer = .ok (view, n)) (htake : other.take n = buffer.take n)
    (hmin : 20 ≤ other.length) (hmax : other.length ≤ 65536)
    : ∃ view', new.parse other = .ok (view', n) ∧ view'.entries = view.entries := by
  obtain ⟨_, _, m, rest, rfl, hm, rfl, rfl⟩ := parse_new_eq_ok.mp h
  have hother : other = m.bytes ++ other.drop m.bytes.length := by
    have hsplit := List.take_append_drop m.bytes.length other
    rw [htake, List.take_left] at hsplit
    exact hsplit.symm
  refine ⟨(finalState other m.fields).view.setChecksumValid true, ?_, ?_⟩
  . apply parse_new_eq_ok.mpr
    exact ⟨hmin, hmax, m, _, hother, hm, rfl, rfl⟩
  . apply finalState_entries_congr htake

-- A message on its own, and the same message with the start of a trailer behind it.
theorem parse_of_take_threeDigit
    : ∃ view, new.parse threeDigitMessage.bytes = .ok (view, 26)
        ∧ ∃ view', new.parse (threeDigitMessage.bytes ++ Tags.soh :: ascii "10=") = .ok (view', 26)
          ∧ view'.entries = view.entries := by
  have hlen : threeDigitMessage.bytes.length = 26 := by decide +kernel
  have hm : threeDigitMessage.Accepted := by
    refine ⟨?_, ?_, ?_⟩
    all_goals decide +kernel
  obtain ⟨view, hparse⟩ := @exists_parse _ hm [] (by simp [hlen]) (by simp [hlen])
  rw [hlen, List.append_nil] at hparse
  refine ⟨view, hparse, parse_of_take hparse ?_ ?_ ?_⟩
  . rw [← hlen, List.take_left, List.take_length]
  . rw [List.length_append, hlen]
    omega
  . rw [List.length_append, hlen]
    decide

end FixParser

end Velocitas
