import VelocitasFix.Cluster.Impl
import VelocitasFix.Data.Fault
import VelocitasFix.Data.SelfDelimiting

/-!
This module contains the codec of session states: which byte sequences decode to a state, and that no
byte is read outside of them.
-/

namespace Velocitas

namespace ReplicatedSessionState

-- The lengths of the strings fit the `u16` that stands before each of them.
structure Short (s : ReplicatedSessionState) : Prop where
  sessionId : (Utf8.encode s.sessionId).length < 256 ^ 2
  senderCompId : (Utf8.encode s.senderCompId).length < 256 ^ 2
  targetCompId : (Utf8.encode s.targetCompId).length < 256 ^ 2

theorem readStr_of_drop {data rest : Bytes} {offset : Nat} {str : String}
    (h : (Utf8.encode str).length < 256 ^ 2)
    (hdrop : data.drop offset = LengthPrefixed.write 2 (Utf8.encode str) ++ rest)
    : readStr data offset
      = some (str, offset + (LengthPrefixed.write 2 (Utf8.encode str)).length) := by
  rw [readStr, LengthPrefixed.read_of_drop (by decide) h hdrop, Option.bind_eq_bind, Option.bind_some]
  dsimp only
  rw [Utf8.decode_encode]
  rfl

theorem of_readStr {data : Bytes} {offset next : Nat} {str : String}
    (h : readStr data offset = some (str, next))
    : (Utf8.encode str).length < 256 ^ 2 := by
  simp only [readStr, Option.bind_eq_bind, Option.bind_eq_some_iff] at h
  obtain ⟨⟨piece, next'⟩, hread, str', hdecode, hsome⟩ := h
  injection hsome with hsome
  injection hsome with hstr _
  rw [← hstr, Utf8.encode_of_decode hdecode]
  exact LengthPrefixed.of_read hread

theorem decode_append {s : ReplicatedSessionState} (h : s.Short) (rest : Bytes)
    : decode (s.encode ++ rest) = some s := by
  generalize hdata : s.encode ++ rest = data
  have number {data rest : Bytes} {offset : Nat} {n : UInt64}
      (hdrop : data.drop offset = LittleEndian.encode 8 n.toNat ++ rest)
      : UInt64.ofNat (LittleEndian.decode (slice data offset 8)) = n := by
    rw [slice_of_drop (LittleEndian.length_encode 8 n.toNat) hdrop,
      LittleEndian.decode_encode_of_lt n.toNat_lt, UInt64.ofNat_toNat]
  have hid : data.drop 0 = s.encode ++ rest := by rw [List.drop_zero, hdata]
  simp only [encode, List.append_assoc] at hid
  have hsender := drop_of_drop_eq_append hid
  have htarget := drop_of_drop_eq_append hsender
  have hout := drop_of_drop_eq_append htarget
  rw [decode, readStr_of_drop h.sessionId hid, Option.bind_eq_bind, Option.bind_some]
  dsimp only
  rw [readStr_of_drop h.senderCompId hsender, Option.bind_some]
  dsimp only
  rw [readStr_of_drop h.targetCompId htarget, Option.bind_some]
  dsimp only
  generalize 0 + (LengthPrefixed.write 2 (Utf8.encode s.sessionId)).length
    + (LengthPrefixed.write 2 (Utf8.encode s.senderCompId)).length
    + (LengthPrefixed.write 2 (Utf8.encode s.targetCompId)).length = offset at hout ⊢
  have hlen : data.length = offset + 25 + rest.length := by
    have := congrArg List.length hout
    simp only [List.length_drop, List.length_append, LittleEndian.length_encode,
      List.length_singleton] at this
    omega
  have hin := drop_of_drop_eq_append hout
  have hstate := drop_of_drop_eq_append hin
  have hupdated := drop_of_drop_eq_append hstate
  simp only [LittleEndian.length_encode, List.length_singleton, Nat.add_assoc] at hin hstate hupdated
  have hbyte : data.getD (offset + 16) 0 = s.state := by
    rw [List.getD_eq_getElem?_getD, ← Nat.add_zero (offset + 16), ← List.getElem?_drop, hstate]
    rfl
  rw [if_neg (by omega), number hout, number hin, hbyte, number hupdated]

theorem decode_encode {s : ReplicatedSessionState} (h : s.Short) : decode s.encode = some s := by
  rw [← List.append_nil s.encode, decode_append h []]

theorem short_of_decode {data : Bytes} {s : ReplicatedSessionState} (h : decode data = some s)
    : s.Short := by
  simp only [decode, Option.bind_eq_bind, Option.bind_eq_some_iff] at h
  obtain ⟨⟨id, o₁⟩, hid, ⟨sender, o₂⟩, hsender, ⟨target, o₃⟩, htarget, h⟩ := h
  dsimp only at h
  split at h
  . contradiction
  . injection h with h
    rw [← h]
    exact ⟨of_readStr hid, of_readStr hsender, of_readStr htarget⟩

theorem drop_of_readStr {data : Bytes} {offset next : Nat} {str : String}
    (h : readStr data offset = some (str, next))
    : data.drop offset = LengthPrefixed.write 2 (Utf8.encode str) ++ data.drop next := by
  simp only [readStr, Option.bind_eq_bind, Option.bind_eq_some_iff] at h
  obtain ⟨⟨piece, next'⟩, hread, str', hdecode, hsome⟩ := h
  injection hsome with hsome
  injection hsome with hstr hnext
  rw [← hstr, ← hnext, Utf8.encode_of_decode hdecode]
  exact (LengthPrefixed.drop_of_read hread).2

theorem drop_eq_number_append {data : Bytes} {offset : Nat} (h : offset + 8 ≤ data.length)
    : data.drop offset
        = LittleEndian.encode 8 (UInt64.ofNat (LittleEndian.decode (slice data offset 8))).toNat
          ++ data.drop (offset + 8) := by
  have hlen : (slice data offset 8).length = 8 := length_slice h
  have hlt := LittleEndian.decode_lt (slice data offset 8)
  have hencode := LittleEndian.encode_decode (slice data offset 8)
  rw [hlen] at hlt hencode
  rw [UInt64.toNat_ofNat_of_lt' hlt, hencode, ← drop_eq_slice_append]

theorem encode_isPrefix_of_decode {data : Bytes} {s : ReplicatedSessionState}
    (h : decode data = some s)
    : s.encode <+: data := by
  simp only [decode, Option.bind_eq_bind, Option.bind_eq_some_iff] at h
  obtain ⟨⟨id, o₁⟩, hid, ⟨sender, o₂⟩, hsender, ⟨target, o₃⟩, htarget, h⟩ := h
  dsimp only at h hsender htarget
  split at h
  . contradiction
  . next hfit =>
    injection h with h
    rw [← h]
    have hstate : data.drop (o₃ + 16) = [data.getD (o₃ + 16) 0] ++ data.drop (o₃ + 17) := by
      have hlt : o₃ + 16 < data.length := by omega
      rw [List.drop_eq_getElem_cons hlt, List.getD_eq_getElem?_getD, List.getElem?_eq_getElem hlt]
      rfl
    refine ⟨data.drop (o₃ + 25), ?_⟩
    symm
    calc data
      _ = data.drop 0 := List.drop_zero.symm
      _ = _ := by
        rw [drop_of_readStr hid, drop_of_readStr hsender, drop_of_readStr htarget,
          drop_eq_number_append (by omega : o₃ + 8 ≤ data.length),
          drop_eq_number_append (by omega : o₃ + 8 + 8 ≤ data.length), hstate,
          drop_eq_number_append (by omega : o₃ + 17 + 8 ≤ data.length)]
        simp only [encode, List.append_assoc]

theorem decode_eq_some_iff {data : Bytes} {s : ReplicatedSessionState} (h : s.Short)
    : decode data = some s ↔ s.encode <+: data := by
  constructor
  . exact encode_isPrefix_of_decode
  . intro hpre
    obtain ⟨rest, rfl⟩ := hpre
    exact decode_append h rest

theorem selfDelimiting : SelfDelimiting Short encode := by
  intro s t xs ys hs ht h
  have hdecode := decode_append hs xs
  rw [h, decode_append ht ys] at hdecode
  exact (Option.some.inj hdecode).symm

theorem length_encode_lt {s : ReplicatedSessionState} (h : s.Short) : s.encode.length < 256 ^ 4 := by
  have hid := h.sessionId
  have hsender := h.senderCompId
  have htarget := h.targetCompId
  simp only [encode, List.length_append, LengthPrefixed.length_write, LittleEndian.length_encode,
    List.length_singleton]
  omega

end ReplicatedSessionState

namespace Checked

open Fault

namespace ReplicatedSessionState

def readStr (data : Bytes) (offset : Nat) : Except Fault (Option (String × Nat)) :=
  if offset + 2 > data.length then
    .ok none
  else do
    let low ← index data offset
    let high ← index data (offset + 1)
    let length := LittleEndian.decode [low, high]
    if offset + 2 + length > data.length then
      .ok none
    else
      let piece ← range data (offset + 2) (offset + 2 + length)
      .ok ((Utf8.decode piece).map fun s => (s, offset + 2 + length))

def readNumber (data : Bytes) (offset : Nat) : Except Fault UInt64 := do
  let bytes ← range data offset (offset + 8)
  .ok (UInt64.ofNat (LittleEndian.decode bytes))

-- `decode_session_state`, with every index and every range at the place where the source has it.
def decode (data : Bytes) : Except Fault (Option ReplicatedSessionState) := do
  match ← readStr data 0 with
  | none => .ok none
  | some (sessionId, offset) =>
    match ← readStr data offset with
    | none => .ok none
    | some (senderCompId, offset) =>
      match ← readStr data offset with
      | none => .ok none
      | some (targetCompId, offset) =>
        if offset + 8 + 8 + 1 + 8 > data.length then
          .ok none
        else
          let outboundSeqNum ← readNumber data offset
          let inboundSeqNum ← readNumber data (offset + 8)
          let state ← index data (offset + 16)
          let lastUpdatedMs ← readNumber data (offset + 17)
          .ok (some
            { sessionId, senderCompId, targetCompId, outboundSeqNum, inboundSeqNum, state,
              lastUpdatedMs })

variable {data : Bytes} {offset : Nat}

theorem computes_readStr (data : Bytes) (offset : Nat)
    : Computes (fun _ => readStr data offset) True
        (Velocitas.ReplicatedSessionState.readStr data offset) := by
  unfold readStr Velocitas.ReplicatedSessionState.readStr LengthPrefixed.read
  by_cases hcount : offset + 2 > data.length
  . simp only [if_pos hcount]
    exact .pure none
  . simp only [if_neg hcount]
    have hlow : offset < data.length := by omega
    have hhigh : offset + 1 < data.length := by omega
    have hslice : slice data offset 2 = [data[offset], data[offset + 1]] := by
      rw [slice, List.drop_eq_getElem_cons hlow, List.drop_eq_getElem_cons hhigh]
      rfl
    rw [hslice]
    apply (Computes.index hlow).bind_of_true
    apply (Computes.index hhigh).bind_of_true
    generalize LittleEndian.decode [data[offset], data[offset + 1]] = length
    by_cases hend : offset + 2 + length > data.length
    . simp only [if_pos hend]
      exact .pure none
    . simp only [if_neg hend]
      have hpiece := Computes.range (Nat.le_add_right (offset + 2) length) (Nat.not_lt.mp hend)
      rw [Nat.add_sub_cancel_left] at hpiece
      apply hpiece.bind_of_true
      rw [Option.bind_eq_bind, Option.bind_some]
      dsimp only [slice]
      cases Utf8.decode ((data.drop (offset + 2)).take length) with
      | none => exact .pure none
      | some str => exact .pure (some _)

theorem computes_readNumber (h : offset + 8 ≤ data.length)
    : Computes (fun _ => readNumber data offset) True
        (UInt64.ofNat (LittleEndian.decode (slice data offset 8))) := by
  have hrange := Computes.range (Nat.le_add_right offset 8) h
  rw [Nat.add_sub_cancel_left] at hrange
  exact hrange.bind_of_true (.pure _)

theorem computes_decode (data : Bytes)
    : Computes (fun _ => decode data) True (Velocitas.ReplicatedSessionState.decode data) := by
  unfold decode Velocitas.ReplicatedSessionState.decode
  rw [Option.bind_eq_bind]
  apply (computes_readStr data 0).bind_of_true
  cases Velocitas.ReplicatedSessionState.readStr data 0 with
  | none => exact .pure none
  | some first =>
    obtain ⟨id, o₁⟩ := first
    rw [Option.bind_some]
    apply (computes_readStr data o₁).bind_of_true
    dsimp only
    cases Velocitas.ReplicatedSessionState.readStr data o₁ with
    | none => exact .pure none
    | some second =>
      obtain ⟨sender, o₂⟩ := second
      rw [Option.bind_some]
      apply (computes_readStr data o₂).bind_of_true
      dsimp only
      cases Velocitas.ReplicatedSessionState.readStr data o₂ with
      | none => exact .pure none
      | some third =>
        obtain ⟨target, o₃⟩ := third
        rw [Option.bind_some]
        dsimp only
        by_cases hend : o₃ + 8 + 8 + 1 + 8 > data.length
        . simp only [if_pos hend]
          exact .pure none
        . simp only [if_neg hend]
          have hlt : o₃ + 16 < data.length := by omega
          rw [List.getD_eq_getElem?_getD, List.getElem?_eq_getElem hlt]
          apply (computes_readNumber (by omega)).bind_of_true
          apply (computes_readNumber (by omega)).bind_of_true
          apply (Computes.index hlt).bind_of_true
          apply (computes_readNumber (by omega)).bind_of_true
          exact .pure (some _)

end ReplicatedSessionState

end Checked

namespace ReplicatedSessionState

theorem codec_exact
    : (∀ data s, Short s → (decode data = some s ↔ s.encode <+: data))
        ∧ (∀ s t, Short s → Short t → s.encode <+: t.encode → s = t)
        ∧ (∀ s t, Short s → Short t → s.encode = t.encode → s = t)
        ∧ (∀ s, Short s → decode s.encode = some s)
        ∧ ∀ data, Checked.ReplicatedSessionState.decode data = .ok (decode data) := by
  refine ⟨fun _ _ hs => decode_eq_some_iff hs, ?_, ?_, fun _ hs => decode_encode hs, ?_⟩
  . intro s t hs ht hpre
    obtain ⟨rest, hrest⟩ := hpre
    apply selfDelimiting s t rest [] hs ht
    rw [hrest, List.append_nil]
  . intro s t hs ht heq
    apply selfDelimiting s t [] [] hs ht
    rw [heq]
  . intro data
    exact (Checked.ReplicatedSessionState.computes_decode data).release

def sampleState (seqNum : UInt64) : ReplicatedSessionState where
  sessionId := "FIX-1"
  senderCompId := "SENDER"
  targetCompId := "TARGET"
  outboundSeqNum := seqNum
  inboundSeqNum := seqNum
  state := 3
  lastUpdatedMs := 0

theorem short_sampleState (seqNum : UInt64) : Short (sampleState seqNum) where
  sessionId := by
    show (Utf8.encode "FIX-1").length < 256 ^ 2
    decide
  senderCompId := by
    show (Utf8.encode "SENDER").length < 256 ^ 2
    decide
  targetCompId := by
    show (Utf8.encode "TARGET").length < 256 ^ 2
    decide

theorem codec_exact_sampleState
    : decode (sampleState 10).encode = some (sampleState 10)
        ∧ (sampleState 10).encode <+: (sampleState 10).encode ++ [0]
        ∧ (¬ (sampleState 10).encode <+: (sampleState 42).encode)
        ∧ (sampleState 10).encode ≠ (sampleState 42).encode := by
  have hne : sampleState 10 ≠ sampleState 42 := by decide
  have hshort := short_sampleState
  refine ⟨codec_exact.2.2.2.1 _ (hshort 10), ?_, ?_, ?_⟩
  . rw [← codec_exact.1 _ _ (hshort 10)]
    exact decode_append (hshort 10) [0]
  . intro hpre
    exact hne (codec_exact.2.1 _ _ (hshort 10) (hshort 42) hpre)
  . intro heq
    exact hne (codec_exact.2.2.1 _ _ (hshort 10) (hshort 42) heq)

end ReplicatedSessionState

end Velocitas
