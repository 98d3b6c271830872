import VelocitasFix.Message.Lemmas
import VelocitasFix.Parser.Boundary
import VelocitasFix.Serializer.RoundTrip
import Mathlib.Algebra.Order.BigOperators.Group.List

/-!
This module contains what the receiver of a serialized message reads: the message is one frame, it is
accepted, and its type and its number are the ones it was built with. The messages that start as the
session's own do are of this kind.
-/

namespace Velocitas

open Ascii

namespace OutMessage

-- A message with a type of its own and exactly one number, and nothing in it that ends a field early.
structure Readable (m : OutMessage) (seqNum : UInt64) : Prop where
  beginString_sohFree : Tags.soh ∉ m.beginString
  msgType_sohFree : Tags.soh ∉ m.msgType
  args_valid : ∀ arg ∈ m.args, arg.Valid
  args_le : m.args.length ≤ 508
  length_le : m.bytes.length ≤ 65536
  tag_ne_msgType : ∀ arg ∈ m.args, arg.tag ≠ Tags.msgType
  numbered : ∃ text, MessageView.parseU64 text = some seqNum
    ∧ (∃ arg ∈ m.args, arg.tag = Tags.msgSeqNum ∧ arg.text = text)
    ∧ ∀ arg ∈ m.args, arg.tag = Tags.msgSeqNum → arg.text = text

theorem mem_entries_iff (m : OutMessage) {tag : UInt32} {value : Bytes}
    (h8 : tag ≠ Tags.beginString) (h9 : tag ≠ Tags.bodyLength) (h10 : tag ≠ Tags.checksum)
    : (tag, value) ∈ m.entries
        ↔ (tag = Tags.msgType ∧ value = m.msgType)
          ∨ ∃ arg ∈ m.args, arg.tag = tag ∧ arg.text = value := by
  simp only [entries, List.mem_append, List.mem_cons, List.mem_map, Prod.mk.injEq, h8, h9, h10,
    false_and, false_or, List.not_mem_nil, or_false]

theorem Readable.parse {m : OutMessage} {seqNum : UInt64} (h : m.Readable seqNum)
    : ∃ view, FixParser.new.parse m.bytes = .ok (view, m.bytes.length) ∧ view.buffer = m.bytes
        ∧ view.msgType = some m.msgType ∧ view.msgSeqNum = some seqNum := by
  obtain ⟨view, hparse, _, hentries⟩ := FixParser.parse_bytes h.beginString_sohFree
    h.msgType_sohFree h.args_valid h.args_le h.length_le
  refine ⟨view, hparse, FixParser.buffer_of_parse hparse, ?_, ?_⟩
  . apply MessageView.msgType_of_mem
    . rw [hentries, m.mem_entries_iff (by decide) (by decide) (by decide)]
      exact .inl ⟨rfl, rfl⟩
    . intro other hother
      rw [hentries, m.mem_entries_iff (by decide) (by decide) (by decide)] at hother
      cases hother with
      | inl hother => exact hother.2
      | inr hother =>
        obtain ⟨arg, harg, htag, _⟩ := hother
        exact absurd htag (h.tag_ne_msgType arg harg)
  . obtain ⟨text, htext, ⟨arg, harg, htag, hvalue⟩, hunique⟩ := h.numbered
    rw [MessageView.msgSeqNum, MessageView.getFieldU64, @MessageView.getField_of_mem view _ text]
    . exact htext
    . rw [hentries, m.mem_entries_iff (by decide) (by decide) (by decide)]
      exact .inr ⟨arg, harg, htag, hvalue⟩
    . intro other hother
      rw [hentries, m.mem_entries_iff (by decide) (by decide) (by decide)] at hother
      cases hother with
      | inl hother => exact absurd hother.1 (by decide)
      | inr hother =>
        obtain ⟨arg', harg', htag', hvalue'⟩ := hother
        rw [← hvalue']
        exact hunique arg' harg' htag'

-- The boundary that is found in a stream that starts with the message is the end of the message.
theorem boundary {m : OutMessage} (hbegin : Tags.soh ∉ m.beginString) (htype : Tags.soh ∉ m.msgType)
    (hargs : ∀ arg ∈ m.args, arg.Valid) (hlen : m.bytes.length ≤ 65536) (rest : Bytes)
    : FixParser.findMessageBoundary (m.bytes ++ rest) = some m.bytes.length := by
  have hbody := m.length_body_lt
  obtain ⟨lax, hbytes, hentries, _⟩ := m.exists_laxMessage hbegin htype hargs (by omega)
  rw [← hbytes, lax.findMessageBoundary_iff]
  have hlast := congrArg List.getLast? hentries
  rw [LaxMessage.fields, List.map_append, List.map_singleton, List.getLast?_concat, entries,
    List.getLast?_concat, Option.some.injEq] at hlast
  have hvalue := congrArg Prod.snd hlast
  change lax.checkSum.value = m.checkSumText at hvalue
  rw [hvalue]
  apply length_padded

theorem Readable.boundary {m : OutMessage} {seqNum : UInt64} (h : m.Readable seqNum) (rest : Bytes)
    : FixParser.findMessageBoundary (m.bytes ++ rest) = some m.bytes.length :=
  OutMessage.boundary h.beginString_sohFree h.msgType_sohFree h.args_valid h.length_le rest

namespace Readable

section View

variable {m : OutMessage} {seqNum : UInt64} {view : MessageView} {tag : UInt32}

-- What is read of a field whose tag stands for no part of the frame of a message.
theorem getField_eq_some (h : m.Readable seqNum) (hentries : view.entries = m.entries)
    (h8 : tag ≠ Tags.beginString) (h9 : tag ≠ Tags.bodyLength) (h35 : tag ≠ Tags.msgType)
    {value : Bytes} (hmem : ∃ arg ∈ m.args, arg.tag = tag)
    (hunique : ∀ arg ∈ m.args, arg.tag = tag → arg.text = value)
    : view.getField tag = some value := by
  obtain ⟨arg, harg, rfl⟩ := hmem
  have h10 := (h.args_valid arg harg).tag_ne
  apply MessageView.getField_of_mem
  . rw [hentries, m.mem_entries_iff h8 h9 h10]
    exact .inr ⟨arg, harg, rfl, hunique arg harg rfl⟩
  . intro other hother
    rw [hentries, m.mem_entries_iff h8 h9 h10] at hother
    cases hother with
    | inl hother => exact absurd hother.1 h35
    | inr hother =>
      obtain ⟨arg', harg', htag, rfl⟩ := hother
      exact hunique arg' harg' htag

theorem exists_view (h : m.Readable seqNum)
    : ∃ view, FixParser.new.parse m.bytes = .ok (view, m.bytes.length) ∧ view.entries = m.entries
        ∧ view.msgType = some m.msgType := by
  obtain ⟨view, hparse, _, hentries⟩ := FixParser.parse_bytes h.beginString_sohFree
    h.msgType_sohFree h.args_valid h.args_le h.length_le
  obtain ⟨view', hparse', _, htype, _⟩ := h.parse
  rw [hparse, Except.ok.injEq, Prod.mk.injEq] at hparse'
  exact ⟨view, hparse, hentries, hparse'.1 ▸ htype⟩

theorem getField_eq_none (h8 : tag ≠ Tags.beginString) (h9 : tag ≠ Tags.bodyLength)
    (h10 : tag ≠ Tags.checksum) (h35 : tag ≠ Tags.msgType) (hentries : view.entries = m.entries)
    (hnot : ∀ arg ∈ m.args, arg.tag ≠ tag)
    : view.getField tag = none := by
  rw [MessageView.getField_eq, Option.map_eq_none_iff, List.find?_eq_none]
  rintro ⟨tag', value⟩ hmem
  rw [decide_eq_true_eq]
  rintro rfl
  rw [hentries, m.mem_entries_iff h8 h9 h10] at hmem
  cases hmem with
  | inl hmem => exact h35 hmem.1
  | inr hmem =>
    obtain ⟨arg, harg, htag, _⟩ := hmem
    exact hnot arg harg htag

end View

-- The fields that the messages of a session start with, and those that follow them.
theorem of_args {m : OutMessage} {sender target time : Bytes} {seq : UInt64}
    {extra : List FieldArg} (hbegin : Tags.soh ∉ m.beginString) (htype : Tags.soh ∉ m.msgType)
    (hsender : Tags.soh ∉ sender) (htarget : Tags.soh ∉ target) (htime : Tags.soh ∉ time)
    (hlength : m.bytes.length ≤ 65536)
    (hargs : m.args = [.str Tags.senderCompId sender, .str Tags.targetCompId target,
      .u64 Tags.msgSeqNum seq, .str Tags.sendingTime time] ++ extra)
    (hextra : ∀ arg ∈ extra, arg.Valid ∧ arg.tag ≠ Tags.msgType ∧ arg.tag ≠ Tags.msgSeqNum)
    (hcount : extra.length ≤ 504)
    : m.Readable seq where
  beginString_sohFree := hbegin
  msgType_sohFree := htype
  args_valid := by
    intro arg harg
    rw [hargs, List.mem_append] at harg
    cases harg with
    | inl harg =>
      simp only [List.mem_cons, List.not_mem_nil, or_false] at harg
      rcases harg with rfl | rfl | rfl | rfl
      . exact ⟨by decide, hsender⟩
      . exact ⟨by decide, htarget⟩
      . exact (by decide : Tags.msgSeqNum ≠ Tags.checksum)
      . exact ⟨by decide, htime⟩
    | inr harg => exact (hextra arg harg).1
  args_le := by
    rw [hargs, List.length_append]
    simp only [List.length_cons, List.length_nil]
    omega
  length_le := hlength
  tag_ne_msgType := by
    intro arg harg
    rw [hargs, List.mem_append] at harg
    cases harg with
    | inl harg =>
      simp only [List.mem_cons, List.not_mem_nil, or_false] at harg
      rcases harg with rfl | rfl | rfl | rfl
      . exact (by decide : Tags.senderCompId ≠ Tags.msgType)
      . exact (by decide : Tags.targetCompId ≠ Tags.msgType)
      . exact (by decide : Tags.msgSeqNum ≠ Tags.msgType)
      . exact (by decide : Tags.sendingTime ≠ Tags.msgType)
    | inr harg => exact (hextra arg harg).2.1
  numbered := by
    refine ⟨_, MessageView.parseU64_decimal seq, ⟨.u64 Tags.msgSeqNum seq, ?_, rfl, rfl⟩, ?_⟩
    . rw [hargs]
      simp
    . intro arg harg htag
      rw [hargs, List.mem_append] at harg
      cases harg with
      | inl harg =>
        simp only [List.mem_cons, List.not_mem_nil, or_false] at harg
        rcases harg with rfl | rfl | rfl | rfl
        . exact absurd htag (by decide : Tags.senderCompId ≠ Tags.msgSeqNum)
        . exact absurd htag (by decide : Tags.targetCompId ≠ Tags.msgSeqNum)
        . rfl
        . exact absurd htag (by decide : Tags.sendingTime ≠ Tags.msgSeqNum)
      | inr harg => exact absurd htag (hextra arg harg).2.2

theorem logon {beginString sender target time : Bytes} {seq : UInt64} {interval : Int64}
    (hbegin : Tags.soh ∉ beginString) (hsender : Tags.soh ∉ sender) (htarget : Tags.soh ∉ target)
    (htime : Tags.soh ∉ time)
    (hlength : (OutMessage.logon beginString sender target seq time interval).bytes.length ≤ 65536)
    : (OutMessage.logon beginString sender target seq time interval).Readable seq := by
  have htype : Tags.soh ∉ ascii "A" := by decide
  apply @of_args _ sender target time seq
    [.int Tags.encryptMethod 0, .int Tags.heartbtInt interval] hbegin htype hsender htarget htime
    hlength rfl
  . intro arg harg
    simp only [List.mem_cons, List.not_mem_nil, or_false] at harg
    rcases harg with rfl | rfl
    . exact ⟨(by decide : Tags.encryptMethod ≠ Tags.checksum),
        (by decide : Tags.encryptMethod ≠ Tags.msgType),
        (by decide : Tags.encryptMethod ≠ Tags.msgSeqNum)⟩
    . exact ⟨(by decide : Tags.heartbtInt ≠ Tags.checksum),
        (by decide : Tags.heartbtInt ≠ Tags.msgType),
        (by decide : Tags.heartbtInt ≠ Tags.msgSeqNum)⟩
  . simp

end Readable

end OutMessage

theorem length_fieldBytes_le (tag : UInt32) (value : Bytes)
    : (fieldBytes tag value).length ≤ 12 + value.length := by
  have htag : (Ascii.decimal tag.toNat).length ≤ 10 := by
    apply Ascii.length_decimal_le (by decide)
    have hlt := tag.toNat_lt
    omega
  simp only [fieldBytes, List.length_append, List.length_cons, List.length_nil]
  omega

def FieldArg.size : FieldArg → Nat
  | .str _ value => 12 + value.length
  | .int _ _ => 32
  | .u64 _ _ => 32

theorem FieldArg.length_bytes_le (arg : FieldArg) : arg.bytes.length ≤ arg.size := by
  have hbytes := length_fieldBytes_le arg.tag arg.text
  have htext : 12 + arg.text.length ≤ arg.size := by
    cases arg with
    | str tag value => exact Nat.le_refl _
    | int tag value =>
      have habs : value.toInt.natAbs < 10 ^ 19 := by
        have hle := value.le_toInt
        have hlt := value.toInt_lt
        omega
      have hlen := Ascii.length_decimal_le (by decide) habs
      simp only [text, size, Ascii.signed]
      split
      . rw [List.length_cons]
        omega
      . omega
    | u64 tag value =>
      have hlt : value.toNat < 10 ^ 20 := by
        have hlt := value.toNat_lt
        omega
      have hlen := Ascii.length_decimal_le (by decide) hlt
      simp only [text, size]
      omega
  exact Nat.le_trans hbytes htext

theorem OutMessage.length_bytes_le (m : OutMessage)
    : m.bytes.length
        ≤ 40 + m.beginString.length + m.msgType.length + (m.args.map FieldArg.size).sum := by
  have hargs : (m.args.flatMap FieldArg.bytes).length ≤ (m.args.map FieldArg.size).sum := by
    rw [List.length_flatMap]
    exact List.sum_le_sum fun arg _ => arg.length_bytes_le
  have hbegin := length_fieldBytes_le Tags.beginString m.beginString
  have htype := length_fieldBytes_le Tags.msgType m.msgType
  rw [m.length_bytes, FixSerializer.length_preamble, body, List.length_append]
  omega

end Velocitas
