import VelocitasFix.Serializer.Digits
import VelocitasFix.Serializer.Reading
import Mathlib.Data.List.Nodup

/-!
This module contains the messages of an order flow and the TestRequest, and what the receiver of a
message reads of a field that occurs once: the value that it was built with.
-/

namespace Velocitas

namespace OutMessage

def testRequest (beginString sender target : Bytes) (seqNum : UInt64)
    (sendingTime testReqId : Bytes)
    : OutMessage where
  beginString := beginString
  msgType := ascii "1"
  args := [.str Tags.senderCompId sender, .str Tags.targetCompId target, .u64 Tags.msgSeqNum seqNum,
    .str Tags.sendingTime sendingTime, .str Tags.testReqId testReqId]

def newOrderSingle (beginString sender target : Bytes) (seqNum : UInt64)
    (sendingTime clOrdId symbol : Bytes) (side : UInt8) (qty : Int64) (ordType : UInt8)
    (price : Bytes)
    : OutMessage where
  beginString := beginString
  msgType := ascii "D"
  args := [.str Tags.senderCompId sender, .str Tags.targetCompId target, .u64 Tags.msgSeqNum seqNum,
    .str Tags.sendingTime sendingTime, .str Tags.clOrdId clOrdId, .str Tags.symbol symbol,
    .str Tags.side [side], .int Tags.orderQty qty, .str Tags.ordType [ordType],
    .str Tags.price price, .str Tags.transactTime sendingTime, .str Tags.handlInst (ascii "1")]

def executionReport (beginString sender target : Bytes) (seqNum : UInt64)
    (sendingTime orderId execId clOrdId symbol : Bytes) (side : UInt8) (ordQty lastQty : Int64)
    (lastPx : Bytes) (leavesQty cumQty : Int64) (avgPx : Bytes) (execType ordStatus : UInt8)
    : OutMessage where
  beginString := beginString
  msgType := ascii "8"
  args := [.str Tags.senderCompId sender, .str Tags.targetCompId target, .u64 Tags.msgSeqNum seqNum,
    .str Tags.sendingTime sendingTime, .str Tags.orderId orderId, .str Tags.execId execId,
    .str Tags.clOrdId clOrdId, .str Tags.execType [execType], .str Tags.ordStatus [ordStatus],
    .str Tags.symbol symbol, .str Tags.side [side], .int Tags.orderQty ordQty,
    .int Tags.lastQty lastQty, .str Tags.lastPx lastPx, .int Tags.leavesQty leavesQty,
    .int Tags.cumQty cumQty, .str Tags.avgPx avgPx, .str Tags.transactTime sendingTime]

end OutMessage

namespace FixSerializer

def buildTestRequest (buf beginString sender target : Bytes) (seqNum : UInt64)
    (sendingTime testReqId : Bytes)
    : Option (FixSerializer × Nat) :=
  serialize buf (.testRequest beginString sender target seqNum sendingTime testReqId)

def buildNewOrderSingle (buf beginString sender target : Bytes) (seqNum : UInt64)
    (sendingTime clOrdId symbol : Bytes) (side : UInt8) (qty : Int64) (ordType : UInt8)
    (price : Bytes)
    : Option (FixSerializer × Nat) :=
  serialize buf (.newOrderSingle beginString sender target seqNum sendingTime clOrdId symbol side
    qty ordType price)

def buildExecutionReport (buf beginString sender target : Bytes) (seqNum : UInt64)
    (sendingTime orderId execId clOrdId symbol : Bytes) (side : UInt8) (ordQty lastQty : Int64)
    (lastPx : Bytes) (leavesQty cumQty : Int64) (avgPx : Bytes) (execType ordStatus : UInt8)
    : Option (FixSerializer × Nat) :=
  serialize buf (.executionReport beginString sender target seqNum sendingTime orderId execId
    clOrdId symbol side ordQty lastQty lastPx leavesQty cumQty avgPx execType ordStatus)

-- A message is written if it fits the buffer, and only then.
theorem serialize_eq_some_iff {buffer : Bytes} {m : OutMessage}
    : (∃ ser n, serialize buffer m = some (ser, n)) ↔ m.bytes.length ≤ buffer.length := by
  constructor
  . rintro ⟨ser, n, hser⟩
    by_contra hlt
    rw [serialize_of_lt (by omega)] at hser
    contradiction
  . intro hle
    obtain ⟨ser, hser, -⟩ := serialize_of_le hle
    exact ⟨ser, _, hser⟩

theorem take_of_serialize {buffer : Bytes} {m : OutMessage} {ser : FixSerializer} {n : Nat}
    (h : serialize buffer m = some (ser, n))
    : ser.buffer.take n = m.bytes ∧ m.bytes.length ≤ buffer.length := by
  have hle := serialize_eq_some_iff.mp ⟨ser, n, h⟩
  obtain ⟨ser', hser, -, htake⟩ := serialize_of_le hle
  rw [hser, Option.some.injEq, Prod.mk.injEq] at h
  rw [← h.1, ← h.2]
  exact ⟨htake, hle⟩

end FixSerializer

namespace OutMessage

-- Each tag of the fields occurs once, and none of them belongs to the frame of the message.
def Distinct (m : OutMessage) : Prop :=
  (m.args.map FieldArg.tag).Nodup ∧ Tags.beginString ∉ m.args.map FieldArg.tag
    ∧ Tags.bodyLength ∉ m.args.map FieldArg.tag

-- What the accessors of a view say about the fields of a message.
structure ReadBy (m : OutMessage) (view : MessageView) : Prop where
  msgType : view.msgType = some m.msgType
  str : ∀ tag value, .str tag value ∈ m.args → view.getField tag = some value
  int : ∀ tag value, .int tag value ∈ m.args → view.getFieldI64 tag = some value
  u64 : ∀ tag value, .u64 tag value ∈ m.args → view.getFieldU64 tag = some value

theorem Readable.exists_readBy {m : OutMessage} {seqNum : UInt64} (h : m.Readable seqNum)
    (hdistinct : m.Distinct)
    : ∃ view, FixParser.new.parse m.bytes = .ok (view, m.bytes.length) ∧ m.ReadBy view := by
  obtain ⟨hnodup, h8, h9⟩ := hdistinct
  obtain ⟨view, hparse, hentries, htype⟩ := h.exists_view
  have hfield (arg : FieldArg) (harg : arg ∈ m.args) : view.getField arg.tag = some arg.text := by
    have hmem := List.mem_map_of_mem (f := FieldArg.tag) harg
    have hne8 : arg.tag ≠ Tags.beginString := fun heq => h8 (heq ▸ hmem)
    have hne9 : arg.tag ≠ Tags.bodyLength := fun heq => h9 (heq ▸ hmem)
    apply h.getField_eq_some hentries hne8 hne9 (h.tag_ne_msgType arg harg) ⟨arg, harg, rfl⟩
    intro arg' harg' htag
    rw [List.inj_on_of_nodup_map hnodup harg' harg htag]
  refine ⟨view, hparse, htype, ?_, ?_, ?_⟩
  . intro tag value harg
    exact hfield _ harg
  . intro tag value harg
    have hget : view.getField tag = _ := hfield _ harg
    rw [MessageView.getFieldI64, hget]
    exact FixSerializer.parseI64_signed value
  . intro tag value harg
    have hget : view.getField tag = _ := hfield _ harg
    rw [MessageView.getFieldU64, hget]
    exact FixSerializer.parseU64_decimal value

section Readable

variable {beginString sender target time clOrdId symbol : Bytes} {seqNum : UInt64}
  (hbegin : Tags.soh ∉ beginString) (hsender : Tags.soh ∉ sender) (htarget : Tags.soh ∉ target)
  (htime : Tags.soh ∉ time) (hclOrdId : Tags.soh ∉ clOrdId) (hsymbol : Tags.soh ∉ symbol)
  {side : UInt8} (hside : Tags.soh ∉ [side])

include hbegin hsender htarget htime hclOrdId hsymbol hside

theorem readable_newOrderSingle {qty : Int64} {ordType : UInt8} {price : Bytes}
    (hordType : Tags.soh ∉ [ordType]) (hprice : Tags.soh ∉ price)
    (hlength : (newOrderSingle beginString sender target seqNum time clOrdId symbol side qty ordType
      price).bytes.length ≤ 65536)
    : (newOrderSingle beginString sender target seqNum time clOrdId symbol side qty ordType
        price).Readable seqNum := by
  have htype : Tags.soh ∉ ascii "D" := by decide
  have hhandlInst : Tags.soh ∉ ascii "1" := by decide
  apply Readable.of_args hbegin htype hsender htarget htime hlength rfl
  . simp only [List.forall_mem_cons, FieldArg.Valid, FieldArg.tag, List.not_mem_nil,
      false_implies, implies_true, hclOrdId, hsymbol, hside, hordType, hprice, htime,
      hhandlInst, not_false_eq_true, and_true]
    decide
  . simp

theorem readable_executionReport {orderId execId : Bytes} {ordQty lastQty : Int64} {lastPx : Bytes}
    {leavesQty cumQty : Int64} {avgPx : Bytes} {execType ordStatus : UInt8}
    (horderId : Tags.soh ∉ orderId) (hexecId : Tags.soh ∉ execId) (hlastPx : Tags.soh ∉ lastPx)
    (havgPx : Tags.soh ∉ avgPx) (hexecType : Tags.soh ∉ [execType])
    (hordStatus : Tags.soh ∉ [ordStatus])
    (hlength : (executionReport beginString sender target seqNum time orderId execId clOrdId symbol
      side ordQty lastQty lastPx leavesQty cumQty avgPx execType ordStatus).bytes.length ≤ 65536)
    : (executionReport beginString sender target seqNum time orderId execId clOrdId symbol side
        ordQty lastQty lastPx leavesQty cumQty avgPx execType ordStatus).Readable seqNum := by
  have htype : Tags.soh ∉ ascii "8" := by decide
  apply Readable.of_args hbegin htype hsender htarget htime hlength rfl
  . simp only [List.forall_mem_cons, FieldArg.Valid, FieldArg.tag, List.not_mem_nil,
      false_implies, implies_true, horderId, hexecId, hclOrdId, hexecType, hordStatus, hsymbol,
      hside, hlastPx, havgPx, htime, not_false_eq_true, and_true]
    decide
  . simp

end Readable

theorem length_newOrderSingle_le {beginString sender target time clOrdId symbol price : Bytes}
    {seqNum : UInt64} {side ordType : UInt8} {qty : Int64}
    : (newOrderSingle beginString sender target seqNum time clOrdId symbol side qty ordType
        price).bytes.length
          ≤ 256 + beginString.length + sender.length + target.length + 2 * time.length
            + clOrdId.length + symbol.length + price.length := by
  have htype : (ascii "D").length = 1 := rfl
  have hhandlInst : (ascii "1").length = 1 := rfl
  apply Nat.le_trans (length_bytes_le _)
  simp only [newOrderSingle, List.map_cons, List.map_nil, List.sum_cons, List.sum_nil,
    FieldArg.size, List.length_singleton, htype, hhandlInst]
  omega

theorem length_executionReport_le
    {beginString sender target time orderId execId clOrdId symbol lastPx avgPx : Bytes}
    {seqNum : UInt64} {side execType ordStatus : UInt8} {ordQty lastQty leavesQty cumQty : Int64}
    : (executionReport beginString sender target seqNum time orderId execId clOrdId symbol side
        ordQty lastQty lastPx leavesQty cumQty avgPx execType ordStatus).bytes.length
          ≤ 384 + beginString.length + sender.length + target.length + 2 * time.length
            + orderId.length + execId.length + clOrdId.length + symbol.length + lastPx.length
            + avgPx.length := by
  have htype : (ascii "8").length = 1 := rfl
  apply Nat.le_trans (length_bytes_le _)
  simp only [executionReport, List.map_cons, List.map_nil, List.sum_cons, List.sum_nil,
    FieldArg.size, List.length_singleton, htype]
  omega

theorem distinct_of_tags {m : OutMessage} {tags : List UInt32}
    (htags : m.args.map FieldArg.tag = tags)
    (h : tags.Nodup ∧ Tags.beginString ∉ tags ∧ Tags.bodyLength ∉ tags)
    : m.Distinct := by
  unfold Distinct
  rw [htags]
  exact h

theorem distinct_newOrderSingle {beginString sender target time clOrdId symbol price : Bytes}
    {seqNum : UInt64} {side ordType : UInt8} {qty : Int64}
    : (newOrderSingle beginString sender target seqNum time clOrdId symbol side qty ordType
        price).Distinct := by
  apply @distinct_of_tags _ [Tags.senderCompId, Tags.targetCompId, Tags.msgSeqNum, Tags.sendingTime,
    Tags.clOrdId, Tags.symbol, Tags.side, Tags.orderQty, Tags.ordType, Tags.price,
    Tags.transactTime, Tags.handlInst] rfl
  decide

theorem distinct_executionReport
    {beginString sender target time orderId execId clOrdId symbol lastPx avgPx : Bytes}
    {seqNum : UInt64} {side execType ordStatus : UInt8} {ordQty lastQty leavesQty cumQty : Int64}
    : (executionReport beginString sender target seqNum time orderId execId clOrdId symbol side
        ordQty lastQty lastPx leavesQty cumQty avgPx execType ordStatus).Distinct := by
  apply @distinct_of_tags _ [Tags.senderCompId, Tags.targetCompId, Tags.msgSeqNum, Tags.sendingTime,
    Tags.orderId, Tags.execId, Tags.clOrdId, Tags.execType, Tags.ordStatus, Tags.symbol, Tags.side,
    Tags.orderQty, Tags.lastQty, Tags.lastPx, Tags.leavesQty, Tags.cumQty, Tags.avgPx,
    Tags.transactTime] rfl
  decide

end OutMessage

end Velocitas
