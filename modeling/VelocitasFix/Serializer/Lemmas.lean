import VelocitasFix.Serializer.Impl

/-!
This module contains what each operation of the serializer writes: every one of them is
`writeBytes` of the bytes that the wire format prescribes, as long as they fit into the buffer.
-/

namespace Velocitas

open Ascii

def fieldBytes (tag : UInt32) (value : Bytes) : Bytes :=
  decimal tag.toNat ++ Tags.equals :: (value ++ [Tags.soh])

namespace FixSerializer

@[simp]
theorem writeBytes_nil (s : FixSerializer) : s.writeBytes [] = some s := by
  have h := s.pos_le
  unfold writeBytes
  rw [dif_pos (by simpa using h)]
  simp only [Option.some.injEq]
  ext1
  . simp [overwrite]
  . rfl
  . rfl

theorem writeBytes_of_le {s : FixSerializer} {data : Bytes}
    (h : s.pos + data.length ≤ s.buffer.length)
    : ∃ s', s.writeBytes data = some s' ∧ s'.buffer = overwrite s.buffer s.pos data
        ∧ s'.pos = s.pos + data.length ∧ s'.bodyStart = s.bodyStart := by
  unfold writeBytes
  rw [dif_pos h]
  exact ⟨_, rfl, rfl, rfl, rfl⟩

theorem writeBytes_of_lt {s : FixSerializer} {data : Bytes}
    (h : s.buffer.length < s.pos + data.length)
    : s.writeBytes data = none := by
  unfold writeBytes
  rw [dif_neg (by omega)]

theorem writeBytes_writeBytes (s : FixSerializer) (xs ys : Bytes)
    : (s.writeBytes xs).bind (·.writeBytes ys) = s.writeBytes (xs ++ ys) := by
  by_cases hxs : s.pos + xs.length ≤ s.buffer.length
  . rcases writeBytes_of_le hxs with ⟨s1, h1, hbuf1, hpos1, hbody1⟩
    rw [h1, Option.bind_some]
    have hlen : s1.buffer.length = s.buffer.length := by rw [hbuf1, length_overwrite hxs]
    by_cases hys : s1.pos + ys.length ≤ s1.buffer.length
    . rcases writeBytes_of_le hys with ⟨s2, h2, hbuf2, hpos2, hbody2⟩
      have hxys : s.pos + (xs ++ ys).length ≤ s.buffer.length := by
        rw [List.length_append]
        omega
      rcases writeBytes_of_le hxys with ⟨s3, h3, hbuf3, hpos3, hbody3⟩
      rw [h2, h3, Option.some.injEq]
      ext1
      . rw [hbuf2, hbuf3, hbuf1, hpos1, overwrite_append hxs]
      . rw [hpos2, hpos3, hpos1, List.length_append, Nat.add_assoc]
      . rw [hbody2, hbody3, hbody1]
    . rw [writeBytes_of_lt (by omega), writeBytes_of_lt]
      rw [List.length_append]
      omega
  . rw [writeBytes_of_lt (by omega), Option.bind_none, writeBytes_of_lt]
    rw [List.length_append]
    omega

theorem asBytes_of_writeBytes {s s' : FixSerializer} {data : Bytes}
    (h : s.writeBytes data = some s')
    : s'.asBytes = s.asBytes ++ data ∧ s'.buffer.length = s.buffer.length
        ∧ s'.pos = s.pos + data.length ∧ s'.bodyStart = s.bodyStart := by
  by_cases hle : s.pos + data.length ≤ s.buffer.length
  . rcases writeBytes_of_le hle with ⟨s1, h1, hbuf, hpos, hbody⟩
    rw [h, Option.some.injEq] at h1
    subst h1
    refine ⟨?_, ?_, hpos, hbody⟩
    . rw [asBytes, hbuf, hpos, take_overwrite s.pos_le]
      rfl
    . rw [hbuf, length_overwrite hle]
  . rw [writeBytes_of_lt (by omega)] at h
    contradiction

theorem length_asBytes (s : FixSerializer) : s.asBytes.length = s.pos := by
  rw [asBytes, List.length_take, Nat.min_eq_left s.pos_le]

theorem digitPairs_eq
    : digitPairs = (List.range 100).flatMap fun r => [digit (r / 10), digit (r % 10)] := by
  decide +kernel

theorem digitPairs_getD {r : Nat} (h : r < 100)
    : digitPairs.getD (r * 2) 0 = digit (r / 10)
        ∧ digitPairs.getD (r * 2 + 1) 0 = digit (r % 10) := by
  rw [digitPairs_eq]
  revert r
  decide +kernel

theorem putPair_eq {buf : Bytes} {i r : Nat} (hi : 2 ≤ i) (hlen : i ≤ buf.length) (hr : r < 100)
    : ∃ buf', putPair buf i r = some (buf', i - 2) ∧ buf'.length = buf.length
        ∧ buf'.drop (i - 2) = digit (r / 10) :: digit (r % 10) :: buf.drop i := by
  rcases digitPairs_getD hr with ⟨htens, hones⟩
  unfold putPair
  dsimp
  rw [if_neg (by omega), htens, hones]
  refine ⟨_, rfl, by simp, ?_⟩
  have hset : i - 1 = i - 2 + 1 := by omega
  rw [List.set_comm _ _ (by omega), drop_set_eq_cons _ (by simp; omega), ← hset,
    drop_set_eq_cons _ (by omega), Nat.sub_add_cancel (by omega)]

-- The loop fills the scratch buffer from its end; what it has written is a suffix of the numeral.
theorem putDigits_eq {val : Nat} {buf : Bytes} {i : Nat} (hval : 0 < val)
    (hi : (decimal val).length ≤ i) (hlen : i ≤ buf.length)
    : ∃ buf' i', putDigits val buf i = some (buf', i')
        ∧ buf'.drop i' = decimal val ++ buf.drop i := by
  induction val using Nat.strongRecOn generalizing buf i with
  | ind val ih =>
    unfold putDigits
    split
    . next hle =>
      rw [decimal_of_hundred_le hle, List.length_append] at hi
      simp only [List.length_cons, List.length_nil] at hi
      rcases putPair_eq (by omega) hlen (Nat.mod_lt val (by omega)) with ⟨buf1, h1, hlen1, hdrop1⟩
      have hrec := @ih (val / 100) (by omega) buf1 (i - 2)
      rcases hrec (by omega) (by omega) (by omega) with ⟨buf2, i2, h2, hdrop2⟩
      refine ⟨buf2, i2, ?_, ?_⟩
      . rw [h1]
        exact h2
      . rw [hdrop2, hdrop1, decimal_of_hundred_le hle, List.append_assoc]
        rfl
    . split
      . next hlt hle =>
        rw [decimal_of_pair hle (by omega)] at hi ⊢
        simp only [List.length_cons, List.length_nil] at hi
        rcases putPair_eq (by omega) hlen (by omega : val < 100) with ⟨buf1, h1, -, hdrop1⟩
        exact ⟨buf1, _, h1, hdrop1⟩
      . rw [decimal_of_lt (by omega)] at hi ⊢
        simp only [List.length_cons, List.length_nil] at hi
        rw [if_neg (by omega)]
        refine ⟨_, _, rfl, ?_⟩
        rw [drop_set_eq_cons _ (by omega), Nat.sub_add_cancel (by omega)]
        rfl

theorem writeUnsigned_eq (s : FixSerializer) {width val : Nat} (hwidth : 0 < width)
    (h : val < 10 ^ width)
    : s.writeUnsigned width val = s.writeBytes (decimal val) := by
  unfold writeUnsigned
  split
  . next hzero =>
    rw [hzero, decimal_of_lt (by omega)]
    rfl
  . next hpos =>
    have hlen : (decimal val).length ≤ width := length_decimal_le hwidth h
    have hbuf : width ≤ (List.replicate width (0 : UInt8)).length := by simp
    rcases putDigits_eq (by omega) hlen hbuf with ⟨buf, i, hput, hdrop⟩
    rw [hput]
    dsimp
    rw [hdrop, List.drop_eq_nil_of_le (by simp), List.append_nil]

theorem writeU32_eq (s : FixSerializer) (val : UInt32)
    : s.writeU32 val = s.writeBytes (decimal val.toNat) := by
  have := val.toNat_lt
  exact s.writeUnsigned_eq (by omega) (by omega)

theorem writeU64_eq (s : FixSerializer) (val : UInt64)
    : s.writeU64 val = s.writeBytes (decimal val.toNat) := by
  have := val.toNat_lt
  exact s.writeUnsigned_eq (by omega) (by omega)

theorem toNat_toUInt64_neg {val : Int64} (h : val < 0)
    : (-val).toUInt64.toNat = val.toInt.natAbs := by
  have hneg : val.toBitVec.toInt < 0 := Int64.lt_iff_toInt_lt.mp h
  have hlt := val.toBitVec.isLt
  change (-val.toBitVec).toNat = val.toBitVec.toInt.natAbs
  rw [BitVec.toInt_eq_toNat_cond] at hneg ⊢
  rw [BitVec.toNat_neg]
  split at hneg
  all_goals omega

theorem toNat_toUInt64_of_nonneg {val : Int64} (h : ¬ val < 0)
    : val.toUInt64.toNat = val.toInt.natAbs := by
  have hpos : ¬ val.toBitVec.toInt < 0 := fun hneg => h (Int64.lt_iff_toInt_lt.mpr hneg)
  have hlt := val.toBitVec.isLt
  change val.toBitVec.toNat = val.toBitVec.toInt.natAbs
  rw [BitVec.toInt_eq_toNat_cond] at hpos ⊢
  split at hpos
  all_goals omega

theorem writeI64_eq (s : FixSerializer) (val : Int64)
    : s.writeI64 val = s.writeBytes (signed val.toInt) := by
  unfold writeI64 signed
  split
  . next hneg =>
    have hlt : val.toInt < 0 := Int64.lt_iff_toInt_lt.mp hneg
    simp only [Option.bind_eq_bind, writeU64_eq, toNat_toUInt64_neg hneg, if_pos hlt]
    exact s.writeBytes_writeBytes [45] _
  . next hpos =>
    have hle : ¬ val.toInt < 0 := fun hlt => hpos (Int64.lt_iff_toInt_lt.mpr hlt)
    rw [writeU64_eq, toNat_toUInt64_of_nonneg hpos, if_neg hle]

theorem writeTag_eq (s : FixSerializer) (tag : UInt32)
    : s.writeTag tag = s.writeBytes (decimal tag.toNat ++ [Tags.equals]) := by
  unfold writeTag
  simp only [Option.bind_eq_bind, writeU32_eq]
  exact s.writeBytes_writeBytes _ _

theorem writeTag_bind (s : FixSerializer) (tag : UInt32) (value : Bytes)
    : ((s.writeTag tag).bind fun s => (s.writeBytes value).bind (·.writeByte Tags.soh))
        = s.writeBytes (fieldBytes tag value) := by
  have hinner (s : FixSerializer)
      : (s.writeBytes value).bind (·.writeByte Tags.soh) = s.writeBytes (value ++ [Tags.soh]) :=
    s.writeBytes_writeBytes _ _
  simp only [hinner, writeTag_eq, writeBytes_writeBytes, fieldBytes, List.append_assoc,
    List.singleton_append]

theorem writeTagValue_eq (s : FixSerializer) (tag : UInt32) (value : Bytes)
    : s.writeTagValue tag value = s.writeBytes (fieldBytes tag value) :=
  s.writeTag_bind tag value

theorem addStr_eq (s : FixSerializer) (tag : UInt32) (value : Bytes)
    : s.addStr tag value = s.writeBytes (fieldBytes tag value) :=
  s.writeTag_bind tag value

theorem addInt_eq (s : FixSerializer) (tag : UInt32) (value : Int64)
    : s.addInt tag value = s.writeBytes (fieldBytes tag (signed value.toInt)) := by
  unfold addInt
  simp only [Option.bind_eq_bind, writeI64_eq]
  exact s.writeTag_bind tag _

theorem addU64_eq (s : FixSerializer) (tag : UInt32) (value : UInt64)
    : s.addU64 tag value = s.writeBytes (fieldBytes tag (decimal value.toNat)) := by
  unfold addU64
  simp only [Option.bind_eq_bind, writeU64_eq]
  exact s.writeTag_bind tag _

theorem writeU64ToBuf_go_eq {val : Nat} {tmp : Bytes} {i : Nat} (h : i ≤ tmp.length)
    : ∃ tmp' i', writeU64ToBuf.go val tmp i = (tmp', i') ∧ i' ≤ i ∧ tmp'.length = tmp.length
        ∧ List.replicate i' 48 ++ tmp'.drop i' = padded i val ++ tmp.drop i := by
  induction i generalizing val tmp with
  | zero => exact ⟨tmp, 0, rfl, Nat.le_refl _, rfl, rfl⟩
  | succ i ih =>
    unfold writeU64ToBuf.go
    split
    . have hset : i ≤ (tmp.set i (48 + UInt8.ofNat (val % 10))).length := by
        rw [List.length_set]
        omega
      rcases @ih (val / 10) _ hset with ⟨tmp', i', hgo, hle, hlen, heq⟩
      refine ⟨tmp', i', hgo, by omega, by rw [hlen, List.length_set], ?_⟩
      rw [heq, drop_set_eq_cons _ h, padded, List.append_assoc]
      rfl
    . next hzero =>
      have hval : val = 0 := by omega
      rw [hval, padded_zero]
      exact ⟨tmp, i + 1, rfl, Nat.le_refl _, rfl, rfl⟩

-- The number is truncated to its last six digits when it has more.
theorem writeU64ToBuf_eq (val : Nat)
    : ∃ buf len, writeU64ToBuf val (List.replicate 6 0) = (buf, len) ∧ len ≤ 6
        ∧ (buf.take len).length = len
        ∧ List.replicate (6 - len) 48 ++ buf.take len = padded 6 val := by
  unfold writeU64ToBuf
  split
  . next hzero =>
    rw [hzero]
    exact ⟨_, _, rfl, by decide, by decide, by decide⟩
  . rcases @writeU64ToBuf_go_eq val (List.replicate 6 0) 6 (by simp)
      with ⟨tmp, i, hgo, hle, hlen, heq⟩
    rw [hgo]
    have hdrop : (tmp.drop i).length = 6 - i := by
      rw [List.length_drop, hlen, List.length_replicate]
    have htake : (overwrite (List.replicate 6 0) 0 (tmp.drop i)).take (6 - i) = tmp.drop i := by
      have := @take_overwrite (List.replicate 6 0) (tmp.drop i) 0 (Nat.zero_le _)
      rwa [Nat.zero_add, hdrop, List.take_zero, List.nil_append] at this
    refine ⟨_, _, rfl, by omega, by rw [htake, hdrop], ?_⟩
    rw [htake, Nat.sub_sub_self hle, heq, List.drop_eq_nil_of_le (by simp), List.append_nil]

def checksumTrailer (data : Bytes) : Bytes :=
  [49, 48, Tags.equals] ++ Checksum.format (Checksum.compute data) ++ [Tags.soh]

theorem finalize_eq {s : FixSerializer} {pre body : Bytes}
    (hbytes : s.asBytes = pre ++ List.replicate 6 48 ++ [Tags.soh] ++ body)
    (hstart : s.bodyStart = pre.length + 7)
    (hfits : s.pos + 7 ≤ s.buffer.length)
    : ∃ s', s.finalize = some (s', s.pos + 7) ∧ s'.buffer.length = s.buffer.length
        ∧ s'.buffer.take (s.pos + 7)
          = pre ++ padded 6 body.length ++ [Tags.soh] ++ body
              ++ checksumTrailer (pre ++ padded 6 body.length ++ [Tags.soh] ++ body) := by
  have hpos : s.pos = pre.length + 7 + body.length := by
    have := s.length_asBytes
    rw [hbytes] at this
    simp at this
    omega
  have hlength : s.pos - s.bodyStart = body.length := by omega
  have hsub : s.bodyStart - 7 = pre.length := by omega
  rcases writeU64ToBuf_eq body.length with ⟨blBuf, blLen, hwrite, hle, htake, hpadded⟩
  have hfill : overwrite (overwrite s.buffer pre.length (List.replicate 6 48))
        (pre.length + (6 - blLen)) (blBuf.take blLen)
      = overwrite s.buffer pre.length (padded 6 body.length) := by
    have hsplit : List.replicate 6 48
        = List.replicate (6 - blLen) (48 : UInt8) ++ List.replicate blLen 48 := by
      rw [List.replicate_append_replicate, Nat.sub_add_cancel hle]
    have hlen : (List.replicate (6 - blLen) (48 : UInt8)).length = 6 - blLen := by simp
    have hover := @overwrite_overwrite s.buffer (List.replicate (6 - blLen) 48)
      (List.replicate blLen 48) (blBuf.take blLen) pre.length (by rw [hlen]; omega)
      (by rw [htake, List.length_replicate])
    rw [hlen, ← hsplit, hpadded] at hover
    exact hover
  have hbefore : (overwrite s.buffer pre.length (padded 6 body.length)).take s.pos
      = pre ++ padded 6 body.length ++ [Tags.soh] ++ body := by
    rw [take_overwrite_of_le (by rw [length_padded]; omega) s.pos_le]
    change overwrite s.asBytes _ _ = _
    rw [hbytes, overwrite, length_padded]
    simp only [List.append_assoc, List.take_left]
    congr 2
    rw [List.drop_append, List.drop_eq_nil_of_le (by omega), List.nil_append,
      Nat.add_sub_cancel_left, List.drop_left' (by simp)]
  have hlenBuf : (overwrite s.buffer pre.length (padded 6 body.length)).length = s.buffer.length := by
    apply length_overwrite
    rw [length_padded]
    omega
  unfold finalize
  simp only [hlength, hsub, hwrite, hfill, hbefore, hlenBuf]
  rw [if_neg (by omega), dif_pos hfits]
  refine ⟨_, rfl, (length_overwrite (by rw [hlenBuf]; exact hfits)).trans hlenBuf, ?_⟩
  have htrailer : (checksumTrailer (pre ++ padded 6 body.length ++ [Tags.soh] ++ body)).length = 7 :=
    rfl
  have hfinal := @take_overwrite (overwrite s.buffer pre.length (padded 6 body.length))
    (checksumTrailer (pre ++ padded 6 body.length ++ [Tags.soh] ++ body)) s.pos (by omega)
  rw [htrailer, hbefore] at hfinal
  exact hfinal

theorem finalize_of_lt {s : FixSerializer} (h : s.buffer.length < s.pos + 7)
    : s.finalize = none := by
  have hpos := s.pos_le
  have hbody := s.bodyStart_le
  unfold finalize
  dsimp only
  split
  . rfl
  . rcases writeU64ToBuf_eq (s.pos - s.bodyStart) with ⟨blBuf, blLen, hwrite, hle, htake, -⟩
    have hfill : (overwrite s.buffer (s.bodyStart - 7) (List.replicate 6 48)).length
        = s.buffer.length := by
      apply length_overwrite
      rw [List.length_replicate]
      omega
    have hlen : (overwrite (overwrite s.buffer (s.bodyStart - 7) (List.replicate 6 48))
        (s.bodyStart - 7 + (6 - blLen)) (blBuf.take blLen)).length = s.buffer.length := by
      rw [length_overwrite, hfill]
      rw [hfill, htake]
      omega
    rw [hwrite]
    dsimp only
    rw [dif_neg (by omega)]

end FixSerializer

end Velocitas
