import VelocitasFix.Parser.Boundary
import VelocitasFix.Serializer.RoundTrip

/-!
This module contains the detection of a corrupted byte: a message of the serializer in which one byte
was replaced is refused as a message of its length, unless the replacement is one that the decoding of
the CheckSum digits maps to the same number.
-/

namespace Velocitas

open Ascii

namespace Checksum

theorem trailerAt_iff_getElem? {msg : Bytes} {i : Nat}
    : trailerAt msg i
        ↔
      msg[i]? = some Tags.soh ∧ msg[i + 1]? = some 49 ∧ msg[i + 2]? = some 48
        ∧ msg[i + 3]? = some Tags.equals := by
  simp only [trailerAt, Bool.and_eq_true, decide_eq_true_eq, and_assoc]

theorem trailerAt_set_of_apart {msg : Bytes} {i j : Nat} (b : UInt8) (h : i < j ∨ j + 4 ≤ i)
    : trailerAt (msg.set i b) j = trailerAt msg j := by
  have hget (k : Nat) (hk : k ≠ i) : (msg.set i b)[k]? = msg[k]? :=
    List.getElem?_set_ne (Ne.symm hk)
  simp only [trailerAt]
  rw [hget j (by omega), hget (j + 1) (by omega), hget (j + 2) (by omega), hget (j + 3) (by omega)]

theorem compute_set_ne {data : Bytes} {i : Nat} (h : i < data.length) {b : UInt8}
    (hb : b ≠ data[i])
    : compute (data.set i b) ≠ compute data := by
  intro heq
  have hsum := byteSum_set h b
  have hmod := congrArg UInt8.toNat heq
  rw [compute_toNat, compute_toNat] at hmod
  have := b.toNat_lt
  have := data[i].toNat_lt
  apply hb
  apply UInt8.toNat_inj.mp
  omega

theorem stated_toNat (c0 c1 c2 : UInt8) (rest : Bytes)
    : (stated (c0 :: c1 :: c2 :: rest) 0).toNat
        = (100 * c0.toNat + 10 * c1.toNat + c2.toNat + 48) % 256 := by
  simp only [stated, List.getD_cons_zero, List.getD_cons_succ, UInt8.toNat_add, UInt8.toNat_mul,
    UInt8.toNat_sub, UInt8.reduceToNat]
  omega

-- The weights of the digits are not units modulo 256.
theorem stated_first_eq_iff (b c0 c1 c2 : UInt8) (rest : Bytes)
    : stated (b :: c1 :: c2 :: rest) 0 = stated (c0 :: c1 :: c2 :: rest) 0
        ↔ b.toNat % 64 = c0.toNat % 64 := by
  rw [← UInt8.toNat_inj, stated_toNat, stated_toNat]
  omega

theorem stated_second_eq_iff (b c0 c1 c2 : UInt8) (rest : Bytes)
    : stated (c0 :: b :: c2 :: rest) 0 = stated (c0 :: c1 :: c2 :: rest) 0
        ↔ b.toNat % 128 = c1.toNat % 128 := by
  rw [← UInt8.toNat_inj, stated_toNat, stated_toNat]
  omega

theorem stated_third_eq_iff (b c0 c1 c2 : UInt8) (rest : Bytes)
    : stated (c0 :: c1 :: b :: rest) 0 = stated (c0 :: c1 :: c2 :: rest) 0 ↔ b = c2 := by
  rw [← UInt8.toNat_inj, ← UInt8.toNat_inj, stated_toNat, stated_toNat]
  have := b.toNat_lt
  have := c2.toNat_lt
  omega

theorem digit_of_stated_set {b c0 c1 c2 : UInt8} {value : Bytes} {d : Nat} (hd : d < 4)
    (h : stated ([c0, c1, c2, Tags.soh].set d b) 0 = stated [c0, c1, c2, Tags.soh] 0)
    (hvalue : value ++ [Tags.soh] = [c0, c1, c2, Tags.soh].set d b)
    (hb : b ≠ [c0, c1, c2, Tags.soh].getD d 0)
    : (d = 0 ∧ b.toNat % 64 = ([c0, c1, c2, Tags.soh].getD d 0).toNat % 64)
        ∨ (d = 1 ∧ b.toNat % 128 = ([c0, c1, c2, Tags.soh].getD d 0).toNat % 128) := by
  have hplace : d = 0 ∨ d = 1 ∨ d = 2 ∨ d = 3 := by
    omega
  rcases hplace with rfl | rfl | rfl | rfl
  . exact .inl ⟨rfl, (stated_first_eq_iff b c0 c1 c2 [Tags.soh]).mp h⟩
  . exact .inr ⟨rfl, (stated_second_eq_iff b c0 c1 c2 [Tags.soh]).mp h⟩
  . exact absurd ((stated_third_eq_iff b c0 c1 c2 [Tags.soh]).mp h) hb
  . -- A message ends with SOH.
    have hlast := congrArg List.getLast? hvalue
    rw [List.getLast?_concat] at hlast
    exact absurd (Option.some.inj hlast).symm hb

end Checksum

namespace LaxMessage

theorem trailerAt_bytes (m : LaxMessage) {i : Nat} (hi : i + 1 = (renderFields m.preamble).length)
    : Checksum.trailerAt m.bytes i := by
  have hat := @trailerAt_renderFields m.preamble [] m.checkSum [] m.preamble_ne_nil
    m.checkSum_tagText
  rw [List.append_nil, ← hi, Nat.add_sub_cancel] at hat
  exact hat

-- A field that starts with `10` goes on with a digit or with the equals sign.
theorem not_soh_of_getElem? (m : LaxMessage) {i : Nat} (hi : i + 3 < m.bytes.length)
    (h0 : m.bytes[i]? = some Tags.soh) (h1 : m.bytes[i + 1]? = some 49)
    (h2 : m.bytes[i + 2]? = some 48)
    : m.bytes[i + 3]? ≠ some Tags.soh := by
  intro h3
  have hdrop : (renderFields m.fields ++ []).drop i
      = Tags.soh :: 49 :: 48 :: Tags.soh :: m.bytes.drop (i + 4) := by
    rw [List.append_nil]
    change m.bytes.drop i = _
    rw [List.getElem?_eq_some_iff] at h0 h1 h2 h3
    rw [List.drop_eq_getElem_cons h0.1, List.drop_eq_getElem_cons h1.1,
      List.drop_eq_getElem_cons h2.1, List.drop_eq_getElem_cons h3.1, h0.2, h1.2, h2.2, h3.2]
  obtain ⟨pre, post, _, _, _, htail⟩ := exists_of_drop_renderFields (by
    change i < m.bytes.length
    omega) hdrop
  rw [List.append_nil] at htail
  cases post with
  | nil => contradiction
  | cons g post =>
    simp only [renderFields_cons, RawField.render, List.append_assoc, List.cons_append] at htail
    have hdigits := g.digits
    generalize g.tagText = text at htail hdigits
    -- The third byte of the tag would be SOH.
    cases text with
    | nil => simp [Tags.equals] at htail
    | cons a text =>
      cases text with
      | nil => simp [Tags.equals] at htail
      | cons b text =>
        cases text with
        | nil => simp [Tags.equals, Tags.soh] at htail
        | cons c text =>
          simp only [List.cons_append, List.cons.injEq] at htail
          simp only [allDigits_cons] at hdigits
          rw [← htail.2.2.1] at hdigits
          exact absurd hdigits.2.2.1 (by decide)

-- One changed byte cannot move the trailer: `SOH 10=` does not overlap itself.
theorem length_preamble_of_set {m other : LaxMessage} {i : Nat} {b : UInt8}
    (hthree : m.checkSum.value.length = 3) (htwo : 2 ≤ other.checkSum.value.length)
    (h : other.bytes = m.bytes.set i b)
    : (renderFields other.preamble).length = (renderFields m.preamble).length := by
  have hlen := congrArg List.length h
  rw [List.length_set, m.length_bytes, other.length_bytes] at hlen
  obtain ⟨k, hk⟩ : ∃ k, k + 1 = (renderFields m.preamble).length :=
    ⟨_, Nat.sub_add_cancel m.length_preamble_pos⟩
  obtain ⟨j, hj⟩ : ∃ j, j + 1 = (renderFields other.preamble).length :=
    ⟨_, Nat.sub_add_cancel other.length_preamble_pos⟩
  have hm := m.trailerAt_bytes hk
  have hother := other.trailerAt_bytes hj
  by_contra hne
  have hfar : ¬ (i < k ∨ k + 4 ≤ i) := by
    intro hapart
    have hat : Checksum.trailerAt (other.bytes ++ []) k := by
      rw [List.append_nil, h, Checksum.trailerAt_set_of_apart b hapart]
      exact hm
    have := other.eq_of_trailerAt (by rw [other.length_bytes]; omega) hat
    omega
  have hnear : ¬ j + 4 ≤ i := by
    intro hapart
    rw [h, Checksum.trailerAt_set_of_apart b (.inr hapart)] at hother
    have hat : Checksum.trailerAt (m.bytes ++ []) j := by
      rw [List.append_nil]
      exact hother
    have := m.eq_of_trailerAt (by rw [m.length_bytes]; omega) hat
    omega
  rw [h, Checksum.trailerAt_iff_getElem?] at hother
  obtain ⟨h0, h1, h2, h3⟩ := hother
  obtain ⟨m0, m1, m2, _⟩ := Checksum.trailerAt_iff_getElem?.mp hm
  have hkeep (x : Nat) (hx : x ≠ i) : (m.bytes.set i b)[x]? = m.bytes[x]? :=
    List.getElem?_set_ne (Ne.symm hx)
  -- Two bytes of the overlap disagree, and at most one of them has changed.
  have hclash (x : Nat) (c d : UInt8) (hset : (m.bytes.set i b)[x]? = some c)
      (hget : m.bytes[x]? = some d) (hcd : c ≠ d)
      : x = i := by
    by_contra hx
    rw [hkeep x hx, hget, Option.some.injEq] at hset
    exact hcd hset.symm
  have hoverlap : j = k + 1 ∨ j + 1 = k ∨ j + 2 = k ∨ j + 3 = k := by
    omega
  rcases hoverlap with rfl | rfl | rfl | rfl
  . have := hclash _ _ _ h0 m1 (by decide)
    have := hclash _ _ _ h1 m2 (by decide)
    omega
  . have := hclash _ _ _ h1 m0 (by decide)
    have := hclash _ _ _ h2 m1 (by decide)
    omega
  . have := hclash _ _ _ h2 m0 (by decide)
    have := hclash _ _ _ h3 m1 (by decide)
    omega
  . have hi := hclash _ _ _ h3 m0 (by decide)
    rw [hkeep _ (by omega)] at h0 h1 h2
    exact m.not_soh_of_getElem? (by rw [m.length_bytes]; omega) h0 h1 h2 m0

end LaxMessage

-- The first two CheckSum digits, replaced by a byte that decodes to the same number modulo 256.
def Unnoticed (bytes : Bytes) (i : Nat) (b : UInt8) : Prop :=
  (i + 4 = bytes.length ∧ b.toNat % 64 = (bytes.getD i 0).toNat % 64)
    ∨ (i + 3 = bytes.length ∧ b.toNat % 128 = (bytes.getD i 0).toNat % 128)

namespace LaxMessage

theorem getD_checkSum (m : LaxMessage) (d : Nat)
    : m.bytes.getD ((renderFields m.preamble).length + 3 + d) 0
        = (m.checkSum.value ++ [Tags.soh]).getD d 0 := by
  rw [← m.drop_bytes]
  simp [List.getD_eq_getElem?_getD]

section

variable {m other : LaxMessage} {i : Nat} {b : UInt8}

theorem le_of_set (hm : m.Accepted) (hother : other.Accepted)
    (hthree : m.checkSum.value.length = 3) (h : other.bytes = m.bytes.set i b)
    (hi : i < m.bytes.length) (hb : b ≠ m.bytes[i])
    : (renderFields m.preamble).length ≤ i := by
  have hpre := length_preamble_of_set hthree hother.two_le_length h
  by_contra hlt
  rw [Nat.not_le] at hlt
  have htake : renderFields other.preamble = (renderFields m.preamble).set i b := by
    rw [← m.take_bytes, ← List.take_set, ← h, ← hpre, other.take_bytes]
  have hdrop : other.checkSum.value ++ [Tags.soh] = m.checkSum.value ++ [Tags.soh] := by
    rw [← other.drop_bytes, h, hpre, List.drop_set, if_pos (by omega), m.drop_bytes]
  have hget : (renderFields m.preamble)[i] = m.bytes[i] := by
    apply Option.some.inj
    rw [← List.getElem?_eq_getElem hlt, ← List.getElem?_eq_getElem hi, m.bytes_eq,
      List.getElem?_append_left hlt]
  -- The sum changes and what is stated does not.
  apply @Checksum.compute_set_ne _ _ hlt b (by rw [hget]; exact hb)
  rw [← htake, hother.checkSum_eq, hdrop, ← hm.checkSum_eq]

theorem tag_le_of_set (htwo : 2 ≤ other.checkSum.value.length)
    (hthree : m.checkSum.value.length = 3) (h : other.bytes = m.bytes.set i b)
    (hi : i < m.bytes.length) (hb : b ≠ m.bytes[i])
    (hle : (renderFields m.preamble).length ≤ i)
    : (renderFields m.preamble).length + 3 ≤ i := by
  have hpre := length_preamble_of_set hthree htwo h
  by_contra hlt
  obtain ⟨k, hk⟩ : ∃ k, k + 1 = (renderFields m.preamble).length :=
    ⟨_, Nat.sub_add_cancel m.length_preamble_pos⟩
  -- Both messages have the trailer at the same place.
  have hm := Checksum.trailerAt_iff_getElem?.mp (m.trailerAt_bytes hk)
  have ho := Checksum.trailerAt_iff_getElem?.mp (other.trailerAt_bytes (hk.trans hpre.symm))
  rw [h] at ho
  have hsame : (m.bytes.set i b)[i]? = m.bytes[i]? := by
    have hplace : i = k + 1 ∨ i = k + 2 ∨ i = k + 3 := by
      omega
    rcases hplace with rfl | rfl | rfl
    . rw [ho.2.1, hm.2.1]
    . rw [ho.2.2.1, hm.2.2.1]
    . rw [ho.2.2.2, hm.2.2.2]
  rw [List.getElem?_set_self hi, List.getElem?_eq_getElem hi, Option.some.injEq] at hsame
  exact hb hsame

theorem unnoticed_of_accepted (hm : m.Accepted) (hother : other.Accepted) {c0 c1 c2 : UInt8}
    (hvalue : m.checkSum.value = [c0, c1, c2]) (h : other.bytes = m.bytes.set i b)
    (hi : i < m.bytes.length) (hb : b ≠ m.bytes[i])
    : Unnoticed m.bytes i b := by
  have hthree : m.checkSum.value.length = 3 := by
    rw [hvalue]
    rfl
  have hpre := length_preamble_of_set hthree hother.two_le_length h
  have hle := tag_le_of_set hother.two_le_length hthree h hi hb (le_of_set hm hother hthree h hi hb)
  have hlen := m.length_bytes
  obtain ⟨d, rfl⟩ : ∃ d, i = (renderFields m.preamble).length + 3 + d :=
    ⟨_, (Nat.add_sub_cancel' hle).symm⟩
  have htake : renderFields other.preamble = renderFields m.preamble := by
    rw [← m.take_bytes, ← other.take_bytes, h, hpre, List.take_set,
      List.set_eq_of_length_le (by rw [List.length_take]; omega)]
  have hdrop : other.checkSum.value ++ [Tags.soh] = [c0, c1, c2, Tags.soh].set d b := by
    rw [← other.drop_bytes, h, hpre, List.drop_set, if_neg (by omega), m.drop_bytes, hvalue,
      Nat.add_sub_cancel_left]
    rfl
  have hstated : Checksum.stated ([c0, c1, c2, Tags.soh].set d b) 0
      = Checksum.stated [c0, c1, c2, Tags.soh] 0 := by
    rw [← hdrop, ← hother.checkSum_eq, htake, hm.checkSum_eq, hvalue]
    rfl
  have hold : m.bytes.getD ((renderFields m.preamble).length + 3 + d) 0
      = [c0, c1, c2, Tags.soh].getD d 0 := by
    rw [m.getD_checkSum, hvalue]
    rfl
  have hne : b ≠ [c0, c1, c2, Tags.soh].getD d 0 := by
    rw [← hold, List.getD_eq_getElem?_getD, List.getElem?_eq_getElem hi]
    exact hb
  rw [Unnoticed, hold]
  rcases Checksum.digit_of_stated_set (by omega) hstated hdrop hne with ⟨rfl, hmod⟩ | ⟨rfl, hmod⟩
  . exact .inl ⟨by omega, hmod⟩
  . exact .inr ⟨by omega, hmod⟩

end

def withCheckSum (m : LaxMessage) (value : Bytes) (h : Tags.soh ∉ value) : LaxMessage :=
  { m with
    checkSum := { m.checkSum with value := value, sohFree := h }
    checkSum_tagText := m.checkSum_tagText }

theorem bytes_withCheckSum (m : LaxMessage) {value : Bytes} (h : Tags.soh ∉ value) {d : Nat}
    {b : UInt8} (hset : value ++ [Tags.soh] = (m.checkSum.value ++ [Tags.soh]).set d b)
    : (m.withCheckSum value h).bytes
        = m.bytes.set ((renderFields m.preamble).length + 3 + d) b := by
  have hpre : (m.withCheckSum value h).preamble = m.preamble := rfl
  have hsum : (m.withCheckSum value h).checkSum.value = value := rfl
  have hsub : (renderFields m.preamble).length + 3 + d - (renderFields m.preamble).length
      = d + 1 + 1 + 1 := by
    omega
  have hright := @List.set_append_right _ (renderFields m.preamble)
    (checksumText ++ Tags.equals :: (m.checkSum.value ++ [Tags.soh]))
    ((renderFields m.preamble).length + 3 + d) b (by omega)
  rw [bytes_eq, hpre, hsum, hset, m.bytes_eq, hright, hsub]
  rfl

theorem accepted_withCheckSum {m : LaxMessage} (hm : m.Accepted) {value : Bytes}
    (h : Tags.soh ∉ value) (htwo : 2 ≤ value.length)
    (hstated : Checksum.stated (value ++ [Tags.soh]) 0
      = Checksum.stated (m.checkSum.value ++ [Tags.soh]) 0)
    : (m.withCheckSum value h).Accepted where
  bodyLength_eq := hm.bodyLength_eq
  two_le_length := htwo
  checkSum_eq := by
    have hpre : (m.withCheckSum value h).preamble = m.preamble := rfl
    have hsum : (m.withCheckSum value h).checkSum.value = value := rfl
    rw [hpre, hsum, hstated, hm.checkSum_eq]

theorem ne_soh_of_mod {b c : UInt8} (hc : IsDigit c) (h : b.toNat % 64 = c.toNat % 64)
    : Tags.soh ≠ b := by
  rw [isDigit_iff_toNat] at hc
  intro heq
  rw [← heq] at h
  have hsoh : Tags.soh.toNat = 1 := by decide
  omega

theorem exists_accepted_of_unnoticed {m : LaxMessage} (hm : m.Accepted) {c0 c1 c2 : UInt8}
    (hvalue : m.checkSum.value = [c0, c1, c2]) (hdigits : AllDigits [c0, c1, c2]) {i : Nat}
    {b : UInt8} (h : Unnoticed m.bytes i b)
    : ∃ other : LaxMessage, other.Accepted ∧ other.bytes = m.bytes.set i b := by
  have hlen := m.length_bytes
  have hold := m.getD_checkSum
  simp only [allDigits_cons] at hdigits
  have hsoh (c : UInt8) (hc : IsDigit c) : Tags.soh ≠ c := ne_soh_of_mod hc rfl
  have h0 := hsoh c0 hdigits.1
  have h1 := hsoh c1 hdigits.2.1
  have h2 := hsoh c2 hdigits.2.2.1
  rw [hvalue] at hold
  rw [hvalue, List.length_cons, List.length_cons, List.length_cons, List.length_nil] at hlen
  rcases h with ⟨hi, hmod⟩ | ⟨hi, hmod⟩
  . have hplace : i = (renderFields m.preamble).length + 3 + 0 := by omega
    rw [hplace, hold] at hmod
    have hb : Tags.soh ≠ b := ne_soh_of_mod hdigits.1 hmod
    have hfree : Tags.soh ∉ [b, c1, c2] := by simp [hb, h1, h2]
    refine ⟨m.withCheckSum [b, c1, c2] hfree, accepted_withCheckSum hm hfree (by simp) ?_, ?_⟩
    . rw [hvalue]
      exact (Checksum.stated_first_eq_iff b c0 c1 c2 [Tags.soh]).mpr hmod
    . rw [hplace]
      apply m.bytes_withCheckSum
      rw [hvalue]
      rfl
  . have hplace : i = (renderFields m.preamble).length + 3 + 1 := by omega
    rw [hplace, hold] at hmod
    change b.toNat % 128 = c1.toNat % 128 at hmod
    have hb : Tags.soh ≠ b := ne_soh_of_mod hdigits.2.1 (by omega)
    have hfree : Tags.soh ∉ [c0, b, c2] := by simp [hb, h0, h2]
    refine ⟨m.withCheckSum [c0, b, c2] hfree, accepted_withCheckSum hm hfree (by simp) ?_, ?_⟩
    . rw [hvalue]
      exact (Checksum.stated_second_eq_iff b c0 c1 c2 [Tags.soh]).mpr hmod
    . rw [hplace]
      apply m.bytes_withCheckSum
      rw [hvalue]
      rfl

end LaxMessage

theorem FixSerializer.bytes_of_serialize {buffer : Bytes} {m : OutMessage} {s : FixSerializer}
    {n : Nat} (h : serialize buffer m = some (s, n))
    : n = m.bytes.length ∧ s.buffer.take m.bytes.length = m.bytes := by
  have hfits : m.bytes.length ≤ buffer.length := by
    by_contra hlt
    rw [serialize_of_lt (by omega)] at h
    contradiction
  obtain ⟨s', hs', -, hbytes⟩ := serialize_of_le hfits
  rw [h, Option.some.injEq, Prod.mk.injEq] at hs'
  obtain ⟨rfl, rfl⟩ := hs'
  exact ⟨rfl, hbytes⟩

theorem OutMessage.exists_laxMessage_digits {m : OutMessage} (hbegin : Tags.soh ∉ m.beginString)
    (htype : Tags.soh ∉ m.msgType) (hargs : ∀ arg ∈ m.args, arg.Valid)
    (hlen : m.bytes.length ≤ 65536)
    : ∃ (lax : LaxMessage) (c0 c1 c2 : UInt8), lax.bytes = m.bytes ∧ lax.Accepted
        ∧ lax.checkSum.value = [c0, c1, c2] ∧ AllDigits [c0, c1, c2] := by
  have hbody := m.length_body_lt
  obtain ⟨lax, hbytes, hentries, hlax⟩ := m.exists_laxMessage hbegin htype hargs (by omega)
  have hlast := congrArg List.getLast? hentries
  rw [LaxMessage.fields, List.map_append, List.map_singleton, List.getLast?_concat, entries,
    List.getLast?_concat, Option.some.injEq] at hlast
  have hvalue : lax.checkSum.value = m.checkSumText := congrArg Prod.snd hlast
  have hdigits : AllDigits m.checkSumText := allDigits_padded _ _
  have hthree : m.checkSumText.length = 3 := length_padded _ _
  rcases List.length_eq_three.mp hthree with ⟨c0, c1, c2, htext⟩
  rw [htext] at hvalue hdigits
  exact ⟨lax, c0, c1, c2, hbytes, hlax, hvalue, hdigits⟩

namespace FixParser

theorem parse_set_iff {m : OutMessage} (hbegin : Tags.soh ∉ m.beginString)
    (htype : Tags.soh ∉ m.msgType) (hargs : ∀ arg ∈ m.args, arg.Valid)
    (hlen : m.bytes.length ≤ 65536) {i : Nat} (hi : i < m.bytes.length) {b : UInt8}
    (hb : b ≠ m.bytes[i])
    : (∃ view, new.parse (m.bytes.set i b) = .ok (view, m.bytes.length))
        ↔ Unnoticed m.bytes i b := by
  obtain ⟨lax, c0, c1, c2, hlax, hm, hvalue, hdigits⟩ :=
    m.exists_laxMessage_digits hbegin htype hargs hlen
  have hmin := m.twenty_le_length
  simp only [← hlax] at hi hb hlen hmin ⊢
  constructor
  . intro h
    obtain ⟨view, hparse⟩ := h
    obtain ⟨-, -, other, rest, hsplit, hother, -, hconsumed⟩ := parse_new_eq_ok.mp hparse
    -- The message fills the buffer.
    have hrest : rest = [] := by
      have hcount := congrArg List.length hsplit
      rw [List.length_set, List.length_append, hconsumed] at hcount
      apply List.eq_nil_of_length_eq_zero
      omega
    rw [hrest, List.append_nil] at hsplit
    exact LaxMessage.unnoticed_of_accepted hm hother hvalue hsplit.symm hi hb
  . intro h
    obtain ⟨other, hother, hset⟩ := LaxMessage.exists_accepted_of_unnoticed hm hvalue hdigits h
    have hcount : other.bytes.length = lax.bytes.length := by
      rw [hset, List.length_set]
    refine ⟨_, parse_new_eq_ok.mpr ⟨?_, ?_, other, [], ?_, hother, rfl, hcount.symm⟩⟩
    . rw [List.length_set]
      exact hmin
    . rw [List.length_set]
      exact hlen
    . rw [List.append_nil, hset]

end FixParser

end Velocitas
