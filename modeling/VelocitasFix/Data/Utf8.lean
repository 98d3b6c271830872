import VelocitasFix.Data.Ascii
import Mathlib.Data.List.Induction

/-!
This module contains strings as sequences of UTF-8 bytes.
-/

namespace Utf8

def encode (s : String) : Bytes := s.toByteArray.data.toList

-- `none` if the bytes are not valid UTF-8.
def decode (bytes : Bytes) : Option String := String.fromUTF8? ⟨bytes.toArray⟩

theorem toByteArray_encode (s : String) : ByteArray.mk (encode s).toArray = s.toByteArray := by
  rw [encode, Array.toArray_toList]

@[simp]
theorem decode_encode (s : String) : decode (encode s) = some s := by
  unfold decode String.fromUTF8?
  rw [dif_pos (by rw [toByteArray_encode]; exact s.isValidUTF8), Option.some.injEq,
    ← String.toByteArray_inj]
  exact toByteArray_encode s

theorem encode_of_decode {bytes : Bytes} {s : String} (h : decode bytes = some s)
    : encode s = bytes := by
  unfold decode String.fromUTF8? at h
  split at h
  . injection h with h
    rw [← h]
    rfl
  . contradiction

theorem validate_of_ascii {bytes : Bytes} (h : ∀ b ∈ bytes, b < 128)
    : (ByteArray.mk bytes.toArray).validateUTF8 = true := by
  rw [ByteArray.validateUTF8_eq_true_iff]
  induction bytes using List.reverseRecOn with
  | nil => exact ⟨[], rfl⟩
  | append_singleton bytes b ih =>
    have hchar : (Char.ofUInt8 b).toUInt8 = b := UInt8.toUInt8_toUInt32 b
    have hsize : (Char.ofUInt8 b).utf8Size = 1 := by
      have hb : b.toNat < 128 := h b (by simp)
      unfold Char.utf8Size
      rw [if_pos]
      rw [UInt32.le_iff_toNat_le]
      exact Nat.le_of_lt_succ hb
    have hpush : ByteArray.mk (bytes ++ [b]).toArray
        = (ByteArray.mk bytes.toArray).push (Char.ofUInt8 b).toUInt8 := by
      rw [hchar]
      change _ = ByteArray.mk (bytes.toArray.push b)
      rw [List.push_toArray]
    rw [hpush]
    apply ByteArray.IsValidUTF8.push _ hsize
    apply ih
    intro c hc
    apply h
    simp [hc]

end Utf8
