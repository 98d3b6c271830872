import VelocitasFix.Data.LittleEndian

/-!
This module contains pieces of bytes that follow one another, each behind its length: a little-endian
number of fixed width.
-/

namespace LengthPrefixed

variable {width : Nat}

def write (width : Nat) (piece : Bytes) : Bytes := LittleEndian.encode width piece.length ++ piece

-- The piece at an offset and the offset behind it, `none` if the data ends before the piece does.
def read (width : Nat) (data : Bytes) (offset : Nat) : Option (Bytes × Nat) :=
  if offset + width > data.length then
    none
  else
    let length := LittleEndian.decode (slice data offset width)
    if offset + width + length > data.length then
      none
    else
      some (slice data (offset + width) length, offset + width + length)

theorem length_write (piece : Bytes) : (write width piece).length = width + piece.length := by
  simp [write]

theorem read_of_drop {data piece rest : Bytes} {offset : Nat} (hwidth : 0 < width)
    (h : piece.length < 256 ^ width) (hdrop : data.drop offset = write width piece ++ rest)
    : read width data offset = some (piece, offset + (write width piece).length) := by
  have hlen : data.length - offset = width + piece.length + rest.length := by
    rw [← List.length_drop, hdrop, List.length_append, length_write]
  rw [write, List.append_assoc] at hdrop
  have hcount : LittleEndian.decode (slice data offset width) = piece.length := by
    rw [slice, hdrop, List.take_left' (LittleEndian.length_encode width piece.length)]
    exact LittleEndian.decode_encode_of_lt h
  have hpiece : slice data (offset + width) piece.length = piece := by
    have hnext := drop_of_drop_eq_append hdrop
    rw [LittleEndian.length_encode] at hnext
    rw [slice, hnext, List.take_left]
  unfold read
  dsimp only
  rw [hcount, hpiece, length_write, if_neg (by omega), if_neg (by omega), Nat.add_assoc]

theorem of_read {data piece : Bytes} {offset next : Nat}
    (h : read width data offset = some (piece, next))
    : piece.length < 256 ^ width := by
  unfold read at h
  split at h
  . contradiction
  . next hfit =>
    dsimp only at h
    split at h
    . contradiction
    . injection h with h
      injection h with hpiece _
      have hlt := LittleEndian.decode_lt (slice data offset width)
      rw [length_slice (by omega)] at hlt
      rw [← hpiece]
      exact Nat.lt_of_le_of_lt (List.length_take_le _ _) hlt

-- What is read stands in the data.
theorem drop_of_read {data piece : Bytes} {offset next : Nat}
    (h : read width data offset = some (piece, next))
    : next ≤ data.length ∧ data.drop offset = write width piece ++ data.drop next := by
  unfold read at h
  split at h
  . contradiction
  . next hfit =>
    dsimp only at h
    split at h
    . contradiction
    . next hend =>
      have hcount := LittleEndian.encode_decode (slice data offset width)
      rw [length_slice (by omega)] at hcount
      generalize LittleEndian.decode (slice data offset width) = length at h hend hcount
      injection h with h
      injection h with hpiece hnext
      have hlen : piece.length = length := by
        rw [← hpiece]
        apply length_slice
        omega
      refine ⟨by omega, ?_⟩
      rw [write, hlen, hcount, ← hpiece, ← hnext, List.append_assoc, ← drop_eq_slice_append,
        ← drop_eq_slice_append]

-- The first pieces, up to `count` of them, as far as they are complete.
def pieces (width : Nat) (data : Bytes) : Nat → Nat → List Bytes
  | 0, _ => []
  | count + 1, offset =>
    match read width data offset with
    | none => []
    | some (piece, next) => piece :: pieces width data count next

theorem pieces_of_drop {data rest : Bytes} {offset : Nat} {ps : List Bytes} (hwidth : 0 < width)
    (h : ∀ piece ∈ ps, piece.length < 256 ^ width)
    (hdrop : data.drop offset = ps.flatMap (write width) ++ rest)
    : pieces width data ps.length offset = ps := by
  induction ps generalizing offset with
  | nil => rfl
  | cons piece ps ih =>
    rw [List.forall_mem_cons] at h
    rw [List.flatMap_cons, List.append_assoc] at hdrop
    rw [List.length_cons, pieces, read_of_drop hwidth h.1 hdrop]
    dsimp only
    rw [ih h.2 (drop_of_drop_eq_append hdrop)]

end LengthPrefixed
