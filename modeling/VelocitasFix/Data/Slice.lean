import VelocitasFix.Data.Ascii

/-!
This module contains slices of a byte sequence and writes into one at an offset.
-/

section Drop

variable {α : Type} {bs rest xs ys : List α} {b : α} {pos : Nat}

theorem drop_of_drop_eq_append (h : bs.drop pos = xs ++ ys) : bs.drop (pos + xs.length) = ys := by
  rw [← List.drop_drop, h]
  simp

theorem drop_of_drop_eq_cons (h : bs.drop pos = b :: rest) : bs.drop (pos + 1) = rest := by
  rw [← List.drop_drop, h]
  rfl

theorem lt_length_of_drop_ne_nil (h : bs.drop pos ≠ []) : pos < bs.length := by
  rw [ne_eq, List.drop_eq_nil_iff] at h
  omega

theorem lt_length_of_drop_eq_cons (h : bs.drop pos = b :: rest) : pos < bs.length := by
  apply lt_length_of_drop_ne_nil
  rw [h]
  simp

theorem getElem_of_drop_eq_cons (h : bs.drop pos = b :: rest) (hpos : pos < bs.length)
    : bs[pos] = b := by
  rw [List.drop_eq_getElem_cons hpos] at h
  injection h

end Drop

def slice (bytes : Bytes) (offset length : Nat) : Bytes :=
  (bytes.drop offset).take length

theorem slice_append_left (pre mid post : Bytes) :
    slice (pre ++ mid ++ post) pre.length mid.length = mid := by
  simp [slice]

theorem slice_append_of_length {pre mid post : Bytes} {offset length : Nat}
    (hpre : pre.length = offset) (hmid : mid.length = length)
    : slice (pre ++ mid ++ post) offset length = mid := by
  rw [← hpre, ← hmid, slice_append_left]

theorem slice_of_drop {bytes xs rest : Bytes} {offset length : Nat} (hlen : xs.length = length)
    (h : bytes.drop offset = xs ++ rest)
    : slice bytes offset length = xs := by
  rw [slice, h, ← hlen, List.take_left]

theorem length_slice {bytes : Bytes} {offset length : Nat} (h : offset + length ≤ bytes.length)
    : (slice bytes offset length).length = length := by
  simp only [slice, List.length_take, List.length_drop]
  omega

theorem slice_add (bytes : Bytes) (offset n m : Nat)
    : slice bytes offset (n + m) = slice bytes offset n ++ slice bytes (offset + n) m := by
  simp only [slice]
  rw [List.take_add, List.drop_drop]

theorem drop_eq_slice_append (bytes : Bytes) (offset n : Nat)
    : bytes.drop offset = slice bytes offset n ++ bytes.drop (offset + n) := by
  rw [slice, ← List.drop_drop, List.take_append_drop]

def overwrite (bytes : Bytes) (offset : Nat) (data : Bytes) : Bytes :=
  bytes.take offset ++ data ++ bytes.drop (offset + data.length)

@[simp]
theorem length_overwrite {bytes data : Bytes} {offset : Nat}
    (h : offset + data.length ≤ bytes.length) :
    (overwrite bytes offset data).length = bytes.length := by
  simp only [overwrite, List.length_append, List.length_take, List.length_drop]
  omega

theorem take_overwrite {bytes data : Bytes} {offset : Nat} (h : offset ≤ bytes.length)
    : (overwrite bytes offset data).take (offset + data.length) = bytes.take offset ++ data := by
  have hlen : (bytes.take offset ++ data).length = offset + data.length := by
    rw [List.length_append, List.length_take]
    omega
  rw [overwrite, ← hlen, List.take_left]

theorem drop_overwrite {bytes data : Bytes} {offset n : Nat} (h : offset ≤ bytes.length)
    (hn : offset + data.length ≤ n)
    : (overwrite bytes offset data).drop n = bytes.drop n := by
  have hlen : (bytes.take offset ++ data).length = offset + data.length := by
    rw [List.length_append, List.length_take]
    omega
  rw [overwrite, List.drop_append, List.drop_eq_nil_of_le (by omega), hlen, List.drop_drop,
    Nat.add_sub_cancel' hn]
  rfl

theorem slice_overwrite_self {bytes data : Bytes} {offset : Nat}
    (h : offset + data.length ≤ bytes.length)
    : slice (overwrite bytes offset data) offset data.length = data := by
  have hlen : (bytes.take offset).length = offset := by
    rw [List.length_take]
    omega
  have hslice := slice_append_left (bytes.take offset) data (bytes.drop (offset + data.length))
  rwa [hlen] at hslice

theorem slice_eq_drop_take (bytes : Bytes) (offset n : Nat)
    : slice bytes offset n = (bytes.take (offset + n)).drop offset := by
  rw [slice, List.drop_take, Nat.add_sub_cancel_left]

theorem slice_congr_of_take {bytes other : Bytes} {n offset length : Nat}
    (h : other.take n = bytes.take n) (hle : offset + length ≤ n)
    : slice other offset length = slice bytes offset length := by
  have htake := congrArg (List.take (offset + length)) h
  rw [List.take_take, List.take_take, Nat.min_eq_left hle] at htake
  rw [slice_eq_drop_take, htake, slice_eq_drop_take]

theorem slice_overwrite_of_apart {bytes data : Bytes} {offset n start : Nat}
    (h : start + data.length ≤ bytes.length)
    (hapart : offset + n ≤ start ∨ start + data.length ≤ offset)
    : slice (overwrite bytes start data) offset n = slice bytes offset n := by
  cases hapart with
  | inl hle =>
    have hlen : (bytes.take start).length = start := by
      rw [List.length_take]
      omega
    have htake : (overwrite bytes start data).take (offset + n) = bytes.take (offset + n) := by
      rw [overwrite, List.append_assoc, List.take_append_of_le_length (by omega), List.take_take,
        Nat.min_eq_left hle]
    rw [slice_eq_drop_take, htake, slice_eq_drop_take]
  | inr hle =>
    rw [slice, drop_overwrite (by omega) hle, slice]

theorem overwrite_zero (bytes data : Bytes)
    : overwrite bytes 0 data = data ++ bytes.drop data.length := by
  rw [overwrite, List.take_zero, List.nil_append, Nat.zero_add]

-- A write over a sequence leaves it as it was only if the one starts with the other.
theorem slice_overwrite_zero_iff (xs ys rest : Bytes)
    : slice (overwrite (xs ++ rest) 0 ys) 0 xs.length = xs ↔ xs <+: ys ∨ ys <+: xs := by
  rw [slice, List.drop_zero, overwrite_zero]
  cases Nat.le_total xs.length ys.length with
  | inl hle =>
    rw [List.take_append_of_le_length hle]
    constructor
    . intro h
      left
      rw [← h]
      apply List.take_prefix
    . intro h
      cases h with
      | inl hpre => exact (List.prefix_iff_eq_take.mp hpre).symm
      | inr hpre =>
        have heq := hpre.eq_of_length_le hle
        rw [heq, List.take_length]
  | inr hle =>
    have htake : (ys ++ (xs ++ rest).drop ys.length).take xs.length = ys ++ xs.drop ys.length := by
      have hlen : (ys ++ xs.drop ys.length).length = xs.length := by
        rw [List.length_append, List.length_drop]
        omega
      rw [List.drop_append_of_le_length hle, ← List.append_assoc, ← hlen, List.take_left]
    rw [htake]
    constructor
    . intro h
      right
      rw [← h]
      apply List.prefix_append
    . intro h
      have hpre : ys <+: xs := by
        cases h with
        | inl hpre =>
          obtain rfl := hpre.eq_of_length_le hle
          apply List.prefix_rfl
        | inr hpre => exact hpre
      exact (List.prefix_iff_eq_append.mp hpre)

-- The second write starts inside the first one and covers what is left of it.
theorem overwrite_overwrite {bytes xs zs ys : Bytes} {offset : Nat}
    (h : offset + xs.length ≤ bytes.length) (hle : zs.length ≤ ys.length)
    : overwrite (overwrite bytes offset (xs ++ zs)) (offset + xs.length) ys
        = overwrite bytes offset (xs ++ ys) := by
  have htake : (overwrite bytes offset (xs ++ zs)).take (offset + xs.length)
      = bytes.take offset ++ xs := by
    have hlen : (bytes.take offset ++ xs).length = offset + xs.length := by
      rw [List.length_append, List.length_take]
      omega
    rw [overwrite, ← List.append_assoc, List.append_assoc, ← hlen, List.take_left]
  have hdrop := drop_overwrite (by omega : offset ≤ bytes.length)
    (by rw [List.length_append]; omega : offset + (xs ++ zs).length ≤ offset + xs.length + ys.length)
  rw [overwrite, htake, hdrop, overwrite, List.length_append, List.append_assoc (bytes.take offset),
    Nat.add_assoc]

theorem overwrite_append {bytes xs ys : Bytes} {offset : Nat}
    (h : offset + xs.length ≤ bytes.length)
    : overwrite (overwrite bytes offset xs) (offset + xs.length) ys
        = overwrite bytes offset (xs ++ ys) := by
  have hmerge := @overwrite_overwrite bytes xs [] ys offset h (Nat.zero_le _)
  rwa [List.append_nil] at hmerge

-- A write before position `n` changes the first `n` bytes only.
theorem take_overwrite_of_le {bytes data : Bytes} {offset n : Nat} (h : offset + data.length ≤ n)
    (hn : n ≤ bytes.length)
    : (overwrite bytes offset data).take n = overwrite (bytes.take n) offset data := by
  have hlen : (bytes.take offset ++ data).length = offset + data.length := by
    rw [List.length_append, List.length_take]
    omega
  simp only [overwrite]
  rw [List.take_append, hlen, List.take_of_length_le (by omega), List.take_take,
    Nat.min_eq_left (by omega), ← List.drop_take]

theorem drop_set_eq_cons {bs : Bytes} {i : Nat} (b : UInt8) (h : i < bs.length)
    : (bs.set i b).drop i = b :: bs.drop (i + 1) := by
  rw [List.drop_eq_getElem_cons (by simpa using h), List.getElem_set_self, List.drop_set,
    if_pos (by omega)]
