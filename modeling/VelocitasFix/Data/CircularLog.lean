import VelocitasFix.Data.Slice

/-!
This module contains circular logs: blocks of bytes are written into a memory of fixed capacity,
each one where the block before it ends or, if it does not fit there, at the beginning.
-/

namespace CircularLog

structure Block where
  offset : Nat
  data : Bytes

namespace Block

def stop (b : Block) : Nat := b.offset + b.data.length

def Apart (b c : Block) : Prop := b.stop ≤ c.offset ∨ c.stop ≤ b.offset

end Block

def place (capacity position length : Nat) : Nat :=
  if capacity < position + length then 0 else position

def layout (capacity : Nat) : Nat → List Bytes → List Block
  | _, [] => []
  | position, data :: rest =>
    let block : Block := ⟨place capacity position data.length, data⟩
    block :: layout capacity block.stop rest

def position (capacity : Nat) : Nat → List Bytes → Nat
  | start, [] => start
  | start, data :: rest =>
    position capacity (place capacity start data.length + data.length) rest

def writeAll (memory : Bytes) (blocks : List Block) : Bytes :=
  blocks.foldl (fun memory b => overwrite memory b.offset b.data) memory

variable {capacity start : Nat}

theorem place_add_le {length : Nat} (h : length ≤ capacity)
    : place capacity start length + length ≤ capacity := by
  unfold place
  split
  . omega
  . omega

theorem place_of_le {length : Nat} (h : start + length ≤ capacity)
    : place capacity start length = start := by
  unfold place
  rw [if_neg (by omega)]

theorem stop_le_of_mem_layout {datas : List Bytes} (h : ∀ data ∈ datas, data.length ≤ capacity)
    : ∀ b ∈ layout capacity start datas, b.stop ≤ capacity := by
  induction datas generalizing start with
  | nil => simp [layout]
  | cons data rest ih =>
    intro b hb
    rw [layout, List.mem_cons] at hb
    cases hb with
    | inl heq =>
      rw [heq]
      exact place_add_le (h data List.mem_cons_self)
    | inr hmem => apply ih (fun d hd => h d (List.mem_cons_of_mem data hd)) b hmem

theorem position_le {datas : List Bytes} (hstart : start ≤ capacity)
    (h : ∀ data ∈ datas, data.length ≤ capacity)
    : position capacity start datas ≤ capacity := by
  induction datas generalizing start with
  | nil => exact hstart
  | cons data rest ih =>
    apply ih
    . exact place_add_le (h data List.mem_cons_self)
    . intro d hd
      exact h d (List.mem_cons_of_mem data hd)

theorem position_of_le {datas : List Bytes} (h : start + datas.flatten.length ≤ capacity)
    : position capacity start datas = start + datas.flatten.length := by
  induction datas generalizing start with
  | nil => rfl
  | cons data rest ih =>
    rw [List.flatten_cons, List.length_append] at h ⊢
    rw [position, place_of_le (by omega), ih (by omega), Nat.add_assoc]

-- A block starts where the block before it stops, unless it does not fit there.
theorem offset_next {datas : List Bytes} {before after : List Block} {b c : Block}
    (h : layout capacity start datas = before ++ b :: c :: after)
    : c.offset = place capacity b.stop c.data.length := by
  induction datas generalizing start before with
  | nil => simp [layout] at h
  | cons data rest ih =>
    cases before with
    | cons b' before =>
      rw [layout, List.cons_append] at h
      exact ih (List.cons.inj h).2
    | nil =>
      rw [layout, List.nil_append] at h
      have hb := (List.cons.inj h).1
      have htail := (List.cons.inj h).2
      cases rest with
      | nil => simp [layout] at htail
      | cons data' rest =>
        rw [layout] at htail
        have hc := (List.cons.inj htail).1
        rw [← hc, ← hb]

theorem stop_le_of_no_wrap {datas : List Bytes} {before between after : List Block} {b c : Block}
    (h : layout capacity start datas = before ++ b :: between ++ c :: after)
    (hwrap : ∀ d ∈ between ++ [c], d.offset ≠ 0)
    : b.stop ≤ c.offset := by
  have next : ∀ (before : List Block) (b c : Block) (after : List Block),
      layout capacity start datas = before ++ b :: c :: after → c.offset ≠ 0
        → c.offset = b.stop := by
    intro before b c after h hne
    have hoffset := offset_next h
    unfold place at hoffset
    split at hoffset
    . contradiction
    . exact hoffset
  induction between generalizing before b with
  | nil =>
    rw [List.append_assoc] at h
    rw [next before b c after (by simpa using h) (hwrap c (by simp))]
  | cons d between ih =>
    have hd : d.offset = b.stop := by
      apply next before b d (between ++ c :: after)
      . rw [h]
        simp
      . exact hwrap d (by simp)
    have hle : d.stop ≤ c.offset := by
      apply @ih (before ++ [b]) d
      . rw [h]
        simp
      . intro d' hd'
        exact hwrap d' (by simp at hd' ⊢; tauto)
    have hlen : d.stop = d.offset + d.data.length := rfl
    omega

-- What a block holds survives the writes that do not touch its range.
theorem slice_writeAll {blocks : List Block} {memory : Bytes} {b : Block}
    (hmem : memory.length = capacity) (hfit : ∀ c ∈ blocks, c.stop ≤ capacity)
    (hapart : ∀ c ∈ blocks, b.Apart c)
    : slice (writeAll memory blocks) b.offset b.data.length
        = slice memory b.offset b.data.length := by
  induction blocks generalizing memory with
  | nil => rfl
  | cons c rest ih =>
    have hc : c.offset + c.data.length ≤ memory.length := by
      rw [hmem]
      exact hfit c List.mem_cons_self
    rw [writeAll, List.foldl_cons]
    rw [← writeAll, ih]
    . apply slice_overwrite_of_apart hc
      exact hapart c List.mem_cons_self
    . rw [length_overwrite hc, hmem]
    . intro d hd
      exact hfit d (List.mem_cons_of_mem c hd)
    . intro d hd
      exact hapart d (List.mem_cons_of_mem c hd)

theorem length_writeAll {blocks : List Block} {memory : Bytes}
    (hmem : memory.length = capacity) (hfit : ∀ c ∈ blocks, c.stop ≤ capacity)
    : (writeAll memory blocks).length = capacity := by
  induction blocks generalizing memory with
  | nil => exact hmem
  | cons c rest ih =>
    have hc : c.offset + c.data.length ≤ memory.length := by
      rw [hmem]
      exact hfit c List.mem_cons_self
    rw [writeAll, List.foldl_cons]
    apply ih
    . rw [length_overwrite hc, hmem]
    . intro d hd
      exact hfit d (List.mem_cons_of_mem c hd)

theorem writeAll_append (memory : Bytes) (blocks rest : List Block)
    : writeAll memory (blocks ++ rest) = writeAll (writeAll memory blocks) rest :=
  List.foldl_append

theorem slice_of_apart {before after : List Block} {memory : Bytes} {b : Block}
    (hmem : memory.length = capacity) (hfit : ∀ c ∈ before ++ b :: after, c.stop ≤ capacity)
    (hapart : ∀ c ∈ after, b.Apart c)
    : slice (writeAll memory (before ++ b :: after)) b.offset b.data.length = b.data := by
  have hbefore : (writeAll memory before).length = capacity := by
    apply length_writeAll hmem
    intro c hc
    exact hfit c (List.mem_append_left _ hc)
  have hb : b.offset + b.data.length ≤ (writeAll memory before).length := by
    rw [hbefore]
    exact hfit b (by simp)
  rw [writeAll_append, writeAll, List.foldl_cons]
  rw [← writeAll, @slice_writeAll capacity]
  . apply slice_overwrite_self hb
  . rw [length_overwrite hb, hbefore]
  . intro c hc
    exact hfit c (by simp [hc])
  . exact hapart

-- Without a wrap the log is one write of all the blocks, one after the other.
theorem writeAll_layout {datas : List Bytes} {memory : Bytes} (hmem : memory.length = capacity)
    (h : start + datas.flatten.length ≤ capacity)
    : writeAll memory (layout capacity start datas) = overwrite memory start datas.flatten := by
  induction datas generalizing start memory with
  | nil => simp [layout, writeAll, overwrite]
  | cons data rest ih =>
    rw [List.flatten_cons, List.length_append] at h
    have hplace : place capacity start data.length = start := place_of_le (by omega)
    rw [layout, hplace, writeAll, List.foldl_cons]
    rw [← writeAll]
    have hdata : start + data.length ≤ memory.length := by omega
    show writeAll (overwrite memory start data) (layout capacity (start + data.length) rest) = _
    rw [ih (by rw [length_overwrite hdata, hmem]) (by omega), overwrite_append hdata,
      List.flatten_cons]

-- Without a wrap all the blocks are still there if and only if their concatenation is.
theorem forall_slice_layout_iff {datas : List Bytes} {memory : Bytes}
    (hfit : start + datas.flatten.length ≤ capacity) (hmem : memory.length = capacity)
    : (∀ b ∈ layout capacity start datas, slice memory b.offset b.data.length = b.data)
        ↔ slice memory start datas.flatten.length = datas.flatten := by
  induction datas generalizing start with
  | nil => simp [layout, slice]
  | cons data rest ih =>
    rw [List.flatten_cons, List.length_append] at hfit
    have hplace : place capacity start data.length = start := place_of_le (by omega)
    have hdata : (slice memory start data.length).length = data.length := length_slice (by omega)
    rw [layout, hplace, List.forall_mem_cons, List.flatten_cons, List.length_append, slice_add]
    show slice memory start data.length = data ∧ (∀ b ∈ layout capacity (start + data.length) rest, _)
      ↔ _
    rw [ih (by omega)]
    constructor
    . intro h
      rw [h.1, h.2]
    . intro h
      exact List.append_inj h hdata

end CircularLog
