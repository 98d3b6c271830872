import VelocitasFix.Data.Framing
import VelocitasFix.Parser.Impl

/-!
This module contains the receive buffer of the engine and the framing of the inbound stream: however
the stream is split into chunks, the same frames are cut off and the same bytes stay unread.
-/

namespace Velocitas

structure RecvBuffer where
  buf : Bytes
  pos : Nat
  pos_le : pos ≤ buf.length

namespace RecvBuffer

def new : RecvBuffer where
  buf := List.replicate 65536 0
  pos := 0
  pos_le := Nat.zero_le _

def unread (r : RecvBuffer) : Bytes := r.buf.take r.pos

def resize (bytes : Bytes) (n : Nat) : Bytes :=
  bytes.take n ++ List.replicate (n - bytes.length) 0

theorem length_resize (bytes : Bytes) (n : Nat) : (resize bytes n).length = n := by
  simp only [resize, List.length_append, List.length_take, List.length_replicate]
  omega

def reserve (r : RecvBuffer) (stop : Nat) : Bytes :=
  if stop > r.buf.length then resize r.buf (stop * 2) else r.buf

theorem le_length_reserve (r : RecvBuffer) (stop : Nat) : stop ≤ (r.reserve stop).length := by
  unfold reserve
  split
  . rw [length_resize]
    omega
  . omega

def append (r : RecvBuffer) (chunk : Bytes) : RecvBuffer where
  buf := overwrite (r.reserve (r.pos + chunk.length)) r.pos chunk
  pos := r.pos + chunk.length
  pos_le := by
    rw [length_overwrite (r.le_length_reserve _)]
    exact r.le_length_reserve _

-- `copy_within(boundary..pos, 0)`
def compact (r : RecvBuffer) (boundary : Nat) : RecvBuffer where
  buf := overwrite r.buf 0 (r.unread.drop boundary)
  pos := r.pos - boundary
  pos_le := by
    have := r.pos_le
    rw [length_overwrite]
    . omega
    . simp only [unread, List.length_drop, List.length_take]
      omega

def takeFrame (r : RecvBuffer) : Option (Bytes × RecvBuffer) :=
  match FixParser.findMessageBoundary r.unread with
  | none => none
  | some boundary => some (r.buf.take boundary, r.compact boundary)

theorem unread_new : new.unread = [] := rfl

theorem length_unread (r : RecvBuffer) : r.unread.length = r.pos := by
  rw [unread, List.length_take, Nat.min_eq_left r.pos_le]

theorem take_reserve (r : RecvBuffer) {stop : Nat} (h : r.pos ≤ stop)
    : (r.reserve stop).take r.pos = r.unread := by
  unfold reserve
  split
  . have hlen : r.buf.length ≤ stop * 2 := by omega
    rw [resize, List.take_of_length_le hlen, List.take_append_of_le_length r.pos_le]
    rfl
  . rfl

@[simp]
theorem unread_append (r : RecvBuffer) (chunk : Bytes)
    : (r.append chunk).unread = r.unread ++ chunk := by
  have hle := r.le_length_reserve (r.pos + chunk.length)
  simp only [unread, append]
  rw [take_overwrite (by omega), r.take_reserve (by omega)]
  rfl

theorem unread_compact (r : RecvBuffer) (boundary : Nat)
    : (r.compact boundary).unread = r.unread.drop boundary := by
  have hlen : (r.unread.drop boundary).length = r.pos - boundary := by
    rw [List.length_drop, r.length_unread]
  have htake := @take_overwrite r.buf (r.unread.drop boundary) 0 (Nat.zero_le _)
  rw [Nat.zero_add, hlen, List.take_zero, List.nil_append] at htake
  exact htake

end RecvBuffer

namespace FixParser

theorem boundaryAt_iff {bytes : Bytes} {i : Nat}
    : boundaryAt bytes i
        ↔
      Checksum.trailerAt bytes i ∧ bytes[i + 7]? = some Tags.soh := by
  simp [boundaryAt]

theorem le_length_of_boundaryAt {bytes : Bytes} {i : Nat} (h : boundaryAt bytes i)
    : i + 8 ≤ bytes.length := by
  rw [boundaryAt_iff] at h
  rcases List.getElem?_eq_some_iff.mp h.2 with ⟨hlt, -⟩
  omega

theorem boundaryAt_append {bytes : Bytes} {i : Nat} (h : i + 8 ≤ bytes.length) (rest : Bytes)
    : boundaryAt (bytes ++ rest) i = boundaryAt bytes i := by
  simp only [boundaryAt, Checksum.trailerAt]
  rw [List.getElem?_append_left (by omega), List.getElem?_append_left (by omega),
    List.getElem?_append_left (by omega), List.getElem?_append_left (by omega),
    List.getElem?_append_left (by omega)]

theorem findMessageBoundary_go_eq_some {bytes : Bytes} {i n : Nat}
    : findMessageBoundary.go bytes i = some n
        ↔
      ∃ j, i ≤ j ∧ n = j + 8 ∧ boundaryAt bytes j
        ∧ ∀ k, i ≤ k → k < j → boundaryAt bytes k = false := by
  fun_induction findMessageBoundary.go bytes i with
  | case1 i hle hat =>
    constructor
    . intro h
      rw [Option.some.injEq] at h
      refine ⟨i, Nat.le_refl _, h.symm, hat, ?_⟩
      intro k hk hki
      omega
    . intro h
      rcases h with ⟨j, hij, rfl, hj, hbefore⟩
      rcases Nat.eq_or_lt_of_le hij with rfl | hlt
      . rfl
      . rw [hbefore i (Nat.le_refl _) hlt] at hat
        contradiction
  | case2 i hle hat ih =>
    rw [ih]
    constructor
    . intro h
      rcases h with ⟨j, hij, hn, hj, hbefore⟩
      refine ⟨j, by omega, hn, hj, ?_⟩
      intro k hk hkj
      rcases Nat.eq_or_lt_of_le hk with rfl | hlt
      . simpa using hat
      . exact hbefore k hlt hkj
    . intro h
      rcases h with ⟨j, hij, hn, hj, hbefore⟩
      rcases Nat.eq_or_lt_of_le hij with rfl | hlt
      . contradiction
      . exact ⟨j, hlt, hn, hj, fun k hk hkj => hbefore k (by omega) hkj⟩
  | case3 i hle =>
    constructor
    . intro h
      contradiction
    . intro h
      rcases h with ⟨j, hij, -, hj, -⟩
      have := le_length_of_boundaryAt hj
      omega

theorem findMessageBoundary_eq_some {bytes : Bytes} {n : Nat}
    : findMessageBoundary bytes = some n
        ↔
      ∃ i, n = i + 8 ∧ boundaryAt bytes i ∧ ∀ k < i, boundaryAt bytes k = false := by
  unfold findMessageBoundary
  split
  . constructor
    . intro h
      contradiction
    . intro h
      rcases h with ⟨i, -, hi, -⟩
      have := le_length_of_boundaryAt hi
      omega
  . rw [findMessageBoundary_go_eq_some]
    simp

theorem findMessageBoundary_append {bytes rest : Bytes} {n : Nat} (hn : n ≤ bytes.length)
    : findMessageBoundary (bytes ++ rest) = some n ↔ findMessageBoundary bytes = some n := by
  rw [findMessageBoundary_eq_some, findMessageBoundary_eq_some]
  have hcongr (i : Nat) (hi : n = i + 8)
      : (boundaryAt (bytes ++ rest) i ∧ ∀ k < i, boundaryAt (bytes ++ rest) k = false)
          ↔
        (boundaryAt bytes i ∧ ∀ k < i, boundaryAt bytes k = false) := by
    rw [boundaryAt_append (by omega)]
    apply and_congr Iff.rfl
    apply forall₂_congr
    intro k hk
    rw [boundaryAt_append (by omega)]
  constructor
  . intro h
    rcases h with ⟨i, hi, h⟩
    exact ⟨i, hi, (hcongr i hi).mp h⟩
  . intro h
    rcases h with ⟨i, hi, h⟩
    exact ⟨i, hi, (hcongr i hi).mpr h⟩

def framer : Framer UInt8 where
  cut := findMessageBoundary
  pos_of_cut := by
    intro bytes n h
    rw [findMessageBoundary_eq_some] at h
    rcases h with ⟨i, rfl, -⟩
    omega
  le_of_cut := by
    intro bytes n h
    rw [findMessageBoundary_eq_some] at h
    rcases h with ⟨i, rfl, hi, -⟩
    exact le_length_of_boundaryAt hi
  cut_take := by
    intro bytes n h
    have hle : n ≤ (bytes.take n).length := by
      have := findMessageBoundary_eq_some.mp h
      rcases this with ⟨i, rfl, hi, -⟩
      have := le_length_of_boundaryAt hi
      rw [List.length_take]
      omega
    rw [← findMessageBoundary_append hle, List.take_append_drop]
    exact h
  cut_append := by
    intro bytes n rest h
    have hle : n ≤ bytes.length := by
      rcases findMessageBoundary_eq_some.mp h with ⟨i, rfl, hi, -⟩
      exact le_length_of_boundaryAt hi
    exact (findMessageBoundary_append hle).mpr h

end FixParser

namespace RecvBuffer

open FixParser (framer)

theorem takeFrame_eq_none {r : RecvBuffer} : r.takeFrame = none ↔ framer.cut r.unread = none := by
  unfold takeFrame
  split
  . next h => simp [framer, h]
  . next h => simp [framer, h]

theorem exists_of_takeFrame {r r' : RecvBuffer} {frame : Bytes}
    (h : r.takeFrame = some (frame, r'))
    : ∃ n, framer.cut r.unread = some n ∧ frame = r.unread.take n
        ∧ r'.unread = r.unread.drop n := by
  unfold takeFrame at h
  split at h
  . contradiction
  . next n hcut =>
    simp only [Option.some.injEq, Prod.mk.injEq] at h
    rcases h with ⟨rfl, rfl⟩
    have hle : n ≤ r.unread.length := framer.le_of_cut hcut
    rw [r.length_unread] at hle
    refine ⟨n, hcut, ?_, r.unread_compact n⟩
    rw [unread, List.take_take, Nat.min_eq_left hle]

theorem exists_takeFrame {r : RecvBuffer} {n : Nat} (h : framer.cut r.unread = some n)
    : ∃ r', r.takeFrame = some (r.unread.take n, r') ∧ r'.unread = r.unread.drop n := by
  cases htake : r.takeFrame with
  | none =>
    rw [takeFrame_eq_none.mp htake] at h
    contradiction
  | some res =>
    rcases res with ⟨frame, r'⟩
    rcases exists_of_takeFrame htake with ⟨m, hm, rfl, hunread⟩
    rw [h, Option.some.injEq] at hm
    subst hm
    exact ⟨r', rfl, hunread⟩

theorem pos_lt_of_takeFrame {r r' : RecvBuffer} {frame : Bytes}
    (h : r.takeFrame = some (frame, r'))
    : r'.pos < r.pos := by
  rcases exists_of_takeFrame h with ⟨n, hcut, -, hunread⟩
  have hpos := framer.pos_of_cut hcut
  have hle := framer.le_of_cut hcut
  have hlen := congrArg List.length hunread
  rw [length_unread, List.length_drop] at hlen
  rw [length_unread] at hle hlen
  omega

-- The loop over complete messages, without the dispatch.
def drain (r : RecvBuffer) : List Bytes × RecvBuffer :=
  match h:r.takeFrame with
  | none => ([], r)
  | some (frame, r') =>
    have := pos_lt_of_takeFrame h
    let (frames, r'') := drain r'
    (frame :: frames, r'')
termination_by r.pos

def feedAll (r : RecvBuffer) : List Bytes → List Bytes × RecvBuffer
  | [] => ([], r)
  | chunk :: chunks =>
    let (frames, r) := drain (r.append chunk)
    let (frames', r) := feedAll r chunks
    (frames ++ frames', r)

theorem drain_eq (r : RecvBuffer)
    : (drain r).1 = (framer.frames r.unread).1
        ∧ (drain r).2.unread = (framer.frames r.unread).2 := by
  fun_induction drain r with
  | case1 r h =>
    rw [framer.frames_of_cut_none (takeFrame_eq_none.mp h)]
    exact ⟨rfl, rfl⟩
  | case2 r frame r' h _ frames r'' hdrain ih =>
    rcases exists_of_takeFrame h with ⟨n, hcut, rfl, hunread⟩
    rw [hdrain, hunread] at ih
    rw [framer.frames_of_cut_some hcut, ← ih.1, ← ih.2]
    exact ⟨rfl, rfl⟩

theorem feedAll_eq {r : RecvBuffer} (h : framer.cut r.unread = none) (chunks : List Bytes)
    : (feedAll r chunks).1 = (framer.frames (r.unread ++ chunks.flatten)).1
        ∧ (feedAll r chunks).2.unread = (framer.frames (r.unread ++ chunks.flatten)).2 := by
  induction chunks generalizing r with
  | nil => simp [feedAll, framer.frames_of_cut_none h]
  | cons chunk chunks ih =>
    rcases drain_eq (r.append chunk) with ⟨hframes, hunread⟩
    rw [unread_append] at hframes hunread
    have hnone : framer.cut (drain (r.append chunk)).2.unread = none := by
      rw [hunread]
      exact framer.cut_frames_snd _
    rcases ih hnone with ⟨hframes', hunread'⟩
    have happend := framer.frames_append (r.unread ++ chunk) chunks.flatten
    rw [List.flatten_cons, ← List.append_assoc, happend, ← hunread]
    simp only [feedAll]
    exact ⟨by rw [hframes, hframes'], hunread'⟩

theorem feedAll_chunks (chunks : List Bytes)
    : (feedAll new chunks).1 = (feedAll new [chunks.flatten]).1
        ∧ (feedAll new chunks).2.unread = (feedAll new [chunks.flatten]).2.unread
        ∧ (feedAll new chunks).1.flatten ++ (feedAll new chunks).2.unread = chunks.flatten := by
  have hnone : framer.cut new.unread = none := by
    rw [unread_new]
    rfl
  rcases feedAll_eq hnone chunks with ⟨hframes, hunread⟩
  rcases feedAll_eq hnone [chunks.flatten] with ⟨hframes', hunread'⟩
  rw [hframes, hframes', hunread, hunread', unread_new]
  simp [framer.flatten_frames]

end RecvBuffer

end Velocitas
