import Mathlib.Data.List.Basic

/-!
This module contains framers: functions that cut the first frame off a stream. A framer whose
decision only depends on the elements of the frame cuts the same frames however the stream is split
into chunks.
-/

universe u

structure Framer (α : Type u) where
  cut : List α → Option Nat
  pos_of_cut : ∀ {xs n}, cut xs = some n → 0 < n
  le_of_cut : ∀ {xs n}, cut xs = some n → n ≤ xs.length
  cut_take : ∀ {xs n}, cut xs = some n → cut (xs.take n) = some n
  cut_append : ∀ {xs n} (ys), cut xs = some n → cut (xs ++ ys) = some n

namespace Framer

variable {α : Type u} (F : Framer α)

def frames (xs : List α) : List (List α) × List α :=
  match h : F.cut xs with
  | none => ([], xs)
  | some n =>
    have := F.pos_of_cut h
    have := F.le_of_cut h
    let rest := frames (xs.drop n)
    (xs.take n :: rest.1, rest.2)
termination_by xs.length
decreasing_by
  simp only [List.length_drop]
  omega

theorem frames_of_cut_none {xs : List α} (h : F.cut xs = none) : F.frames xs = ([], xs) := by
  rw [frames]
  split
  . rfl
  . next heq => rw [h] at heq; contradiction

theorem frames_of_cut_some {xs : List α} {n : Nat} (h : F.cut xs = some n) :
    F.frames xs = (xs.take n :: (F.frames (xs.drop n)).1, (F.frames (xs.drop n)).2) := by
  rw [frames]
  split
  . next heq => rw [h] at heq; contradiction
  . next heq =>
    rw [h] at heq
    simp only [Option.some.injEq] at heq
    subst heq
    rfl

theorem cut_frames_snd (xs : List α) : F.cut (F.frames xs).2 = none := by
  induction xs using frames.induct F with
  | case1 xs h => rw [F.frames_of_cut_none h, h]
  | case2 xs n h _ _ ih => rw [F.frames_of_cut_some h]; exact ih

theorem flatten_frames (xs : List α) : (F.frames xs).1.flatten ++ (F.frames xs).2 = xs := by
  induction xs using frames.induct F with
  | case1 xs h => simp [F.frames_of_cut_none h]
  | case2 xs n h _ _ ih => simp [F.frames_of_cut_some h, List.append_assoc, ih]

-- What is cut off at first does not depend on what comes behind.
theorem frames_append_of_cut_some {xs : List α} {n : Nat} (h : F.cut xs = some n) (ys : List α) :
    F.frames (xs ++ ys) =
      (xs.take n :: (F.frames (xs.drop n ++ ys)).1, (F.frames (xs.drop n ++ ys)).2) := by
  have hle := F.le_of_cut h
  rw [F.frames_of_cut_some (F.cut_append ys h), List.take_append_of_le_length hle,
    List.drop_append_of_le_length hle]

theorem frames_append (xs ys : List α) :
    F.frames (xs ++ ys) =
      ((F.frames xs).1 ++ (F.frames ((F.frames xs).2 ++ ys)).1,
        (F.frames ((F.frames xs).2 ++ ys)).2) := by
  induction xs using frames.induct F with
  | case1 xs h => simp [F.frames_of_cut_none h]
  | case2 xs n h _ _ ih =>
    rw [F.frames_of_cut_some h, F.frames_append_of_cut_some h, ih]
    rfl

def IsFrame (m : List α) : Prop := ∀ t, F.cut (m ++ t) = some m.length

theorem IsFrame.frames_append {m : List α} (h : F.IsFrame m) (t : List α) :
    F.frames (m ++ t) = (m :: (F.frames t).1, (F.frames t).2) := by
  rw [F.frames_of_cut_some (h t)]
  simp

theorem isFrame_of_cut {xs : List α} {n : Nat} (h : F.cut xs = some n) : F.IsFrame (xs.take n) := by
  intro t
  have hlen : (xs.take n).length = n := by
    have := F.le_of_cut h
    simp only [List.length_take]
    omega
  rw [hlen]
  exact F.cut_append t (F.cut_take h)

theorem isFrame_iff {m : List α} : F.IsFrame m ↔ F.cut m = some m.length := by
  constructor
  . intro h
    have hnil := h []
    rw [List.append_nil] at hnil
    exact hnil
  . intro h t
    exact F.cut_append t h

theorem frames_flatten {ms : List (List α)} (h : ∀ m ∈ ms, F.IsFrame m) (t : List α) :
    F.frames (ms.flatten ++ t) = (ms ++ (F.frames t).1, (F.frames t).2) := by
  induction ms with
  | nil => simp
  | cons m ms ih =>
    rw [List.forall_mem_cons] at h
    rw [List.flatten_cons, List.append_assoc, h.1.frames_append, ih h.2]
    rfl

end Framer
