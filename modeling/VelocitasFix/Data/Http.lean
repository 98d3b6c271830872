import VelocitasFix.Data.Ascii

/-!
This module contains HTTP messages whose body has a length that a header states, and a reader that
takes one of them off a stream: lines that end in CR LF up to an empty one, and then the body.
-/

namespace Http

open Ascii

structure Message where
  startLine : Bytes
  headers : List (Bytes × Bytes)
  body : Bytes
  deriving DecidableEq, Repr

-- `Content-Length`.
def contentLengthName : Bytes :=
  [67, 111, 110, 116, 101, 110, 116, 45, 76, 101, 110, 103, 116, 104]

-- A line without its CR LF, and what comes behind.
def line : Bytes → Option (Bytes × Bytes)
  | 13 :: 10 :: rest => some ([], rest)
  | b :: rest => (line rest).map fun (text, rest) => (b :: text, rest)
  | [] => none

-- The name stands before the first colon, and the value behind the blanks that follow it.
def header (text : Bytes) : Bytes × Bytes :=
  (text.takeWhile (· ≠ 58), (text.dropWhile (· ≠ 58)).tail.dropWhile (· = 32))

def headers : Nat → Bytes → Option (List (Bytes × Bytes) × Bytes)
  | 0, _ => none
  | fuel + 1, bs => do
    let (text, bs) ← line bs
    if text = [] then
      some ([], bs)
    else do
      let (hs, bs) ← headers fuel bs
      some (header text :: hs, bs)

def contentLength (hs : List (Bytes × Bytes)) : Option Nat := do
  let text ← hs.lookup contentLengthName
  if text ≠ [] ∧ AllDigits text then
    some (value text)
  else
    none

def read (bs : Bytes) : Option (Message × Bytes) := do
  let (startLine, bs) ← line bs
  let (headers, bs) ← headers bs.length bs
  let n ← contentLength headers
  if n ≤ bs.length then
    some (⟨startLine, headers, bs.take n⟩, bs.drop n)
  else
    none

def headerLine (h : Bytes × Bytes) : Bytes := h.1 ++ 58 :: 32 :: (h.2 ++ [13, 10])

def Message.bytes (m : Message) : Bytes :=
  m.startLine ++ 13 :: 10 :: (m.headers.flatMap headerLine ++ 13 :: 10 :: m.body)

structure IsHeader (h : Bytes × Bytes) : Prop where
  name : 13 ∉ h.1 ∧ 58 ∉ h.1
  value : 13 ∉ h.2 ∧ h.2.head? ≠ some 32

instance : DecidablePred IsHeader :=
  fun h => decidable_of_iff ((13 ∉ h.1 ∧ 58 ∉ h.1) ∧ (13 ∉ h.2 ∧ h.2.head? ≠ some 32))
    ⟨fun h => ⟨h.1, h.2⟩, fun h => ⟨h.name, h.value⟩⟩

theorem line_append {text : Bytes} (h : 13 ∉ text) (rest : Bytes)
    : line (text ++ 13 :: 10 :: rest) = some (text, rest) := by
  induction text with
  | nil => rfl
  | cons b text ih =>
    rw [List.mem_cons, not_or] at h
    rw [List.cons_append, line]
    . rw [ih h.2]
      rfl
    . intro rest' hb _
      exact h.1 hb.symm

theorem header_headerLine {h : Bytes × Bytes} (hheader : IsHeader h)
    : header (h.1 ++ 58 :: 32 :: h.2) = h := by
  have hname (b : UInt8) (hb : b ∈ h.1) : decide (b ≠ 58) = true := by
    rw [decide_eq_true_eq]
    intro heq
    rw [heq] at hb
    exact hheader.name.2 hb
  have hvalue : h.2.dropWhile (· = 32) = h.2 := by
    cases hh : h.2 with
    | nil => rfl
    | cons b bs =>
      have hb := hheader.value.2
      rw [hh, List.head?_cons] at hb
      rw [List.dropWhile_cons, if_neg]
      simpa using hb
  unfold header
  rw [List.takeWhile_append_of_pos hname, List.dropWhile_append_of_pos hname]
  simp [hvalue]

-- The induction is on the headers: each takes one line.
theorem headers_lines {hs : List (Bytes × Bytes)} (h : ∀ x ∈ hs, IsHeader x) {fuel : Nat}
    (hfuel : hs.length < fuel) (rest : Bytes)
    : headers fuel (hs.flatMap headerLine ++ 13 :: 10 :: rest) = some (hs, rest) := by
  induction hs generalizing fuel with
  | nil =>
    cases fuel with
    | zero => contradiction
    | succ fuel => rfl
  | cons x hs ih =>
    cases fuel with
    | zero => contradiction
    | succ fuel =>
      have hx := h x List.mem_cons_self
      have hhs := ih (fun y hy => h y (List.mem_cons_of_mem _ hy)) (Nat.lt_of_succ_lt_succ hfuel)
      have hcr : 13 ∉ x.1 ++ 58 :: 32 :: x.2 := by
        rw [List.mem_append, List.mem_cons, List.mem_cons]
        rintro (hmem | heq | heq | hmem)
        . exact hx.name.1 hmem
        . exact absurd heq (by decide)
        . exact absurd heq (by decide)
        . exact hx.value.1 hmem
      have hline := line_append hcr (hs.flatMap headerLine ++ 13 :: 10 :: rest)
      have hne : x.1 ++ 58 :: 32 :: x.2 ≠ [] := by simp
      have hbytes : (x :: hs).flatMap headerLine ++ 13 :: 10 :: rest
          = (x.1 ++ 58 :: 32 :: x.2)
            ++ 13 :: 10 :: (hs.flatMap headerLine ++ 13 :: 10 :: rest) := by
        simp [headerLine]
      rw [hbytes, headers, hline]
      simp only [Option.bind_eq_bind, Option.bind_some]
      rw [if_neg hne, hhs, header_headerLine hx]
      rfl

theorem length_le_headerLines (hs : List (Bytes × Bytes))
    : hs.length ≤ (hs.flatMap headerLine).length := by
  induction hs with
  | nil => exact Nat.le_refl _
  | cons x hs ih =>
    rw [List.flatMap_cons, List.length_append, List.length_cons, headerLine, List.length_append,
      List.length_cons]
    omega

-- The message is read, whatever comes behind it on the stream.
theorem read_bytes {m : Message} (hstart : 13 ∉ m.startLine) (hheaders : ∀ h ∈ m.headers, IsHeader h)
    (hlength : m.headers.lookup contentLengthName = some (decimal m.body.length)) (later : Bytes)
    : read (m.bytes ++ later) = some (m, later) := by
  have hbytes : m.bytes ++ later
      = m.startLine
        ++ 13 :: 10 :: (m.headers.flatMap headerLine ++ 13 :: 10 :: (m.body ++ later)) := by
    simp [Message.bytes]
  have hfuel : m.headers.length
      < (m.headers.flatMap headerLine ++ 13 :: 10 :: (m.body ++ later)).length := by
    have hle := length_le_headerLines m.headers
    rw [List.length_append, List.length_cons]
    omega
  have hn : contentLength m.headers = some m.body.length := by
    unfold contentLength
    rw [hlength]
    simp only [Option.bind_eq_bind, Option.bind_some]
    rw [if_pos ⟨decimal_ne_nil _, allDigits_decimal _⟩, value_decimal]
  rw [hbytes, read, line_append hstart]
  simp only [Option.bind_eq_bind, Option.bind_some]
  rw [headers_lines hheaders hfuel]
  simp only [Option.bind_some]
  rw [hn]
  simp only [Option.bind_some]
  rw [if_pos (by simp), List.take_left, List.drop_left]

end Http
