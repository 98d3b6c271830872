import VelocitasFix.Parser.Grammar

/-!
This module contains the analysis of the two searches for the trailer of a message, backwards for
the start of the checksum field and forwards for the end of the message: in a sequence of raw fields
`SOH 10=` only occurs where a field with the tag text `10` follows another field.
-/

namespace Velocitas

open Ascii

abbrev checksumText : Bytes := [49, 48]

namespace Checksum

theorem trailerAt_iff {msg : Bytes} {i : Nat}
    : trailerAt msg i
        ↔
      ∃ rest, msg.drop i = Tags.soh :: (checksumText ++ Tags.equals :: rest) := by
  have hget (k : Nat) : msg[i + k]? = (msg.drop i)[k]? := by rw [List.getElem?_drop]
  simp only [trailerAt, Bool.and_eq_true, decide_eq_true_eq]
  rw [← Nat.add_zero i, hget 0, Nat.add_zero, hget 1, hget 2, hget 3]
  generalize msg.drop i = tail
  constructor
  . intro h
    match tail with
    | [] => simp at h
    | [a] => simp at h
    | [a, b] => simp at h
    | [a, b, c] => simp at h
    | a :: b :: c :: d :: rest =>
      simp only [List.getElem?_cons_zero, List.getElem?_cons_succ, Option.some.injEq] at h
      rcases h with ⟨⟨⟨rfl, rfl⟩, rfl⟩, rfl⟩
      exact ⟨rest, rfl⟩
  . intro h
    rcases h with ⟨rest, rfl⟩
    simp

theorem startsWithTrailer_iff {msg : Bytes}
    : startsWithTrailer msg ↔ ∃ rest, msg = checksumText ++ Tags.equals :: rest := by
  simp only [startsWithTrailer, Bool.and_eq_true, decide_eq_true_eq]
  constructor
  . intro h
    match msg with
    | [] => simp at h
    | [a] => simp at h
    | [a, b] => simp at h
    | a :: b :: c :: rest =>
      simp only [List.getElem?_cons_zero, List.getElem?_cons_succ, Option.some.injEq] at h
      rcases h with ⟨⟨rfl, rfl⟩, rfl⟩
      exact ⟨rest, rfl⟩
  . intro h
    rcases h with ⟨rest, rfl⟩
    simp

theorem trailerStart_eq_zero {msg : Bytes} {n : Nat} (h : ∀ i < n, trailerAt msg i = false)
    : trailerStart msg n = 0 := by
  induction n with
  | zero => rfl
  | succ n ih =>
    unfold trailerStart
    rw [h n (by omega)]
    apply ih
    intro i hi
    apply h
    omega

theorem trailerStart_eq_succ {msg : Bytes} {n i : Nat} (hi : i < n) (hat : trailerAt msg i)
    (h : ∀ j, i < j → j < n → trailerAt msg j = false)
    : trailerStart msg n = i + 1 := by
  induction n with
  | zero => omega
  | succ n ih =>
    unfold trailerStart
    split
    . next hn =>
      rcases Nat.lt_or_eq_of_le (Nat.le_of_lt_succ hi) with hlt | rfl
      . rw [h n hlt (by omega)] at hn
        contradiction
      . rfl
    . next hn =>
      apply ih
      . rcases Nat.lt_or_eq_of_le (Nat.le_of_lt_succ hi) with hlt | rfl
        . exact hlt
        . contradiction
      . intro j hij hjn
        apply h j hij
        omega

end Checksum

theorem append_cons_inj_of_not_mem {xs ys zs ws : Bytes} {b : UInt8} (hxs : b ∉ xs) (hys : b ∉ ys)
    (h : xs ++ b :: zs = ys ++ b :: ws)
    : xs = ys ∧ zs = ws := by
  induction xs generalizing ys with
  | nil =>
    cases ys with
    | nil => simpa using h
    | cons c ys =>
      injection h with hc _
      rw [hc] at hys
      simp at hys
  | cons c xs ih =>
    cases ys with
    | nil =>
      injection h with hc _
      rw [← hc] at hxs
      simp at hxs
    | cons d ys =>
      rw [List.mem_cons, not_or] at hxs hys
      injection h with hcd htail
      rcases ih hxs.2 hys.2 htail with ⟨rfl, hzs⟩
      exact ⟨by rw [hcd], hzs⟩

theorem drop_append_cons_eq {xs rest tail : Bytes} {b : UInt8} {i : Nat} (hb : b ∉ xs)
    (hi : i ≤ xs.length) (h : (xs ++ b :: rest).drop i = b :: tail)
    : i = xs.length ∧ tail = rest := by
  rw [List.drop_append_of_le_length hi] at h
  have hmem : b ∉ xs.drop i := fun hmem => hb (List.mem_of_mem_drop hmem)
  cases hdrop : xs.drop i with
  | nil =>
    rw [List.drop_eq_nil_iff] at hdrop
    rw [List.drop_eq_nil_iff.mpr hdrop] at h
    injection h with _ htail
    exact ⟨by omega, htail.symm⟩
  | cons c ys =>
    rw [hdrop] at h hmem
    injection h with hc _
    rw [hc] at hmem
    simp at hmem

theorem RawField.soh_not_mem_init (f : RawField)
    : Tags.soh ∉ f.tagText ++ Tags.equals :: f.value := by
  intro h
  rw [List.mem_append, List.mem_cons] at h
  rcases h with h | h | h
  . exact f.digits.not_mem (by decide) h
  . contradiction
  . exact f.sohFree h

theorem RawField.render_eq_init_append (f : RawField)
    : f.render = (f.tagText ++ Tags.equals :: f.value) ++ [Tags.soh] := by
  simp [render]

theorem exists_of_drop_renderFields {fs : List RawField} {rest tail : Bytes} {i : Nat}
    (hi : i < (renderFields fs).length)
    (h : (renderFields fs ++ rest).drop i = Tags.soh :: tail)
    : ∃ pre post, fs = pre ++ post ∧ pre ≠ [] ∧ i + 1 = (renderFields pre).length
        ∧ tail = renderFields post ++ rest := by
  induction fs generalizing i with
  | nil => simp at hi
  | cons f fs ih =>
    rw [renderFields_cons] at hi h
    by_cases hlt : i < f.render.length
    . rw [f.render_eq_init_append, List.append_assoc, List.append_assoc, List.singleton_append] at h
      have hle : i ≤ (f.tagText ++ Tags.equals :: f.value).length := by
        rw [f.render_eq_init_append, List.length_append, List.length_singleton] at hlt
        omega
      rcases drop_append_cons_eq f.soh_not_mem_init hle h with ⟨hi, htail⟩
      refine ⟨[f], fs, rfl, by simp, ?_, htail⟩
      simp only [renderFields_cons, renderFields_nil, List.append_nil, f.render_eq_init_append, hi,
        List.length_append, List.length_singleton]
    . rw [List.append_assoc, List.drop_append, List.drop_eq_nil_of_le (by omega),
        List.nil_append] at h
      rw [List.length_append] at hi
      rcases ih (by omega) h with ⟨pre, post, rfl, -, hlen, htail⟩
      refine ⟨f :: pre, post, rfl, by simp, ?_, htail⟩
      rw [renderFields_cons, List.length_append]
      omega

theorem exists_of_trailerAt_renderFields {fs : List RawField} {rest : Bytes} {i : Nat}
    (hi : i + 1 < (renderFields fs).length)
    (h : Checksum.trailerAt (renderFields fs ++ rest) i)
    : ∃ pre g post, fs = pre ++ g :: post ∧ pre ≠ [] ∧ g.tagText = checksumText
        ∧ i + 1 = (renderFields pre).length := by
  rw [Checksum.trailerAt_iff] at h
  rcases h with ⟨tail, h⟩
  rcases exists_of_drop_renderFields (by omega) h with ⟨pre, post, rfl, hne, hlen, htail⟩
  cases post with
  | nil =>
    rw [List.append_nil] at hi
    omega
  | cons g post =>
    have hsplit : checksumText ++ Tags.equals :: tail
        = g.tagText ++ Tags.equals :: (g.value ++ [Tags.soh] ++ renderFields post ++ rest) := by
      simp [htail, RawField.render]
    have htext : Tags.equals ∉ g.tagText := g.digits.not_mem (by decide)
    have hinj := append_cons_inj_of_not_mem (by decide) htext hsplit
    exact ⟨pre, g, post, rfl, hne, hinj.1.symm, hlen⟩

theorem trailerAt_renderFields {pre post : List RawField} {g : RawField} (rest : Bytes)
    (hne : pre ≠ []) (hg : g.tagText = checksumText)
    : Checksum.trailerAt (renderFields (pre ++ g :: post) ++ rest)
        ((renderFields pre).length - 1) := by
  rw [Checksum.trailerAt_iff]
  rcases List.eq_nil_or_concat pre with hnil | ⟨init, f, rfl⟩
  . contradiction
  . refine ⟨g.value ++ [Tags.soh] ++ renderFields post ++ rest, ?_⟩
    have hsplit : renderFields (init ++ [f] ++ g :: post) ++ rest
        = (renderFields init ++ (f.tagText ++ Tags.equals :: f.value))
          ++ Tags.soh :: (checksumText ++ Tags.equals ::
            (g.value ++ [Tags.soh] ++ renderFields post ++ rest)) := by
      simp [RawField.render, hg]
    have hlen : (renderFields (init ++ [f])).length - 1
        = (renderFields init ++ (f.tagText ++ Tags.equals :: f.value)).length := by
      simp [RawField.render]
      omega
    rw [List.concat_eq_append, hsplit, hlen, List.drop_left]

theorem tag_of_tagText {g : RawField} (h : g.tagText = checksumText) : g.tag = Tags.checksum := by
  rw [RawField.tag, h]
  decide

namespace FixParser

theorem FieldRun.of_append {n : Nat} {pre fs : List RawField} {rest : Bytes} (hne : fs ≠ [])
    (h : FieldRun n (pre ++ fs) rest)
    : (∀ f ∈ pre, f.tag ≠ Tags.checksum) ∧ FieldRun (n + pre.length) fs rest := by
  induction pre generalizing n with
  | nil => simpa using h
  | cons f pre ih =>
    rcases h with ⟨-, h⟩
    split at h
    . simp [hne] at h
    . next hsum =>
      rcases ih h with ⟨hpre, hrun⟩
      refine ⟨?_, ?_⟩
      . simpa [hsum] using hpre
      . rw [List.length_cons, Nat.add_comm pre.length, ← Nat.add_assoc]
        exact hrun

theorem FieldRun.eq_nil_of_checksum {n : Nat} {pre post : List RawField} {g : RawField}
    {rest : Bytes} (h : FieldRun n (pre ++ g :: post) rest) (hg : g.tag = Tags.checksum)
    : post = [] := by
  rcases (FieldRun.of_append (by simp) h).2 with ⟨-, h⟩
  rwa [if_pos hg] at h

theorem FieldRun.trailerStart_concat {n : Nat} {pre : List RawField} {g : RawField}
    {rest : Bytes} (hrun : FieldRun n (pre ++ [g]) rest) (hne : pre ≠ [])
    (hg : g.tagText = checksumText) (tail : Bytes)
    : Checksum.trailerStart (renderFields (pre ++ [g]) ++ tail)
        ((renderFields (pre ++ [g])).length - 4)
        =
      (renderFields pre).length := by
  have hpos : 2 ≤ (renderFields pre).length := by
    cases pre with
    | nil => contradiction
    | cons f pre =>
      rw [renderFields_cons, List.length_append, RawField.length_render]
      omega
  have hlen : (renderFields (pre ++ [g])).length
      = (renderFields pre).length + g.value.length + 4 := by
    rw [renderFields_append, List.length_append, renderFields_cons, renderFields_nil,
      List.append_nil, RawField.length_render, hg]
    simp
    omega
  have hat : Checksum.trailerAt (renderFields (pre ++ [g]) ++ tail) ((renderFields pre).length - 1) :=
    trailerAt_renderFields tail hne hg
  rw [Checksum.trailerStart_eq_succ (by omega) hat]
  . omega
  . intro j hij hjn
    rw [Bool.eq_false_iff]
    intro hj
    rcases exists_of_trailerAt_renderFields (by omega) hj with ⟨pre', g', post, heq, -, hg', hj'⟩
    rw [heq] at hrun
    have hpost := hrun.eq_nil_of_checksum (tag_of_tagText hg')
    subst hpost
    have hpre := (List.append_inj' heq rfl).1
    rw [← hpre] at hj'
    omega

theorem FieldRun.trailerStart_eq_zero {n : Nat} {fs : List RawField} {rest : Bytes}
    (hrun : FieldRun n fs rest)
    (h : ∀ pre g, fs = pre ++ [g] → g.tagText ≠ checksumText) (tail : Bytes)
    : Checksum.trailerStart (renderFields fs ++ tail) ((renderFields fs).length - 4) = 0 := by
  apply Checksum.trailerStart_eq_zero
  intro i hi
  rw [Bool.eq_false_iff]
  intro hat
  rcases exists_of_trailerAt_renderFields (by omega) hat with ⟨pre, g, post, rfl, -, hg, -⟩
  have hpost := hrun.eq_nil_of_checksum (tag_of_tagText hg)
  subst hpost
  exact h pre g rfl hg

end FixParser

end Velocitas
