import VelocitasFix.Group.Impl
import VelocitasFix.Message.Lemmas

/-!
This module contains the integers that the accessors of a view and of a group entry read: what they
make of a numeral, and the values for which they accept the decimal grammar and nothing else.
-/

namespace Velocitas

open Ascii

theorem exists_toNat_eq_iff {n : Nat} : (∃ m : UInt64, m.toNat = n) ↔ n < 2 ^ 64 := by
  constructor
  . rintro ⟨m, rfl⟩
    exact m.toNat_lt
  . intro h
    exact ⟨UInt64.ofNat n, UInt64.toNat_ofNat_of_lt' h⟩

theorem exists_toInt_eq_iff {k : Int} : (∃ m : Int64, m.toInt = k) ↔ -2 ^ 63 ≤ k ∧ k < 2 ^ 63 := by
  constructor
  . rintro ⟨m, rfl⟩
    exact ⟨m.le_toInt, m.toInt_lt⟩
  . intro h
    exact ⟨Int64.ofInt k, Int64.toInt_ofInt_of_le h.1 h.2⟩

namespace MessageView

theorem parseU64_of_denotes {v : Bytes} {n : Nat} (h : Denotes v n)
    : parseU64 v = some (UInt64.ofNat n) := by
  obtain ⟨hne, hdigits, rfl⟩ := h
  have hempty : ¬ v.isEmpty = true := by
    rw [List.isEmpty_iff]
    exact hne
  rw [parseU64, if_neg hempty, parseU64_go hdigits]
  exact congrArg some (statedLength_eq_ofNat_value hdigits)

theorem parseU64_eq_none {v : Bytes} (h : ∀ n, ¬ Denotes v n) : parseU64 v = none := by
  rw [parseU64]
  split
  . rfl
  . next hne =>
    rw [List.isEmpty_iff] at hne
    rw [parseU64_go_eq, if_neg]
    intro hdigits
    exact h _ ⟨hne, hdigits, rfl⟩

theorem parseU64_iff (v : Bytes)
    : (∀ n : UInt64, parseU64 v = some n ↔ Denotes v n.toNat) ↔ ∀ n, Denotes v n → n < 2 ^ 64 := by
  simp only [← exists_toNat_eq_iff]
  apply reads_iff (fun _ => UInt64.ofNat_toNat) (fun _ _ => Denotes.unique)
  . intro n hn
    exact parseU64_of_denotes hn
  . exact parseU64_eq_none

theorem foldl_parseI64 {ds : Bytes} (h : AllDigits ds)
    : ds.foldl (fun result b => result * 10 + Int64.ofNat (b - 48).toNat) 0
        = Int64.ofNat (value ds) := by
  apply foldl_eq_of_value Int64.ofNat _ h
  intro n b hb
  rw [hb.toNat_sub, Int64.ofNat_add, Int64.ofNat_mul]
  rfl

theorem parseI64_go (ds : Bytes)
    : parseI64.go ds 0 = if AllDigits ds then some (Int64.ofNat (value ds)) else none := by
  have hloop : parseI64.go ds 0 = if AllDigits ds then
        some (ds.foldl (fun result b => result * 10 + Int64.ofNat (b - 48).toNat) 0)
      else
        none :=
    digitLoop_eq (fun _ => rfl) (fun _ _ _ => rfl) ds 0
  rw [hloop]
  split
  . next h => rw [foldl_parseI64 h]
  . rfl

theorem parseI64_minus (ds : Bytes)
    : parseI64 (45 :: ds) = if AllDigits ds then some (Int64.ofInt (-(value ds))) else none := by
  have hgo : parseI64 (45 :: ds) = (parseI64.go ds 0).map fun result => -result := rfl
  rw [hgo, parseI64_go]
  split
  . rw [Option.map_some, Int64.neg_ofNat]
  . rfl

theorem parseI64_of_ne_minus {v : Bytes} (hne : v ≠ []) (hminus : ∀ ds, v ≠ 45 :: ds)
    : parseI64 v = if AllDigits v then some (Int64.ofInt (value v)) else none := by
  cases v with
  | nil => contradiction
  | cons b bs =>
    have hhead : ¬ (b :: bs).head? = some 45 := by
      intro heq
      exact hminus bs (by rw [Option.some.inj heq])
    have hgo : parseI64 (b :: bs) = (parseI64.go (b :: bs) 0).map fun result => result := by
      unfold parseI64
      rw [if_neg (by simp), if_neg hhead]
      rfl
    rw [hgo, Option.map_id', parseI64_go, Int64.ofInt_eq_ofNat]

theorem parseI64_of_denotesSigned {v : Bytes} {k : Int} (h : DenotesSigned v k)
    : parseI64 v = some (Int64.ofInt k) := by
  by_cases hminus : ∃ ds, v = 45 :: ds
  . obtain ⟨ds, rfl⟩ := hminus
    obtain ⟨n, ⟨_, hdigits, rfl⟩, rfl⟩ := denotesSigned_minus.mp h
    rw [parseI64_minus, if_pos hdigits]
  . rw [not_exists] at hminus
    obtain ⟨n, ⟨hne, hdigits, rfl⟩, rfl⟩ := (denotesSigned_of_ne_minus hminus).mp h
    rw [parseI64_of_ne_minus hne hminus, if_pos hdigits]

theorem parseI64_eq_none {v : Bytes} (hsign : v ≠ [45]) (h : ∀ k, ¬ DenotesSigned v k)
    : parseI64 v = none := by
  by_cases hminus : ∃ ds, v = 45 :: ds
  . obtain ⟨ds, rfl⟩ := hminus
    rw [parseI64_minus, if_neg]
    intro hdigits
    have hne : ds ≠ [] := by
      rintro rfl
      contradiction
    exact h _ (denotesSigned_minus.mpr ⟨_, ⟨hne, hdigits, rfl⟩, rfl⟩)
  . rw [not_exists] at hminus
    by_cases hne : v = []
    . rw [hne]
      rfl
    . rw [parseI64_of_ne_minus hne hminus, if_neg]
      intro hdigits
      exact h _ ((denotesSigned_of_ne_minus hminus).mpr ⟨_, ⟨hne, hdigits, rfl⟩, rfl⟩)

theorem parseI64_iff (v : Bytes)
    : (∀ k : Int64, parseI64 v = some k ↔ DenotesSigned v k.toInt)
        ↔ v ≠ [45] ∧ ∀ k, DenotesSigned v k → -2 ^ 63 ≤ k ∧ k < 2 ^ 63 := by
  by_cases hsign : v = [45]
  -- The sign alone is read as zero, but it denotes no number.
  . rw [hsign]
    constructor
    . intro h
      obtain ⟨n, hn, _⟩ := denotesSigned_minus.mp ((h 0).mp rfl)
      exact absurd rfl hn.1
    . intro h
      exact absurd rfl h.1
  . rw [and_iff_right hsign]
    simp only [← exists_toInt_eq_iff]
    apply reads_iff (fun _ => Int64.ofInt_toInt _) (fun _ _ => DenotesSigned.unique)
    . intro k hk
      exact parseI64_of_denotesSigned hk
    . exact parseI64_eq_none hsign

-- What is read from a field is what is read from its value.
theorem getFieldU64_of_getField {view : MessageView} {tag : UInt32} {v : Bytes}
    (h : view.getField tag = some v) : view.getFieldU64 tag = parseU64 v := by
  rw [getFieldU64, h, Option.bind_some]

theorem getFieldI64_of_getField {view : MessageView} {tag : UInt32} {v : Bytes}
    (h : view.getField tag = some v) : view.getFieldI64 tag = parseI64 v := by
  rw [getFieldI64, h, Option.bind_some]

end MessageView

theorem GroupEntry.getFieldI64_of_getField {G : Type} {entry : GroupEntry G} {tag : UInt32}
    {v : Bytes} (h : entry.getField tag = some v)
    : entry.getFieldI64 tag = MessageView.parseI64 v := by
  rw [getFieldI64, h, Option.bind_some]
  rfl

theorem integer_accessors_iff {G : Type} (view : MessageView) (entry : GroupEntry G)
    (tag tag' : UInt32) (v : Bytes) (hview : view.getField tag = some v)
    (hentry : entry.getField tag' = some v)
    : ((∀ n : UInt64, view.getFieldU64 tag = some n ↔ Denotes v n.toNat)
          ↔ ∀ n, Denotes v n → n < 2 ^ 64)
        ∧ ((∀ k : Int64, view.getFieldI64 tag = some k ↔ DenotesSigned v k.toInt)
          ↔ v ≠ [45] ∧ ∀ k, DenotesSigned v k → -2 ^ 63 ≤ k ∧ k < 2 ^ 63)
        ∧ ((∀ k : Int64, entry.getFieldI64 tag' = some k ↔ DenotesSigned v k.toInt)
          ↔ v ≠ [45] ∧ ∀ k, DenotesSigned v k → -2 ^ 63 ≤ k ∧ k < 2 ^ 63) := by
  rw [MessageView.getFieldU64_of_getField hview, MessageView.getFieldI64_of_getField hview,
    GroupEntry.getFieldI64_of_getField hentry]
  exact ⟨MessageView.parseU64_iff v, MessageView.parseI64_iff v, MessageView.parseI64_iff v⟩

def numeralView (v : Bytes) : MessageView where
  buffer := v
  fields := [⟨34, 0, UInt16.ofNat v.length⟩]
  msgTypeIdx := 0
  checksumValid := true

def numeralEntry (v : Bytes) : GroupEntry RepeatingGroup := ⟨[(34, v)], []⟩

theorem integer_accessors_iff_minus_seven
    : (numeralView [45, 55]).getField 34 = some [45, 55]
        ∧ (numeralEntry [45, 55]).getField 34 = some [45, 55]
        ∧ ((∀ n : UInt64, (numeralView [45, 55]).getFieldU64 34 = some n
            ↔ Denotes [45, 55] n.toNat) ↔ ∀ n, Denotes [45, 55] n → n < 2 ^ 64)
        ∧ ((∀ k : Int64, (numeralView [45, 55]).getFieldI64 34 = some k
            ↔ DenotesSigned [45, 55] k.toInt)
          ↔ ([45, 55] : Bytes) ≠ [45]
            ∧ ∀ k, DenotesSigned [45, 55] k → -2 ^ 63 ≤ k ∧ k < 2 ^ 63)
        ∧ ((∀ k : Int64, (numeralEntry [45, 55]).getFieldI64 34 = some k
            ↔ DenotesSigned [45, 55] k.toInt)
          ↔ ([45, 55] : Bytes) ≠ [45]
            ∧ ∀ k, DenotesSigned [45, 55] k → -2 ^ 63 ≤ k ∧ k < 2 ^ 63) :=
  ⟨by decide, by decide, integer_accessors_iff (numeralView [45, 55]) (numeralEntry [45, 55])
    34 34 [45, 55] (by decide) (by decide)⟩

-- The sequence number 2 ^ 64 is read as zero.
theorem not_integer_accessors
    : ¬ ∀ (view : MessageView) (entry : GroupEntry RepeatingGroup) (tag : UInt32) (v : Bytes),
        view.getField tag = some v → entry.getField tag = some v →
        (∀ n : UInt64, view.getFieldU64 tag = some n ↔ Denotes v n.toNat)
          ∧ (∀ k : Int64, view.getFieldI64 tag = some k ↔ DenotesSigned v k.toInt)
          ∧ ∀ k : Int64, entry.getFieldI64 tag = some k ↔ DenotesSigned v k.toInt := by
  intro h
  have hlarge := (h (numeralView (ascii "18446744073709551616"))
    (numeralEntry (ascii "18446744073709551616")) 34 (ascii "18446744073709551616")
    (by decide) (by decide)).1 0
  have hvalue := (hlarge.mp (by decide)).2.2
  revert hvalue
  decide

end Velocitas
