import VelocitasFix.Data.Fault

/-!
This module contains programs that reserve memory for what they are about to read, and that can stop
with a fault. `Sparing` says of a program exactly when it never asks for more than is left to read and
no build of it stops; there is one rule for each way to put programs together.
-/

structure Reservation where
  capacity : Nat
  remaining : Nat
  deriving DecidableEq, Repr

-- The reservations are those made before the program returned or stopped.
structure Reserving (α : Type) where
  reservations : List Reservation
  result : Except Fault α

namespace Reserving

variable {α β : Type}

def ofFault (result : Except Fault α) : Reserving α := ⟨[], result⟩

def bind (program : Reserving α) (next : α → Reserving β) : Reserving β :=
  match program.result with
  | .error fault => ⟨program.reservations, .error fault⟩
  | .ok a => ⟨program.reservations ++ (next a).reservations, (next a).result⟩

instance : Monad Reserving where
  pure a := ofFault (.ok a)
  bind := bind

-- A vector of more bytes than an address difference can hold is refused in every build.
def reserve (elementSize maxBytes capacity remaining : Nat) : Reserving Unit where
  reservations := [⟨capacity, remaining⟩]
  result := if capacity * elementSize ≤ maxBytes then .ok () else .error .overflow

structure Clean (program : Reserving α) : Prop where
  result_eq : ∃ a, program.result = .ok a
  capacity_le : ∀ r ∈ program.reservations, r.capacity ≤ r.remaining

structure Sparing (program : Build → Reserving α) (safe : Prop) (a : α) : Prop where
  clean : safe → ∀ build, (program build).Clean ∧ (program build).result = .ok a
  wasteful : ¬ safe → ∃ build, ¬ (program build).Clean

theorem bind_of_ok {program : Reserving α} {a : α} (h : program.result = .ok a)
    (next : α → Reserving β)
    : program >>= next = ⟨program.reservations ++ (next a).reservations, (next a).result⟩ := by
  show bind program next = _
  rw [bind, h]

-- A whole is clean only if its first part is.
theorem clean_of_bind {program : Reserving α} {next : α → Reserving β}
    (h : (program >>= next).Clean)
    : program.Clean := by
  cases hresult : program.result with
  | error fault =>
    have hbind : program >>= next = ⟨program.reservations, .error fault⟩ := by
      show bind program next = _
      rw [bind, hresult]
    rw [hbind] at h
    obtain ⟨b, hb⟩ := h.result_eq
    contradiction
  | ok a =>
    rw [bind_of_ok hresult] at h
    exact ⟨⟨a, hresult⟩, fun r hr => h.capacity_le r (List.mem_append_left _ hr)⟩

namespace Sparing

variable {p q : Prop} {a : α} {b : β} {program : Build → Reserving α}

theorem clean_iff (h : Sparing program p a) : (∀ build, (program build).Clean) ↔ p := by
  constructor
  . intro hclean
    by_cases hsafe : p
    . exact hsafe
    . obtain ⟨build, hnot⟩ := h.wasteful hsafe
      exact absurd (hclean build) hnot
  . intro hsafe build
    exact (h.clean hsafe build).1

theorem congr (h : Sparing program p a) (hiff : p ↔ q) : Sparing program q a where
  clean hq := h.clean (hiff.mpr hq)
  wasteful hq := h.wasteful fun hp => hq (hiff.mp hp)

theorem ofFault {program : Build → Except Fault α} (h : Fault.Computes program p a)
    : Sparing (fun build => Reserving.ofFault (program build)) p a where
  clean hsafe := by
    have hok (build : Build) : program build = .ok a := by
      cases build with
      | release => exact h.release
      | debug => exact h.debug hsafe
    intro build
    exact ⟨⟨⟨a, hok build⟩, by simp [Reserving.ofFault]⟩, hok build⟩
  wasteful hunsafe := by
    refine ⟨.debug, ?_⟩
    intro hclean
    obtain ⟨r, hr⟩ := hclean.result_eq
    have hfault : program .debug = .ok r := hr
    rw [h.overflow hunsafe] at hfault
    contradiction

theorem pure (a : α) : Sparing (fun _ => (Pure.pure a : Reserving α)) True a :=
  .ofFault (.pure a)

theorem reserve {elementSize maxBytes capacity remaining : Nat}
    (h : remaining * elementSize ≤ maxBytes)
    : Sparing (fun _ => Reserving.reserve elementSize maxBytes capacity remaining)
        (capacity ≤ remaining) () where
  clean hle := by
    have hfits : capacity * elementSize ≤ maxBytes :=
      Nat.le_trans (Nat.mul_le_mul_right elementSize hle) h
    have hok : (Reserving.reserve elementSize maxBytes capacity remaining).result = .ok () := by
      rw [Reserving.reserve, if_pos hfits]
    intro _
    exact ⟨⟨⟨(), hok⟩, by simpa [Reserving.reserve] using hle⟩, hok⟩
  wasteful hnot := by
    refine ⟨.release, ?_⟩
    intro hclean
    exact hnot (hclean.capacity_le ⟨capacity, remaining⟩ (List.mem_singleton_self _))

theorem bind (h : Sparing program p a) {next : Build → α → Reserving β}
    (hnext : Sparing (fun build => next build a) q b)
    : Sparing (fun build => program build >>= next build) (p ∧ q) b where
  clean hsafe := by
    intro build
    obtain ⟨hclean, hok⟩ := h.clean hsafe.1 build
    obtain ⟨hclean', hok'⟩ := hnext.clean hsafe.2 build
    rw [bind_of_ok hok]
    refine ⟨⟨⟨b, hok'⟩, ?_⟩, hok'⟩
    intro r hr
    cases List.mem_append.mp hr with
    | inl hr => exact hclean.capacity_le r hr
    | inr hr => exact hclean'.capacity_le r hr
  wasteful hunsafe := by
    by_cases hp : p
    . obtain ⟨build, hnot⟩ := hnext.wasteful fun hq => hunsafe ⟨hp, hq⟩
      refine ⟨build, ?_⟩
      intro hclean
      rw [bind_of_ok (h.clean hp build).2] at hclean
      exact hnot ⟨hclean.result_eq,
        fun r hr => hclean.capacity_le r (List.mem_append_right _ hr)⟩
    . obtain ⟨build, hnot⟩ := h.wasteful hp
      exact ⟨build, fun hclean => hnot (clean_of_bind hclean)⟩

-- A step that neither stops nor reserves anything.
theorem bind_of_true (h : Sparing program True a) {next : Build → α → Reserving β}
    (hnext : Sparing (fun build => next build a) q b)
    : Sparing (fun build => program build >>= next build) q b :=
  (h.bind hnext).congr (by rw [true_and])

theorem map (h : Sparing program p a) (f : α → β)
    : Sparing (fun build => program build >>= fun x => Pure.pure (f x)) p (f a) :=
  (@bind _ _ p True a (f a) program h (fun _ x => Pure.pure (f x)) (.pure (f a))).congr (by rw [and_true])

end Sparing

end Reserving
