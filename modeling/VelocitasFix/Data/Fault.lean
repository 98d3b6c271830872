import Mathlib.Logic.Basic

/-!
This module contains programs that can stop with a fault: an index or a range outside of a sequence
stops every build, a machine operation that leaves its type stops the debug build and wraps in the
release build. `Computes` says of a program what its release build returns and exactly when its debug
build does too; there is one rule for each way to put programs together.
-/

inductive Build where
  | debug
  | release
  deriving DecidableEq, Repr

inductive Fault where
  | outOfRange
  | overflow
  deriving DecidableEq, Repr

namespace Fault

variable {α β : Type}

def check (inside : Prop) [Decidable inside] : Except Fault Unit :=
  if inside then .ok () else .error .outOfRange

def index (xs : List α) (i : Nat) : Except Fault α :=
  match xs[i]? with
  | some x => .ok x
  | none => .error .outOfRange

def store (xs : List α) (i : Nat) (x : α) : Except Fault (List α) :=
  if i < xs.length then .ok (xs.set i x) else .error .outOfRange

def range (xs : List α) (start stop : Nat) : Except Fault (List α) :=
  if start ≤ stop ∧ stop ≤ xs.length then
    .ok ((xs.drop start).take (stop - start))
  else
    .error .outOfRange

-- A difference of positions: below zero is a fault in every build.
def sub (a b : Nat) : Except Fault Nat :=
  if b ≤ a then .ok (a - b) else .error .overflow

def arith (build : Build) (fits : Prop) [Decidable fits] (wrapped : α) : Except Fault α :=
  match build with
  | .release => .ok wrapped
  | .debug => if fits then .ok wrapped else .error .overflow

-- The short-circuit conjunction.
def andThen (first : Except Fault Bool) (second : Except Fault Bool) : Except Fault Bool := do
  if ← first then second else .ok false

structure Computes (program : Build → Except Fault α) (safe : Prop) (a : α) : Prop where
  release : program .release = .ok a
  debug : safe → program .debug = .ok a
  overflow : ¬ safe → program .debug = .error .overflow

namespace Computes

variable {p q : Prop} {a : α} {b : β} {program : Build → Except Fault α}

theorem debug_eq_ok_iff (h : Computes program p a) : program .debug = .ok a ↔ p := by
  constructor
  . intro hok
    by_cases hsafe : p
    . exact hsafe
    . rw [h.overflow hsafe] at hok
      contradiction
  . exact h.debug

theorem eq_of_ok (h : Computes program p a) {build : Build} {r : α} (hok : program build = .ok r)
    : r = a := by
  cases build with
  | release =>
    rw [h.release, Except.ok.injEq] at hok
    exact hok.symm
  | debug =>
    by_cases hsafe : p
    . rw [h.debug hsafe, Except.ok.injEq] at hok
      exact hok.symm
    . rw [h.overflow hsafe] at hok
      contradiction

theorem eq_ok (h : Computes program True a) (build : Build) : program build = .ok a := by
  cases build with
  | debug => exact h.debug trivial
  | release => exact h.release

theorem congr (h : Computes program p a) (hiff : p ↔ q) : Computes program q a where
  release := h.release
  debug hq := h.debug (hiff.mpr hq)
  overflow hq := h.overflow fun hp => hq (hiff.mp hp)

theorem pure (a : α) : Computes (fun _ => .ok a) True a where
  release := rfl
  debug _ := rfl
  overflow h := absurd trivial h

-- The whole stops with the first program or goes on as the next one.
theorem seq (h : Computes program p a) {whole next : Build → Except Fault β}
    (hnext : Computes next q b) (hok : ∀ build, program build = .ok a → whole build = next build)
    (hfault : ∀ build fault, program build = .error fault → whole build = .error fault)
    : Computes whole (p ∧ q) b where
  release := by
    rw [hok _ h.release]
    exact hnext.release
  debug hsafe := by
    rw [hok _ (h.debug hsafe.1)]
    exact hnext.debug hsafe.2
  overflow hunsafe := by
    by_cases hp : p
    . rw [hok _ (h.debug hp)]
      exact hnext.overflow fun hq => hunsafe ⟨hp, hq⟩
    . exact hfault _ _ (h.overflow hp)

theorem bind (h : Computes program p a) {next : Build → α → Except Fault β}
    (hnext : Computes (fun build => next build a) q b)
    : Computes (fun build => program build >>= next build) (p ∧ q) b := by
  apply h.seq hnext
  . intro build hok
    rw [hok]
    rfl
  . intro build fault hfault
    rw [hfault]
    rfl

-- A step that cannot leave its type.
theorem bind_of_true (h : Computes program True a) {next : Build → α → Except Fault β}
    (hnext : Computes (fun build => next build a) q b)
    : Computes (fun build => program build >>= next build) q b :=
  (h.bind hnext).congr (by rw [true_and])

theorem ite {cond : Prop} [Decidable cond] {other : Build → Except Fault α} {b : α}
    (h : cond → Computes program True a) (hother : ¬ cond → Computes other True b)
    : Computes (fun build => if cond then program build else other build) True
        (if cond then a else b) := by
  split
  . next hcond => exact h hcond
  . next hcond => exact hother hcond

theorem arith {fits : Prop} [Decidable fits] (wrapped : α)
    : Computes (fun build => Fault.arith build fits wrapped) fits wrapped where
  release := rfl
  debug h := by
    rw [Fault.arith, if_pos h]
  overflow h := by
    rw [Fault.arith, if_neg h]

theorem check {inside : Prop} [Decidable inside] (h : inside)
    : Computes (fun _ => Fault.check inside) True () := by
  rw [Fault.check, if_pos h]
  exact .pure ()

theorem index {xs : List α} {i : Nat} (h : i < xs.length)
    : Computes (fun _ => Fault.index xs i) True xs[i] := by
  rw [Fault.index, List.getElem?_eq_getElem h]
  exact .pure _

theorem store {xs : List α} {i : Nat} (h : i < xs.length) (x : α)
    : Computes (fun _ => Fault.store xs i x) True (xs.set i x) := by
  rw [Fault.store, if_pos h]
  exact .pure _

theorem range {xs : List α} {start stop : Nat} (h : start ≤ stop) (hle : stop ≤ xs.length)
    : Computes (fun _ => Fault.range xs start stop) True ((xs.drop start).take (stop - start)) := by
  rw [Fault.range, if_pos ⟨h, hle⟩]
  exact .pure _

theorem sub {m n : Nat} (h : n ≤ m) : Computes (fun _ => Fault.sub m n) True (m - n) := by
  rw [Fault.sub, if_pos h]
  exact .pure _

theorem andThen {first second : Except Fault Bool} {x y : Bool}
    (hfirst : Computes (fun _ => first) True x)
    (hsecond : x = true → Computes (fun _ => second) True y)
    : Computes (fun _ => Fault.andThen first second) True (x && y) := by
  unfold Fault.andThen
  apply hfirst.bind_of_true
  cases x with
  | false => exact .pure false
  | true => exact hsecond rfl

end Computes

end Fault
