import Mathlib.Algebra.Order.Group.Nat
import VelocitasFix.Data.FixedWindow
import VelocitasFix.Session.Impl

/-!
This module contains what the rate limiter admits: the first calls of each window up to the configured
rate, and so at most twice the rate in any interval shorter than a second.
-/

namespace Velocitas

namespace Session

open FixedWindow

-- The calls at these times, each with what it returned.
def rateResults (s : Session) : List Instant → List (Instant × Bool)
  | [] => []
  | now :: times => (now, (s.checkRateLimit now).1) :: rateResults (s.checkRateLimit now).2 times

-- A window begins with the session or with a call that resets the counter.
def rateWindows (start : Instant) (times : List Instant) : List (List Instant) :=
  windows (Duration.fromSecs 1) start times

theorem elapsed_iff {start now : Instant}
    : Duration.fromSecs 1 ≤ now.durationSince start ↔ start + Duration.fromSecs 1 ≤ now := by
  have hnat (start now : Nat) : 1 * 1000000000 ≤ now - start ↔ start + 1 * 1000000000 ≤ now := by
    omega
  exact hnat start now

theorem checkRateLimit_of_le {s : Session} {now : Instant}
    (h : s.windowStart + Duration.fromSecs 1 ≤ now)
    : s.checkRateLimit now
        = (decide (0 < s.config.maxMsgRate.toNat),
          { s with msgCountWindow := 1, windowStart := now }) := by
  unfold checkRateLimit
  dsimp only
  rw [if_pos (elapsed_iff.mpr h)]
  rfl

theorem checkRateLimit_of_not_le {s : Session} {now : Instant}
    (h : ¬ s.windowStart + Duration.fromSecs 1 ≤ now)
    (hcount : s.msgCountWindow.toNat + 1 < 2 ^ 32)
    : s.checkRateLimit now
        = (decide (0 < s.config.maxMsgRate.toNat - s.msgCountWindow.toNat),
          { s with msgCountWindow := s.msgCountWindow + 1 }) := by
  have hnext : (s.msgCountWindow + 1).toNat = s.msgCountWindow.toNat + 1 := by
    rw [UInt32.toNat_add]
    exact Nat.mod_eq_of_lt hcount
  unfold checkRateLimit
  dsimp only
  rw [if_neg (elapsed_iff.not.mpr h)]
  rw [Prod.mk.injEq]
  refine ⟨?_, rfl⟩
  rw [decide_eq_decide, UInt32.le_iff_toNat_le, hnext]
  omega

-- What is left of the current window is decided by what is left of the rate.
theorem rateResults_eq {s : Session} {times : List Instant}
    (hcurrent : s.msgCountWindow.toNat
      + (split (Duration.fromSecs 1) s.windowStart times).1.length < 2 ^ 32)
    (hlater : ∀ w ∈ (split (Duration.fromSecs 1) s.windowStart times).2, w.length < 2 ^ 32)
    : s.rateResults times
        = decisions (s.config.maxMsgRate.toNat - s.msgCountWindow.toNat)
            (split (Duration.fromSecs 1) s.windowStart times).1
          ++ (split (Duration.fromSecs 1) s.windowStart times).2.flatMap
            (decisions s.config.maxMsgRate.toNat) := by
  induction times generalizing s with
  | nil =>
    simp only [rateResults, split, decisions, List.take_nil, List.drop_nil, List.map_nil,
      List.append_nil, List.flatMap_nil]
  | cons now times ih =>
    by_cases h : s.windowStart + Duration.fromSecs 1 ≤ now
    . rw [split_of_le h] at hcurrent hlater ⊢
      rw [List.forall_mem_cons, List.length_cons] at hlater
      rw [rateResults, checkRateLimit_of_le h, ih, List.flatMap_cons, decisions_cons]
      . simp only [decisions, List.take_nil, List.drop_nil, List.map_nil, List.nil_append]
        rfl
      . change 1 + _ < _
        rw [Nat.add_comm]
        exact hlater.1
      . exact hlater.2
    . rw [split_of_not_le h] at hcurrent hlater ⊢
      rw [List.length_cons] at hcurrent
      have hcount : s.msgCountWindow.toNat + 1 < 2 ^ 32 := by omega
      have hnext : (s.msgCountWindow + 1).toNat = s.msgCountWindow.toNat + 1 := by
        rw [UInt32.toNat_add]
        exact Nat.mod_eq_of_lt hcount
      rw [rateResults, checkRateLimit_of_not_le h hcount, ih, decisions_cons]
      . rw [hnext, Nat.sub_sub]
        rfl
      . dsimp only
        rw [hnext]
        omega
      . exact hlater

theorem rate_limit (config : SessionConfig) (start : Instant) (times : List Instant)
    (hsorted : times.Pairwise (· ≤ ·)) (hcount : ∀ w ∈ rateWindows start times, w.length < 2 ^ 32)
    : (rateWindows start times).flatten = times
        ∧ (new config start).rateResults times
          = (rateWindows start times).flatMap (decisions config.maxMsgRate.toNat)
        ∧ ∀ a b : Instant, b < a + Duration.fromSecs 1 →
          ((new config start).rateResults times).countP
            (fun call => call.2 && decide (a ≤ call.1 ∧ call.1 ≤ b))
            ≤ 2 * config.maxMsgRate.toNat := by
  unfold rateWindows at hcount ⊢
  have hresults : (new config start).rateResults times
      = (windows (Duration.fromSecs 1) start times).flatMap
        (decisions config.maxMsgRate.toNat) := by
    unfold windows at hcount ⊢
    rw [List.forall_mem_cons] at hcount
    rw [rateResults_eq, List.flatMap_cons]
    . rfl
    . change 0 + _ < _
      rw [Nat.zero_add]
      exact hcount.1
    . exact hcount.2
  refine ⟨flatten_windows _ _ _, hresults, ?_⟩
  intro a b hab
  rw [hresults]
  exact countP_decisions_le hsorted hab _

-- Two calls a second: the third call is turned down, the fourth one opens a window.
theorem rate_limit_twoCalls
    : ([5, 6, 7, 2000000000] : List Instant).Pairwise (· ≤ ·)
        ∧ (∀ w ∈ rateWindows 0 [5, 6, 7, 2000000000], w.length < 2 ^ 32)
        ∧ (rateWindows 0 [5, 6, 7, 2000000000]).flatten = [5, 6, 7, 2000000000]
        ∧ (new { SessionConfig.default with maxMsgRate := 2 } 0).rateResults [5, 6, 7, 2000000000]
          = (rateWindows 0 [5, 6, 7, 2000000000]).flatMap (decisions 2)
        ∧ ∀ a b : Instant, b < a + Duration.fromSecs 1 →
          ((new { SessionConfig.default with maxMsgRate := 2 } 0).rateResults
              [5, 6, 7, 2000000000]).countP
            (fun call => call.2 && decide (a ≤ call.1 ∧ call.1 ≤ b))
            ≤ 2 * 2 := by
  have hsorted : ([5, 6, 7, 2000000000] : List Instant).Pairwise (· ≤ ·) := by decide
  have hcount : ∀ w ∈ rateWindows 0 [5, 6, 7, 2000000000], w.length < 2 ^ 32 := by decide
  exact ⟨hsorted, hcount,
    rate_limit { SessionConfig.default with maxMsgRate := 2 } 0 _ hsorted hcount⟩

end Session

end Velocitas
