import VelocitasFix.Data.Scaling
import VelocitasFix.Timestamp.Impl

/-!
This module contains the clock that counts the cycles of the processor. It measures their rate against
the system clock once, is set to the wall clock once, and from then on only converts what it counts.
-/

namespace Velocitas

open Scaling

inductive TimestampSource where
  | system
  | tsc
  | hardware
  | ptp
  deriving DecidableEq, Repr

-- What the machine shows at one moment: the cycles so far, and the nanoseconds since the epoch.
structure Moment where
  tsc : UInt64
  wall : UInt64
  deriving DecidableEq, Repr

-- The two readings of the cycles, and the time that a third clock measured between them.
structure Calibration where
  tsc0 : UInt64
  tsc1 : UInt64
  elapsedNs : UInt64
  deriving DecidableEq, Repr

namespace HrTimestamp

def now (source : TimestampSource) (m : Moment) : HrTimestamp :=
  match source with
  | .tsc => ⟨m.tsc⟩
  | .system | .hardware | .ptp => ⟨m.wall⟩

def elapsedNs (t since : HrTimestamp) : UInt64 :=
  if since.nanos ≤ t.nanos then t.nanos - since.nanos else 0

end HrTimestamp

-- Both conversions are by 128 bits, and cut to 64 of them.
def tscToNanos (ticks freqHz : UInt64) : UInt64 :=
  if freqHz = 0 then
    0
  else
    UInt64.ofNat (ticks.toNat * 1000000000 / freqHz.toNat)

structure HrClock where
  source : TimestampSource
  tscFrequencyHz : UInt64
  tscOffset : UInt64
  deriving DecidableEq, Repr

namespace HrClock

def calibrateTsc (c : Calibration) : UInt64 :=
  if c.elapsedNs = 0 then
    1000000000
  else
    UInt64.ofNat ((c.tsc1 - c.tsc0).toNat * 1000000000 / c.elapsedNs.toNat)

def new (source : TimestampSource) (c : Calibration) (m : Moment) : HrClock :=
  if source = .tsc then
    let freq := calibrateTsc c
    { source, tscFrequencyHz := freq, tscOffset := m.wall - tscToNanos m.tsc freq }
  else
    { source, tscFrequencyHz := 0, tscOffset := 0 }

def now (c : HrClock) (m : Moment) : HrTimestamp :=
  match c.source with
  | .tsc => ⟨tscToNanos m.tsc c.tscFrequencyHz + c.tscOffset⟩
  | source => .now source m

end HrClock

structure LatencyTracker where
  startTime : HrTimestamp
  clock : HrClock
  deriving DecidableEq, Repr

namespace LatencyTracker

def start (clock : HrClock) (m : Moment) : LatencyTracker where
  startTime := clock.now m
  clock := clock

def stop (t : LatencyTracker) (m : Moment) : UInt64 := (t.clock.now m).elapsedNs t.startTime

end LatencyTracker

-- The wrapped sum is exact, though neither of its parts need be.
theorem toNat_add_offset {x y : Nat} {w : UInt64} (hle : y ≤ x) (h : w.toNat + (x - y) < 2 ^ 64)
    : (UInt64.ofNat x + (w - UInt64.ofNat y)).toNat = w.toNat + (x - y) := by
  rw [UInt64.toNat_add, UInt64.toNat_sub, UInt64.toNat_ofNat', UInt64.toNat_ofNat']
  omega

-- A calibration that saw the cycles advance, and by a number whose rate fits its type.
structure Calibration.Sound (c : Calibration) : Prop where
  elapsed_pos : 0 < c.elapsedNs.toNat
  advanced : c.tsc0 ≤ c.tsc1
  rate_pos : 0 < scale 1000000000 c.elapsedNs.toNat (c.tsc1.toNat - c.tsc0.toNat)
  rate_lt : scale 1000000000 c.elapsedNs.toNat (c.tsc1.toNat - c.tsc0.toNat) < 2 ^ 64

namespace HrClock

variable {c : Calibration} {m0 m m' : Moment}

-- The nanoseconds that the clock makes of the cycles between two moments.
def advance (c : Calibration) (m m' : Moment) : Nat :=
  scale 1000000000 (calibrateTsc c).toNat m'.tsc.toNat
    - scale 1000000000 (calibrateTsc c).toNat m.tsc.toNat

theorem toNat_calibrateTsc (hc : c.Sound)
    : (calibrateTsc c).toNat
        = scale 1000000000 c.elapsedNs.toNat (c.tsc1.toNat - c.tsc0.toNat) := by
  have helapsed : c.elapsedNs ≠ 0 := by
    intro h
    have hpos := hc.elapsed_pos
    rw [h] at hpos
    contradiction
  rw [calibrateTsc, if_neg helapsed, UInt64.toNat_sub_of_le _ _ hc.advanced]
  exact UInt64.toNat_ofNat_of_lt' hc.rate_lt

theorem now_new (hc : c.Sound) (h : m0.tsc ≤ m.tsc)
    (hwall : m0.wall.toNat + advance c m0 m < 2 ^ 64)
    : ((new .tsc c m0).now m).nanos.toNat = m0.wall.toNat + advance c m0 m := by
  have hfreq : calibrateTsc c ≠ 0 := by
    intro hzero
    have hpos := hc.rate_pos
    rw [← toNat_calibrateTsc hc, hzero] at hpos
    contradiction
  change (tscToNanos m.tsc (calibrateTsc c)
    + (m0.wall - tscToNanos m0.tsc (calibrateTsc c))).toNat = _
  rw [tscToNanos, tscToNanos, if_neg hfreq, if_neg hfreq]
  apply toNat_add_offset
  . exact scale_mono (UInt64.le_iff_toNat_le.mp h)
  . exact hwall

theorem counts_advance (hc : c.Sound) (h : m.tsc ≤ m'.tsc)
    : Counts (c.tsc1.toNat - c.tsc0.toNat) c.elapsedNs.toNat (calibrateTsc c).toNat
        (m'.tsc.toNat - m.tsc.toNat) (advance c m m') := by
  unfold advance
  rw [toNat_calibrateTsc hc]
  exact counts_scale hc.elapsed_pos hc.rate_pos (UInt64.le_iff_toNat_le.mp h)

-- Later moments have later timestamps, and all differences are those of the measured rate.
theorem tsc_exact (hc : c.Sound) (h : m0.tsc ≤ m.tsc) (h' : m.tsc ≤ m'.tsc)
    (hwall : m0.wall.toNat + advance c m0 m' < 2 ^ 64)
    : let clock := new .tsc c m0
      let rate := Counts (c.tsc1.toNat - c.tsc0.toNat) c.elapsedNs.toNat
        clock.tscFrequencyHz.toNat
      m0.wall ≤ (clock.now m).nanos
        ∧ (clock.now m).nanos ≤ (clock.now m').nanos
        ∧ rate (m.tsc.toNat - m0.tsc.toNat) ((clock.now m).nanos.toNat - m0.wall.toNat)
        ∧ ((LatencyTracker.start clock m).stop m').toNat
          = (clock.now m').nanos.toNat - (clock.now m).nanos.toNat
        ∧ rate (m'.tsc.toNat - m.tsc.toNat) ((LatencyTracker.start clock m).stop m').toNat := by
  have hadvance : advance c m0 m' = advance c m0 m + advance c m m' := by
    have hle : scale 1000000000 (calibrateTsc c).toNat m0.tsc.toNat
        ≤ scale 1000000000 (calibrateTsc c).toNat m.tsc.toNat :=
      scale_mono (UInt64.le_iff_toNat_le.mp h)
    have hle' : scale 1000000000 (calibrateTsc c).toNat m.tsc.toNat
        ≤ scale 1000000000 (calibrateTsc c).toNat m'.tsc.toNat :=
      scale_mono (UInt64.le_iff_toNat_le.mp h')
    unfold advance
    omega
  have hnow := now_new hc h (by omega)
  have hnow' := now_new hc (UInt64.le_trans h h') hwall
  have hle : ((new .tsc c m0).now m).nanos ≤ ((new .tsc c m0).now m').nanos := by
    rw [UInt64.le_iff_toNat_le, hnow, hnow']
    omega
  have hstop : ((LatencyTracker.start (new .tsc c m0) m).stop m').toNat
      = ((new .tsc c m0).now m').nanos.toNat - ((new .tsc c m0).now m).nanos.toNat := by
    change (HrTimestamp.elapsedNs ((new .tsc c m0).now m') ((new .tsc c m0).now m)).toNat = _
    rw [HrTimestamp.elapsedNs, if_pos hle]
    exact UInt64.toNat_sub_of_le _ _ hle
  refine ⟨?_, hle, ?_, hstop, ?_⟩
  . rw [UInt64.le_iff_toNat_le, hnow]
    omega
  . rw [hnow, Nat.add_sub_cancel_left]
    exact counts_advance hc h
  . rw [hstop, hnow, hnow', hadvance, ← Nat.add_assoc, Nat.add_sub_cancel_left]
    exact counts_advance hc h'

theorem tsc_exact_ghz
    : let c : Calibration := ⟨1000, 6001000, 2000003⟩
      let clock := new .tsc c ⟨6002000, 1700000000000000000⟩
      let rate := Counts (c.tsc1.toNat - c.tsc0.toNat) c.elapsedNs.toNat
        clock.tscFrequencyHz.toNat
      1700000000000000000 ≤ (clock.now ⟨9000000, 0⟩).nanos
        ∧ (clock.now ⟨9000000, 0⟩).nanos ≤ (clock.now ⟨9000100, 0⟩).nanos
        ∧ rate 2998000 ((clock.now ⟨9000000, 0⟩).nanos.toNat - 1700000000000000000)
        ∧ ((LatencyTracker.start clock ⟨9000000, 0⟩).stop ⟨9000100, 0⟩).toNat
          = (clock.now ⟨9000100, 0⟩).nanos.toNat - (clock.now ⟨9000000, 0⟩).nanos.toNat
        ∧ rate 100 ((LatencyTracker.start clock ⟨9000000, 0⟩).stop ⟨9000100, 0⟩).toNat :=
  @tsc_exact ⟨1000, 6001000, 2000003⟩ ⟨6002000, 1700000000000000000⟩ ⟨9000000, 0⟩ ⟨9000100, 0⟩
    ⟨by decide, by decide, by decide, by decide⟩ (by decide) (by decide) (by decide +kernel)

end HrClock

end Velocitas
