import VelocitasFix.Tags

/-!
This module contains the FIX timestamps of a wall clock reading, in milliseconds, microseconds and
nanoseconds. No operation of the conversion leaves the range of its machine type for a reading of 64
bits.
-/

namespace Velocitas

structure HrTimestamp where
  nanos : UInt64
  deriving DecidableEq, Repr

namespace HrTimestamp

def civilFromDays (days : Int) : Int × Nat × Nat :=
  let z := days + 719468
  let era := (if z ≥ 0 then z else z - 146096).tdiv 146097
  let doe := (z - era * 146097).toNat
  let yoe := (doe - doe / 1460 + doe / 36524 - doe / 146096) / 365
  let y := (yoe : Int) + era * 400
  let doy := doe - (365 * yoe + yoe / 4 - yoe / 100)
  let mp := (5 * doy + 2) / 153
  let d := doy - (153 * mp + 2) / 5 + 1
  let m := if mp < 10 then mp + 3 else mp - 9
  let y := if m ≤ 2 then y + 1 else y
  (y, m, d)

def asciiDigit (val : Nat) : UInt8 := 48 + UInt8.ofNat val

def writeDigits2 (val : Nat) : Bytes := [asciiDigit (val / 10), asciiDigit (val % 10)]

def writeDigits3 (val : Nat) : Bytes :=
  [asciiDigit (val / 100), asciiDigit (val / 10 % 10), asciiDigit (val % 10)]

def writeDigits4 (val : Nat) : Bytes :=
  [asciiDigit (val / 1000), asciiDigit (val / 100 % 10), asciiDigit (val / 10 % 10),
    asciiDigit (val % 10)]

def writeDigits6 (val : Nat) : Bytes :=
  [asciiDigit (val / 100000), asciiDigit (val / 10000 % 10), asciiDigit (val / 1000 % 10),
    asciiDigit (val / 100 % 10), asciiDigit (val / 10 % 10), asciiDigit (val % 10)]

def writeDigits9 (val : Nat) : Bytes :=
  [asciiDigit (val / 100000000), asciiDigit (val / 10000000 % 10), asciiDigit (val / 1000000 % 10),
    asciiDigit (val / 100000 % 10), asciiDigit (val / 10000 % 10), asciiDigit (val / 1000 % 10),
    asciiDigit (val / 100 % 10), asciiDigit (val / 10 % 10), asciiDigit (val % 10)]

def writeDate (y m d : Nat) : Bytes := writeDigits4 y ++ writeDigits2 m ++ writeDigits2 d

def writeTime (h m s : Nat) : Bytes :=
  writeDigits2 h ++ [58] ++ writeDigits2 m ++ [58] ++ writeDigits2 s

def toFixTimestamp (t : HrTimestamp) : Bytes :=
  let totalSecs := t.nanos.toNat / 1000000000
  let nanosFrac := t.nanos.toNat % 1000000000
  let days := totalSecs / 86400
  let daySecs := totalSecs % 86400
  let (y, mo, d) := civilFromDays days
  let ms := nanosFrac / 1000000
  writeDate y.toNat mo d ++ [45]
    ++ writeTime (daySecs / 3600) (daySecs % 3600 / 60) (daySecs % 60) ++ [46] ++ writeDigits3 ms

-- The components that the three formats share.
structure UtcComponents where
  year : Nat
  month : Nat
  day : Nat
  hour : Nat
  minute : Nat
  second : Nat
  nanosFrac : Nat

def toUtcComponents (t : HrTimestamp) : UtcComponents :=
  let totalSecs := t.nanos.toNat / 1000000000
  let nanosFrac := t.nanos.toNat % 1000000000
  let days := totalSecs / 86400
  let daySecs := totalSecs % 86400
  let (y, mo, d) := civilFromDays days
  { year := y.toNat, month := mo, day := d, hour := daySecs / 3600, minute := daySecs % 3600 / 60
    second := daySecs % 60, nanosFrac }

def toFixTimestampUs (t : HrTimestamp) : Bytes :=
  let c := t.toUtcComponents
  let us := c.nanosFrac / 1000
  writeDate c.year c.month c.day ++ [45] ++ writeTime c.hour c.minute c.second ++ [46]
    ++ writeDigits6 us

def toFixTimestampNs (t : HrTimestamp) : Bytes :=
  let c := t.toUtcComponents
  writeDate c.year c.month c.day ++ [45] ++ writeTime c.hour c.minute c.second ++ [46]
    ++ writeDigits9 c.nanosFrac

theorem length_toFixTimestamp (t : HrTimestamp) : t.toFixTimestamp.length = 21 := by
  simp [toFixTimestamp, writeDate, writeTime, writeDigits2, writeDigits3, writeDigits4]

example : toFixTimestamp ⟨1774087200123456789⟩ = ascii "20260321-10:00:00.123" := by
  decide +kernel

example : toFixTimestampNs ⟨1774087200123456789⟩ = ascii "20260321-10:00:00.123456789" := by
  decide +kernel

end HrTimestamp

end Velocitas
