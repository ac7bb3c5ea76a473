/-
Btwattch2.Spelling — how values are reported: a polling interval, permission bits
(`Display` of `Interval` and `SocketMode` in `cli.rs`), the seconds and the uptime
of `agent status` (`main.rs`).

A duration is in nanoseconds, spelled as its `Debug` spells it.
-/
import Btwattch2.Config

namespace Btwattch2

/-! ## Durations -/

/-- The digits behind the point, out of `places`: none once nothing is left. -/
def fractionDigits : Nat → Nat → List Char
  | 0, _ => []
  | places + 1, fraction =>
    if fraction = 0 then []
    else Nat.digitChar (fraction / 10 ^ places) :: fractionDigits places (fraction % 10 ^ places)

/-- A decimal of so many places at most. -/
def fmtDecimal (whole fraction places : Nat) : List Char :=
  Nat.toDigits 10 whole ++
    match fractionDigits places fraction with
    | [] => []
    | ds => '.' :: ds

/-- `Debug` of a `Duration`: in the largest unit there is one of. -/
def debugDuration (nanos : Nat) : String :=
  if 0 < nanos / 1000000000 then
    String.ofList (fmtDecimal (nanos / 1000000000) (nanos % 1000000000) 9) ++ "s"
  else if 1000000 ≤ nanos then
    String.ofList (fmtDecimal (nanos / 1000000) (nanos % 1000000) 6) ++ "ms"
  else if 1000 ≤ nanos then
    String.ofList (fmtDecimal (nanos / 1000) (nanos % 1000) 3) ++ "µs"
  else String.ofList (fmtDecimal nanos 0 0) ++ "ns"

/-- `Display` of an interval. -/
def Interval.display (interval : Interval) : String := debugDuration interval.nanos

/-- `f64::round` of a value that is not negative: a half goes up. -/
def roundHalfUp (q : ℚ) : Int := (q + 1 / 2).floor

/-- A duration in the spelling `--interval` accepts, rounded to milliseconds first. -/
def formatSeconds (seconds : ℚ) : String :=
  let millis := min (roundHalfUp (F64.mul seconds 1000)).toNat (2 ^ 64 - 1)
  debugDuration (millis * 1000000)

/-- An uptime as `3h 12m 4s`, dropping the units that would read as zero. -/
def formatDuration (seconds : Nat) : String :=
  let (h, m, s) := (seconds / 3600, seconds % 3600 / 60, seconds % 60)
  match h, m with
  | 0, 0 => s!"{s}s"
  | 0, _ => s!"{m}m {s}s"
  | _, _ => s!"{h}h {m}m {s}s"

example : [1, 3 / 2, 1 / 2, 1 / 100].map formatSeconds = ["1s", "1.5s", "500ms", "10ms"] := by
  decide +kernel

/-! ## Permission bits -/

/-- `Display` of permission bits: octal, in four digits at least. -/
def SocketMode.display (mode : SocketMode) : String :=
  let ds := Nat.toDigits 8 mode.bits
  String.ofList (List.replicate (4 - ds.length) '0' ++ ds)

end Btwattch2
