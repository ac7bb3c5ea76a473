/-
Btwattch2.LocalTime — resolving a local time, with the arithmetic of the clock
library as it is (`local_datetime` and `parse_time` of `cli.rs`).

The library holds the years -262143 to 262142. Its `+` and `-` panic where they
leave them, and the program is built to abort on a panic. `Chrono.localDatetime`
is the same function without the ends of the range; on the timestamp of a frame the
two agree (`localDatetime_frame`).
-/
import Btwattch2.Payload

namespace Btwattch2.LocalTime

/-! ## Range -/

/-- The first and the last second of a civil time, and of an instant. -/
def minSecs : Int := daysFromCivil (-262143) 1 1 * secsPerDay

def maxSecs : Int := daysFromCivil 262142 12 31 * secsPerDay + (secsPerDay - 1)

def InRange (secs : Int) : Prop := minSecs ≤ secs ∧ secs ≤ maxSecs

instance (secs : Int) : Decidable (InRange secs) := inferInstanceAs (Decidable (_ ∧ _))

example : minSecs = -8334601228800 ∧ maxSecs = 8210266876799 := by decide +kernel

/-- A civil time to the nanosecond. A leap second is the second before it, with
a second or more of nanoseconds. -/
structure CivilTime where
  secs : Int
  nanos : Nat
  deriving DecidableEq, Repr

def CivilTime.naive (n : CivilTime) : NaiveDateTime := ⟨n.secs⟩

/-- What an hour is in seconds. -/
def hour : Int := 3600

/-- A panic, which ends the program. -/
inductive Panic where
  /-- `NaiveDateTime + TimeDelta` overflowed. -/
  | addition
  /-- `DateTime - TimeDelta` overflowed. -/
  | subtraction
  deriving DecidableEq, Repr

/-- `NaiveDateTime + TimeDelta::hours(1)`. A leap second is left behind. -/
def CivilTime.addHour (n : CivilTime) : Except Panic CivilTime :=
  if n.secs + hour ≤ maxSecs then .ok ⟨n.secs + hour, n.nanos % 1000000000⟩
  else .error .addition

/-- `DateTime - TimeDelta::hours(1)`. A leap second is left behind. -/
def subHour (t : DateTime) : Except Panic DateTime :=
  let secs := t.secs - hour + (if 1000000000 ≤ t.nanos then 1 else 0)
  if minSecs ≤ secs then .ok ⟨secs, t.nanos % 1000000000⟩
  else .error .subtraction

section Zone

variable (chrono : Chrono)

/-- `Local.from_local_datetime(&n).earliest()`: the fraction is carried over. -/
def earliest (n : CivilTime) : Option DateTime :=
  (chrono.fromLocalDatetime n.naive).earliest.map fun t => { t with nanos := n.nanos }

/-- Resolve a local time, and one that does not resolve an hour before what an hour
later resolves to. -/
def localDatetime (n : CivilTime) : Except Panic (Option DateTime) :=
  match earliest chrono n with
  | some t => .ok (some t)
  | none => do
    let later ← n.addHour
    match earliest chrono later with
    | none => pure none
    | some t =>
      let t ← subHour t
      pure (some t)

/-! ## The time argument -/

def formats : List String :=
  ["%Y-%m-%d %H:%M:%S", "%Y-%m-%dT%H:%M:%S", "%Y/%m/%d %H:%M:%S", "%Y-%m-%d %H:%M",
    "%Y/%m/%d %H:%M"]

/-- The civil time in a text: that of the first format the reader
(`NaiveDateTime::parse_from_str`) can read it in. -/
def readNaive (parseFromStr : String → String → Option CivilTime) (s : String) :
    Option CivilTime :=
  formats.findSome? fun f => parseFromStr s f

/-- What a text comes to, checked by building the frame it is for. -/
def checkTime (s : String) : Option DateTime → Except String DateTime
  | none => .error s!"unrecognized time format: {s}"
  | some time =>
    match rtc chrono time with
    | .error e => .error e
    | .ok _ => .ok time

/-- The argument of `--set-rtc`. -/
def parseTime (parseFromStr : String → String → Option CivilTime) (s : String) :
    Except Panic (Except String DateTime) :=
  match chrono.parseFromRfc3339 s with
  | .ok time => .ok (checkTime chrono s (some time))
  | .error _ =>
    match readNaive parseFromStr s with
    | none => .ok (checkTime chrono s none)
    | some n => (localDatetime chrono n).map (checkTime chrono s)

end Zone

end Btwattch2.LocalTime
