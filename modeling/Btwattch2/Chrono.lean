/-
Btwattch2.Chrono — what the program takes from its clock library.

Civil time is kept in seconds: a `NaiveDateTime` counts seconds on the local
clock from 1970-01-01 00:00:00 of the proleptic Gregorian calendar, a
`DateTime` counts them in UTC. The local zone and the RFC 3339 reader are not
part of the repository and come in as a `Chrono`.
-/
import Mathlib.Data.Int.Notation

namespace Btwattch2

/-! ## The calendar -/

def isLeapYear (year : Int) : Bool :=
  year % 4 == 0 && (year % 100 != 0 || year % 400 == 0)

def daysInMonth (year : Int) : Nat → Nat
  | 2 => if isLeapYear year then 29 else 28
  | 4 | 6 | 9 | 11 => 30
  | _ => 31

/-- Days from 1970-01-01 to a civil date. Years are counted from March, so the
leap day comes last in its year, and in eras of 400 years. -/
def daysFromCivil (year : Int) (month day : Nat) : Int :=
  let y := if month ≤ 2 then year - 1 else year
  let era := y / 400
  let yoe := y - era * 400
  let mp : Int := (month + 9) % 12
  let doy := (153 * mp + 2) / 5 + (day - 1)
  let doe := yoe * 365 + yoe / 4 - yoe / 100 + doy
  era * 146097 + doe - 719468

/-- The civil date a day number stands for: year, month, day. -/
def civilFromDays (days : Int) : Int × Nat × Nat :=
  let z := days + 719468
  let era := z / 146097
  let doe := z - era * 146097
  let yoe := (doe - doe / 1460 + doe / 36524 - doe / 146096) / 365
  let doy := doe - (365 * yoe + yoe / 4 - yoe / 100)
  let mp := (5 * doy + 2) / 153
  let day := (doy - (153 * mp + 2) / 5 + 1).toNat
  let month := (if mp < 10 then mp + 3 else mp - 9).toNat
  (yoe + era * 400 + (if month ≤ 2 then 1 else 0), month, day)

def secsPerDay : Int := 86400

/-- A civil date and time without a zone, to the second. -/
structure NaiveDateTime where
  secs : Int
  deriving DecidableEq, Repr

/-- `NaiveDate::from_ymd_opt` followed by `and_hms_opt`: `none` for a date or a
time of day that does not exist. -/
def NaiveDateTime.fromYmdHmsOpt (year : Int) (month day hour minute second : Nat) :
    Option NaiveDateTime :=
  if 1 ≤ month ∧ month ≤ 12 ∧ 1 ≤ day ∧ day ≤ daysInMonth year month ∧
      hour < 24 ∧ minute < 60 ∧ second < 60 then
    some ⟨daysFromCivil year month day * secsPerDay + (hour * 3600 + minute * 60 + second : Nat)⟩
  else none

def NaiveDateTime.addHours (n : NaiveDateTime) (h : Int) : NaiveDateTime :=
  ⟨n.secs + h * 3600⟩

/-! ## Instants and zones -/

/-- An instant: whole seconds since the epoch in UTC, and the fraction. -/
structure DateTime where
  secs : Int
  nanos : Nat := 0
  deriving DecidableEq, Repr

def DateTime.addHours (t : DateTime) (h : Int) : DateTime :=
  { t with secs := t.secs + h * 3600 }

/-- `DateTime::timestamp`. -/
def DateTime.timestamp (t : DateTime) : Int := t.secs

/-- The instants a local time resolves to. The library calls the first of two the
earliest; which one it is depends on how the zone lists them. -/
inductive LocalResult where
  | none
  | single (t : DateTime)
  | ambiguous (first second : DateTime)
  deriving DecidableEq, Repr

/-- The first that is listed. -/
def LocalResult.earliest : LocalResult → Option DateTime
  | .none => Option.none
  | .single t => some t
  | .ambiguous t _ => some t

/-- The clock library as the program sees it: the offset the local zone applies
to an instant, the instants a local time resolves to, and the RFC 3339 reader. -/
structure Chrono where
  offsetAt : Int → Int
  fromLocalDatetime : NaiveDateTime → LocalResult
  parseFromRfc3339 : String → Except String DateTime

namespace Chrono

/-- A machine that runs in UTC, given what its RFC 3339 reader does. -/
def utc (parseFromRfc3339 : String → Except String DateTime) : Chrono where
  offsetAt _ := 0
  fromLocalDatetime naive := .single ⟨naive.secs, 0⟩
  parseFromRfc3339 := parseFromRfc3339

variable (chrono : Chrono)

/-- The local clock at an instant. -/
def naiveLocal (t : DateTime) : NaiveDateTime := ⟨t.secs + chrono.offsetAt t.secs⟩

/-- `local_datetime`: the first instant a time resolves to, and for a time that
does not resolve, one an hour before the first an hour later resolves to. -/
def localDatetime (naive : NaiveDateTime) : Option DateTime :=
  (chrono.fromLocalDatetime naive).earliest <|>
    ((chrono.fromLocalDatetime (naive.addHours 1)).earliest.map fun t => t.addHours (-1))

end Chrono

/-! ## Reading a civil time -/

namespace NaiveDateTime

variable (n : NaiveDateTime)

def days : Int := n.secs / secsPerDay

def secondOfDay : Nat := (n.secs % secsPerDay).toNat

def year : Int := (civilFromDays n.days).1

def month : Nat := (civilFromDays n.days).2.1

def day : Nat := (civilFromDays n.days).2.2

def hour : Nat := n.secondOfDay / 3600

def minute : Nat := n.secondOfDay % 3600 / 60

def second : Nat := n.secondOfDay % 60

/-- `weekday().num_days_from_sunday()`: the epoch fell on a Thursday. -/
def weekday : Nat := ((n.days + 4) % 7).toNat

end NaiveDateTime

example : NaiveDateTime.fromYmdHmsOpt 2021 1 2 3 4 5 = some ⟨1609556645⟩ := by decide

example : (⟨1609556645⟩ : NaiveDateTime).year = 2021 ∧
    (⟨1609556645⟩ : NaiveDateTime).month = 1 ∧ (⟨1609556645⟩ : NaiveDateTime).day = 2 ∧
    (⟨1609556645⟩ : NaiveDateTime).weekday = 6 := by decide

end Btwattch2
