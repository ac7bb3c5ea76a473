/-
Btwattch2.Measurement — what the frames of the device say (`connection.rs`):
telling the two kinds of reply apart, the status byte of a command reply, and
the measurement in a frame that is long enough to carry one.

Readings are the exact rationals the program's `f64` values stand for. The three
channels are integers below 2^48 over a power of two and are exact; the power
factor is not, and is rounded as the hardware rounds it.
-/
import Mathlib.Data.Rat.Floor
import Btwattch2.Chrono

namespace Btwattch2

/-! ## Rounding to an `f64` -/

namespace F64

/-- The exponent of a positive rational: the `e` with `2 ^ e ≤ q < 2 ^ (e + 1)`. -/
def exponent (q : ℚ) : Int :=
  let e : Int := (Nat.log2 q.num.natAbs : Int) - Nat.log2 q.den
  if (2 : ℚ) ^ e ≤ q then e else e - 1

/-- The nearest rational of 53 significant bits, a tie going to the even one. No
value of the program comes near the ends of the exponent range. -/
def round (q : ℚ) : ℚ :=
  if q ≤ 0 then 0
  else
    let ulp : ℚ := 2 ^ (exponent q - 52)
    let scaled := q / ulp
    let below := scaled.floor
    let rest := scaled - below
    let up := 1 / 2 < rest ∨ (rest = 1 / 2 ∧ below % 2 = 1)
    (if up then below + 1 else below) * ulp

def add (a b : ℚ) : ℚ := round (a + b)

def mul (a b : ℚ) : ℚ := round (a * b)

def div (a b : ℚ) : ℚ := round (a / b)

end F64

/-! ## The two kinds of reply -/

/-- Shortest frame that can carry a full measurement. Also what distinguishes a
measurement from the much shorter status reply to a one-shot command. -/
def measurementFrameMinLen : Nat := 30

/-- Which reply a one-shot write is waiting for. -/
inductive FrameKind where
  | command
  | measurement
  deriving DecidableEq, Repr

def FrameKind.matches (kind : FrameKind) (frame : List UInt8) : Bool :=
  decide (frame.length ≥ measurementFrameMinLen) == (kind == .measurement)

theorem FrameKind.matches_command {frame : List UInt8} :
    FrameKind.matches .command frame = true ↔ frame.length < measurementFrameMinLen := by
  have hkind : (FrameKind.command == FrameKind.measurement) = false := rfl
  simp [FrameKind.matches, hkind]

/-- The device's status byte in a command reply, if the frame can carry one. -/
def commandStatus (frame : List UInt8) : Option UInt8 := frame[4]?

/-! ## Measurements -/

structure Measurement where
  voltage : ℚ
  ampere : ℚ
  wattage : ℚ
  /-- `wattage / (voltage * ampere)`, and zero when either is zero. -/
  powerFactor : ℚ
  timestamp : DateTime
  deriving DecidableEq, Repr

def voltageScale : ℚ := 2 ^ 24
def ampereScale : ℚ := 2 ^ 30
def wattageScale : ℚ := 2 ^ 24

/-- Little-endian u48: at most six bytes, a shorter slice zero-padded. -/
def u48Le (payload : List UInt8) : Nat :=
  (payload.take 6).foldr (fun byte acc => byte.toNat + 256 * acc) 0

/-- Byte `i` of a frame whose length has been checked. -/
def byteAt (frame : List UInt8) (i : Nat) : Nat := (frame.getD i 0).toNat

/-- The timestamp of a frame: second, minute, hour, day, month from zero and
year from 1900, at offset 23. -/
def frameTimestamp (chrono : Chrono) (frame : List UInt8) : Option DateTime :=
  (NaiveDateTime.fromYmdHmsOpt (1900 + byteAt frame 28) (byteAt frame 27 + 1) (byteAt frame 26)
    (byteAt frame 25) (byteAt frame 24) (byteAt frame 23)).bind chrono.localDatetime

def powerFactor (voltage ampere wattage : ℚ) : ℚ :=
  if voltage > 0 ∧ ampere > 0 then F64.div wattage (F64.mul voltage ampere) else 0

def readMeasure (chrono : Chrono) (frame : List UInt8) : Except String Measurement :=
  if frame.length < measurementFrameMinLen then
    .error s!"frame too short: {frame.length} bytes"
  else
    match frameTimestamp chrono frame with
    | none => .error "invalid timestamp in frame"
    | some timestamp =>
      let voltage : ℚ := u48Le (frame.drop 5) / voltageScale
      let ampere : ℚ := u48Le (frame.drop 11) / ampereScale
      let wattage : ℚ := u48Le (frame.drop 17) / wattageScale
      .ok { voltage, ampere, wattage, powerFactor := powerFactor voltage ampere wattage, timestamp }

/-- A frame as a measurement, skipped when it is none. -/
def tryMeasurement (chrono : Chrono) (frame : List UInt8) : Option Measurement :=
  (readMeasure chrono frame).toOption

/-- A command reply is never a measurement. -/
theorem tryMeasurement_eq_none {chrono : Chrono} {frame : List UInt8}
    (h : frame.length < measurementFrameMinLen) : tryMeasurement chrono frame = none := by
  simp [tryMeasurement, readMeasure, h, Except.toOption]

example : F64.div 1 3 = 6004799503160661 / 2 ^ 54 := by decide +kernel

end Btwattch2
