/-
Btwattch2.Renderer — a streaming run: each sample is rendered and folded into the
statistics of the session, and the run stops after so many samples (`StreamRenderer`,
`Stats` and `Channel` of `output.rs`).

Every function that reads the clock takes its reading as `now`, in nanoseconds.
-/
import Mathlib.Order.WithBot
import Btwattch2.Printer
import Btwattch2.Status

namespace Btwattch2.Output

/-- Verbosity of informational messages on stderr. -/
inductive LogLevel where
  | off
  | info
  deriving DecidableEq, Repr

/-- A measurement of the device, to be rendered. -/
def ofDevice (m : Btwattch2.Measurement) : Measurement ℚ :=
  ⟨m.voltage, m.ampere, m.wattage, m.powerFactor, m.timestamp⟩

/-- Running min, max and sum of a channel; infinite before the first value. -/
structure Channel where
  min : WithTop ℚ := ⊤
  max : WithBot ℚ := ⊥
  sum : ℚ := 0

def Channel.record (c : Channel) (value : ℚ) : Channel :=
  { min := Min.min c.min value, max := Max.max c.max value, sum := F64.add c.sum value }

/-- Running statistics over a stream of measurements. -/
structure Stats where
  count : Nat := 0
  channels : List Channel := channelsOf (F := ℚ).map fun _ => {}
  lastSample : Option Nat := none
  energyWh : ℚ := 0

namespace Stats

/-- What the time since the last sample adds to the energy. -/
def gain (m : Measurement ℚ) (nanos : Nat) : ℚ :=
  F64.div (F64.mul m.wattage (asSecsF64 nanos)) 3600

/-- Fold a measurement in; the session energy so far is a field of the outcome. -/
def record (stats : Stats) (m : Measurement ℚ) (now : Nat) : Stats where
  count := stats.count + 1
  channels := (channelsOf.zip stats.channels).map fun ((_, value), channel) =>
    channel.record (value m)
  lastSample := some now
  energyWh := match stats.lastSample with
    | some last => F64.add stats.energyWh (gain m (now - last))
    | none => stats.energyWh

/-- The summary: min, max and average of each channel, and the total energy. -/
def summary (floats : Floats ℚ) (stats : Stats) : List String :=
  if stats.count = 0 then []
  else
    let n := F64.round stats.count
    s!"--- summary ({stats.count}-sample run) ---" ::
      ((Btwattch2.channels.zip stats.channels).map fun (channel, c) =>
        channel.name ++ ": min=" ++ floats.fixed 3 (c.min.untopD 0) ++ "  max=" ++
          floats.fixed 3 (c.max.unbotD 0) ++ "  avg=" ++ floats.fixed 3 (F64.div c.sum n)) ++
      ["energy: " ++ floats.fixed 3 stats.energyWh ++ " Wh"]

end Stats

/-- Renders each sample, folds it into the running statistics, and stops after
`count` samples. -/
structure StreamRenderer where
  printer : Printer
  stats : Stats
  samples : Nat
  count : Option Nat
  summary : Bool

namespace StreamRenderer

def new (format : OutputFormat) (metricPrefix : String) (count : Option Nat)
    (logLevel : LogLevel) : StreamRenderer where
  printer := .new format metricPrefix
  stats := {}
  samples := 0
  count := count
  summary := logLevel == .info

variable (floats : Floats ℚ)

/-- Render one measurement: what is printed, whether that was the last, and the
renderer after it. -/
def record (r : StreamRenderer) (m : Measurement ℚ) (now : Nat) :
    String × Bool × StreamRenderer :=
  let stats := r.stats.record m now
  let (text, printer) := r.printer.print floats m stats.energyWh
  (text, r.count.any fun c => c ≤ r.samples + 1,
    { r with printer, stats, samples := r.samples + 1 })

/-- A stream of measurements, each with the time it arrives at, up to the one that
breaks: what is printed and the renderer after it. -/
def follow : StreamRenderer → List (Measurement ℚ × Nat) → String × StreamRenderer
  | r, [] => ("", r)
  | r, (m, now) :: rest =>
    match r.record floats m now with
    | (text, true, r) => (text, r)
    | (text, false, r) =>
      let (more, r) := follow r rest
      (text ++ more, r)

/-- What is printed on stderr when the renderer is dropped, however the run ends. -/
def drop (r : StreamRenderer) : List String :=
  if r.summary then r.stats.summary floats else []

end StreamRenderer

end Btwattch2.Output
