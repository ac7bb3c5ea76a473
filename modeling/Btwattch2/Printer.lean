/-
Btwattch2.Printer — how a stream of measurements is written to stdout (`Printer` of
`output.rs`), and the metric names that may stand in it (`parse_metric_name` of
`cli.rs`).

What an `f64` is, and how it is written, is left open: `F` is the type of the
readings, `Floats` the three ways to write one.
-/
import Btwattch2.Metrics
import Btwattch2.Cli

namespace Btwattch2

/-- Accept only metric names every supported backend can carry. -/
def parseMetricName [Unicode] (s : String) : Except String String :=
  let head := s.toList.head?.any fun c => prometheusChar c && !c.isDigit
  let tail := s.toList.tail.all fun c => prometheusChar c || c == '.' || c == '-'
  if !head || !tail then
    .error (s!"invalid metric name {debugString s}: use a letter, `_`, or `:`, followed by " ++
      "letters, digits, `_`, `:`, `.`, or `-`")
  else .ok s

/-- `DateTime::timestamp_millis`. -/
def DateTime.timestampMillis (t : DateTime) : Int := t.timestamp * 1000 + t.nanos / 1000000

namespace Output

variable {F : Type}

/-- How an `f64` is written: in full, to a number of places, and as JSON has it. -/
structure Floats (F : Type) where
  display : F → String
  fixed (places : Nat) : F → String
  json : F → String

structure Measurement (F : Type) where
  voltage : F
  ampere : F
  wattage : F
  powerFactor : F
  timestamp : DateTime

/-- The channels, and where a measurement has them. -/
def channelsOf : List (ChannelSpec × (Measurement F → F)) :=
  channels.zip [Measurement.voltage, Measurement.ampere, Measurement.wattage,
    Measurement.powerFactor]

def energyName : String := "energy_wh"

def energyHelp : String := "Energy accumulated this session in watt-hours"

/-- The fields of a record, in output order: the channels, then session energy. -/
def fields (m : Measurement F) (energyWh : F) : List (String × F) :=
  (channelsOf.map fun (channel, value) => (channel.name, value m)) ++ [(energyName, energyWh)]

/-- The same fields, by name and help text. -/
def fieldSpecs : List (String × String) :=
  (channels.map fun channel => (channel.name, channel.help)) ++ [(energyName, energyHelp)]

def fieldNames : List String := fieldSpecs.map Prod.fst

/-! ## The printer -/

/-- One JSON Lines record, written entry by entry. Its keys need no escapes. -/
def jsonLine (floats : Floats F) (m : Measurement F) (energyWh : F) : String :=
  let entry (key value : String) := "\"" ++ key ++ "\":" ++ value
  "\x7b" ++ (",".intercalate <| entry "time" (toString m.timestamp.timestamp) ::
    (fields m energyWh).map fun (name, value) => entry name (floats.json value)) ++ "\x7d"

structure Printer where
  format : OutputFormat
  metricPrefix : String
  headerPrinted : Bool := false

def Printer.new (format : OutputFormat) (metricPrefix : String) : Printer :=
  { format, metricPrefix }

def println (line : String) : String := line ++ "\n"

variable (floats : Floats F)

/-- Render one measurement, with the session energy so far: what is printed, and the
printer after it. -/
def Printer.print (printer : Printer) (m : Measurement F) (energyWh : F) : String × Printer :=
  let epoch := toString m.timestamp.timestamp
  match printer.format with
  | .plain =>
    (println ("V = " ++ floats.display m.voltage ++ ", A = " ++ floats.display m.ampere ++
      ", W = " ++ floats.display m.wattage ++ ", PF = " ++ floats.fixed 4 m.powerFactor ++
      ", Wh = " ++ floats.fixed 3 energyWh), printer)
  | .mackerel =>
    (String.join (channelsOf.map fun (channel, value) =>
      println (printer.metricPrefix ++ "." ++ channel.name ++ "\t" ++ floats.display (value m) ++
        "\t" ++ epoch)), printer)
  | .csv =>
    let head := if printer.headerPrinted then ""
      else println ("time," ++ ",".intercalate fieldNames)
    let values := (fields m energyWh).map fun (_, value) => floats.display value
    (head ++ println (epoch ++ "," ++ ",".intercalate values),
      { printer with headerPrinted := true })
  | .ltsv =>
    let labelled := (fields m energyWh).map fun (name, value) => name ++ ":" ++ floats.display value
    (println ("time:" ++ epoch ++ "\t" ++ "\t".intercalate labelled), printer)
  | .json =>
    -- a record has nothing in it that cannot be written
    (println (jsonLine floats m energyWh), printer)
  | .prometheus =>
    let epochMs := toString m.timestamp.timestampMillis
    let head := if printer.headerPrinted then "" else
      String.join (fieldSpecs.map fun (suffix, help) =>
        println ("# HELP " ++ printer.metricPrefix ++ "_" ++ suffix ++ " " ++ help) ++
          println ("# TYPE " ++ printer.metricPrefix ++ "_" ++ suffix ++ " gauge"))
    (head ++ String.join ((fields m energyWh).map fun (suffix, value) =>
      println (printer.metricPrefix ++ "_" ++ suffix ++ " " ++ floats.display value ++
        " " ++ epochMs)),
      { printer with headerPrinted := true })

/-- A whole run. -/
def Printer.printAll : Printer → List (Measurement F × F) → String
  | _, [] => ""
  | printer, (m, energyWh) :: rest =>
    let (text, printer) := printer.print floats m energyWh
    text ++ printAll printer rest

end Output

end Btwattch2
