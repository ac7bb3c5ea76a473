/-
Btwattch2.Metrics — the agent's metrics endpoint (`agent/metrics.rs`) and the
exposition it serves (`metrics_exposition` of `output.rs`).
-/
import Btwattch2.Decimal
import Btwattch2.Status

namespace Btwattch2

/-! ## The exposition -/

/-- One measurement channel. -/
structure ChannelSpec where
  name : String
  help : String
  value : Measurement → ℚ

/-- The measurement channels every format renders, in output order. -/
def channels : List ChannelSpec :=
  [⟨"voltage", "Instantaneous voltage in volts", Measurement.voltage⟩,
    ⟨"ampere", "Instantaneous current in amperes", Measurement.ampere⟩,
    ⟨"wattage", "Instantaneous power in watts", Measurement.wattage⟩,
    ⟨"power_factor", "Power factor (wattage / (voltage * ampere))", Measurement.powerFactor⟩]

def gauge (metricPrefix name help value : String) : String :=
  "# HELP " ++ metricPrefix ++ "_" ++ name ++ " " ++ help ++ "\n" ++
    "# TYPE " ++ metricPrefix ++ "_" ++ name ++ " gauge\n" ++
    metricPrefix ++ "_" ++ name ++ " " ++ value ++ "\n"

/-- The body of a scrape: the channels of a measurement that is `up`, the device
clock of any measurement, and whether it is `up`. -/
def metricsExposition (metricPrefix : String) (sample : Option Measurement) (up : Bool) : String :=
  let readings := match sample.filter fun _ => up with
    | some m => String.join (channels.map fun c =>
        gauge metricPrefix c.name c.help (F64.display (c.value m)))
    | none => ""
  let clock := match sample with
    | some m => gauge metricPrefix "last_sample_timestamp_seconds"
        "Device clock of the most recent measurement" (toString m.timestamp.timestamp)
    | none => ""
  readings ++ clock ++ gauge metricPrefix "up"
    "Whether the agent currently has fresh measurements from the device" (if up then "1" else "0")

/-! ## The endpoint -/

namespace Metrics

/-- Namespace for the exposed metrics. -/
def metricPrefix : String := "btwattch2"

def expositionType : String := "text/plain; version=0.0.4; charset=utf-8"

def textType : String := "text/plain; charset=utf-8"

inductive Route where
  | metrics
  | index
  | notFound
  | methodNotAllowed
  deriving DecidableEq, Repr

/-- Route a request line; `none` when it is not one at all. -/
def route (line : String) : Option Route :=
  match Text.splitWhitespace line with
  | method :: target :: _ =>
    if method ≠ "GET" then some .methodNotAllowed
    else
      -- a scraper may append a query string; the path is what selects the route
      let path := String.ofList (target.toList.takeWhile fun c => c != '?' && c != '#')
      some (if path = "/metrics" then .metrics else if path = "/" then .index else .notFound)
  | _ => none

/-- A complete HTTP/1.1 response, which closes the connection. -/
def response (status contentType extraHeaders body : String) : String :=
  s!"HTTP/1.1 {status}\r\nContent-Type: {contentType}\r\nContent-Length: {body.utf8ByteSize}\r\n" ++
    s!"Connection: close\r\n{extraHeaders}\r\n{body}"

/-- The response to a request line, sampled at `now`, after the rest of the head
was drained; `none` when there was no line. -/
def handle (line : String) (stats : AgentStats) (now : Nat) : Option String :=
  if line.isEmpty then none
  else some <| match route line with
    | some .metrics =>
      let reading := stats.reading now
      response "200 OK" expositionType ""
        (metricsExposition metricPrefix reading.measurement reading.fresh)
    | some .index => response "200 OK" textType "" "btwattch2 agent\nmetrics: /metrics\n"
    | some .methodNotAllowed => response "405 Method Not Allowed" textType "Allow: GET\r\n" ""
    | some .notFound | none => response "404 Not Found" textType "" ""

example : route "GET /metrics?collect=all HTTP/1.1\r\n" = some .metrics := by decide +kernel

end Metrics

/-- The longest duration there is, in nanoseconds. -/
def durationMax : Nat := 2 ^ 64 * nanosPerSec - 1

/-- Multiplying a duration, which panics on an overflow. -/
def checkedMul (duration factor : Nat) : Option Nat :=
  if duration * factor ≤ durationMax then some (duration * factor) else none

end Btwattch2
