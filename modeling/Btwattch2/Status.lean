/-
Btwattch2.Status — what the agent knows about itself (`AgentStats` of
`agent/status.rs`): the counters `agent status` reports and the latest
measurement.

Instants and durations are in nanoseconds on the monotonic clock; every function
that reads the clock takes its reading as `now`.
-/
import Btwattch2.Protocol

namespace Btwattch2

def nanosPerSec : Nat := 1000000000

/-- `Duration::as_secs_f64`. -/
def asSecsF64 (nanos : Nat) : ℚ :=
  F64.add (nanos / nanosPerSec : Nat) (F64.div (nanos % nanosPerSec : Nat) nanosPerSec)

/-- Never call a reading fresh for less than this. -/
def minFreshness : Nat := 5 * nanosPerSec

/-- How many intervals may pass before the last reading is stale. -/
def staleAfterIntervals : Nat := 3

/-- The most recent measurement, with the instant it arrived. -/
structure Sample where
  measurement : Measurement
  arrived : Nat
  deriving DecidableEq, Repr

/-- The latest reading and whether it still describes the device. -/
structure Reading where
  measurement : Option Measurement
  fresh : Bool
  deriving DecidableEq, Repr

structure AgentStats where
  started : Nat
  interval : Nat
  metricsListen : Option String
  connected : Bool
  samples : Nat
  reconnects : Nat
  clients : Nat
  latest : Option Sample
  deriving DecidableEq, Repr

namespace AgentStats

def new (now interval : Nat) (metricsListen : Option String) : AgentStats :=
  { started := now, interval, metricsListen, connected := false, samples := 0, reconnects := 0,
    clients := 0, latest := none }

variable (stats : AgentStats)

/-- Arriving at all is proof the link is up, so this also clears a
`connected = false` left by an earlier failure. -/
def recordSample (now : Nat) (m : Measurement) : AgentStats :=
  { stats with samples := stats.samples + 1, connected := true, latest := some ⟨m, now⟩ }

def setConnected (connected : Bool) : AgentStats := { stats with connected }

def recordReconnect : AgentStats :=
  { stats with reconnects := stats.reconnects + 1, connected := true }

def setClients (clients : Nat) : AgentStats := { stats with clients }

def staleAfter : Nat := max (stats.interval * staleAfterIntervals) minFreshness

def sampleAge (now : Nat) : Option Nat := stats.latest.map fun s => now - s.arrived

def reading (now : Nat) : Reading :=
  { measurement := stats.latest.map Sample.measurement,
    fresh := stats.connected && stats.latest.any fun s => now - s.arrived ≤ stats.staleAfter }

def snapshot (now : Nat) : AgentStatus :=
  { uptimeSeconds := (now - stats.started) / nanosPerSec,
    intervalSeconds := asSecsF64 stats.interval,
    connected := stats.connected,
    samples := stats.samples,
    lastSampleAgeSeconds := (stats.sampleAge now).map asSecsF64,
    reconnects := stats.reconnects,
    clients := stats.clients,
    metricsListen := stats.metricsListen }

end AgentStats

end Btwattch2
