/-
Btwattch2.Protocol — the messages between the agent and its clients
(`agent/protocol.rs`).
-/
import Btwattch2.Measurement

namespace Btwattch2

inductive Request where
  | setRtc (time : String)
  | getRtc
  | power (on : Bool)
  | testLed
  | subscribe
  | ping
  | shutdown
  deriving DecidableEq, Repr

/-- What the agent reports about itself on a ping. -/
structure AgentStatus where
  uptimeSeconds : Nat
  intervalSeconds : ℚ
  connected : Bool
  samples : Nat
  lastSampleAgeSeconds : Option ℚ
  reconnects : Nat
  clients : Nat
  metricsListen : Option String
  deriving DecidableEq, Repr

inductive Response where
  | ok
  | pong (addr : Option String) (status : Option AgentStatus)
  | error (message : String)
  | measurement (voltage ampere wattage powerFactor : ℚ) (timestamp : Int)
  /-- The device's status byte; zero means it accepted the command. -/
  | commandResult (code : UInt8)
  | streamEnd
  deriving DecidableEq, Repr

namespace Response

def fromMeasurement (m : Measurement) : Response :=
  .measurement m.voltage m.ampere m.wattage m.powerFactor m.timestamp.timestamp

/-- The messages a feed ends with. -/
def isFinal : Response → Bool
  | .error _ | .streamEnd => true
  | _ => false

end Response

end Btwattch2
