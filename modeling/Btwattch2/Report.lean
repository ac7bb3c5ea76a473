/-
Btwattch2.Report — what `--scan` and `agent status` print: the devices that were found
(`print_scan` of `main.rs`, `is_watt_checker` of `connection.rs`) and a live agent
(`print_daemon` and `print_agent_status` of `main.rs`).
-/
import Btwattch2.Client
import Btwattch2.Scan
import Btwattch2.Spelling
import Btwattch2.TextTheorems

namespace Btwattch2

open Text

/-! ## A scan -/

/-- What the device calls itself in its advertisement. -/
def deviceName : String := "BTWATTCH2"

/-- Whether this looks like a watt checker, by its advertised name alone. -/
def ScannedDevice.isWattChecker (d : ScannedDevice) : Bool :=
  d.name.any fun name => (name.toList.map Char.toUpper).tails.any deviceName.toList.isPrefixOf

namespace Report

/-- What goes to standard output, and what to standard error. -/
structure Printed where
  out : String
  err : String
  deriving DecidableEq, Repr

/-- The devices that are listed. -/
def listed (devices : List ScannedDevice) (mode : ScanMode) : List ScannedDevice :=
  devices.filter fun d => mode == .everything || d.isWattChecker

def deviceLine (d : ScannedDevice) : String :=
  displayAddr d.addr ++ ("\t" ++ (d.name.getD "(unknown)" ++ ("\trssi=" ++ toString d.rssi)))

def printScan (infoEnabled : Bool) (devices : List ScannedDevice) (mode : ScanMode) : Printed where
  out := unlines <| (if (listed devices mode).isEmpty then ["No devices found."] else []) ++
    (listed devices mode).map deviceLine
  err :=
    let hidden := devices.length - (listed devices mode).length
    if 0 < hidden ∧ infoEnabled then
      unlines [s!"[INFO] {hidden} other device(s) hidden; use --scan-all to list them"]
    else ""

/-! ## A live agent -/

def agentStatusLines (status : AgentStatus) : List String :=
  ["Link:        " ++ (if status.connected then "connected" else "disconnected"),
    "Interval:    " ++ formatSeconds status.intervalSeconds,
    "Uptime:      " ++ formatDuration status.uptimeSeconds,
    "Samples:     " ++ (toString status.samples ++
      match status.lastSampleAgeSeconds with
      | some age => " (last " ++ (formatSeconds age ++ " ago)")
      | none => " (none yet)"),
    "Reconnects:  " ++ toString status.reconnects,
    "Clients:     " ++ toString status.clients] ++
  match status.metricsListen with
  | some addr => ["Metrics:     http://" ++ (addr ++ "/metrics")]
  | none => []

/-- What is printed of an agent that answered. Its pid file may be missing, and an older
agent says less. The socket is as `Path::display` shows it: where the path is no UTF-8, with
a replacement for what is not. -/
def printDaemon (pid : Option Nat) (socket : String) (daemon : DaemonInfo) : String :=
  unlines <|
    [match pid with
      | some pid => "Agent is running (pid " ++ (toString pid ++ ")")
      | none => "Agent is running (pid unknown)",
      "Socket:      " ++ socket] ++
    (match daemon.addr with
      | some addr => ["Attached to: " ++ displayAddr addr]
      | none => []) ++
    match daemon.status with
    | some status => agentStatusLines status
    | none => []

end Report

end Btwattch2
