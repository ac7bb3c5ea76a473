/-
Btwattch2.Main — what an invocation does (`run_cli` of `main.rs`).

A running agent is found by pinging the socket the settings resolve to, and then
serves the command instead of a connection of this invocation's own. What such a
connection does, the scans and `agent start` are other programs to this one: a
`Platform` says how they end.
-/
import Btwattch2.Client

namespace Btwattch2

open Lib

/-- What an invocation takes from its surroundings. -/
structure Platform where
  /-- `$XDG_RUNTIME_DIR`. -/
  runtimeDir : Option String
  /-- The address parser of the Bluetooth library. -/
  parseAddr : String → Except String BDAddr
  toRfc3339 : DateTime → String
  timestampOpt : Int → Option DateTime
  now : DateTime
  /-- Scan on an adapter, for so many seconds. -/
  scan : Nat → Nat → Except String Unit
  /-- Connect to the device and run a mode on it. -/
  direct : ConnectionConfig → Mode → Except String Unit
  /-- Serve clients until shutdown. -/
  serve : ConnectionConfig → Settings → AgentPaths → Except String Unit

section Zone

variable (platform : Platform)

/-! ## Through the agent -/

/-- Stop before handing a command to an agent attached to some other device. -/
def ensureAddrMatches (cli : Cli) (daemon : DaemonInfo) (socket : String) : Except String Unit :=
  match cli.explicitAddr, daemon.addr with
  | some want, some held =>
    if want ≠ held then
      .error (s!"the agent on {socket} is attached to {displayAddr held}, but --addr asks for " ++
        s!"{displayAddr want}; stop that agent or point --socket at the one holding " ++
        displayAddr want)
    else .ok ()
  | _, _ => .ok ()

/-- `to_measurement`: only a measurement reply carries a measurement. -/
def toMeasurement : Response → Option Measurement
  | .measurement voltage ampere wattage powerFactor timestamp =>
    (platform.timestampOpt timestamp).map fun t =>
      { voltage, ampere, wattage, powerFactor, timestamp := t }
  | _ => none

/-- Turn a status byte into this command's result. -/
def reportCommand (action : String) (code : UInt8) : Except String Unit :=
  if code = 0x00 then .ok ()
  else
    let hex := [Nat.digitChar (code.toNat / 16), Nat.digitChar (code.toNat % 16)]
    .error s!"{action} failed, CODE: 0x{String.ofList hex}"

def sendDaemonCommand {σ : Type} (req : Request) (action : String) (paths : AgentPaths) :
    ClientM σ (Except String Unit) := do
  match ← request req paths with
  | .error e => pure (.error e)
  | .ok (.commandResult code) => pure (reportCommand action code)
  | .ok _ => pure (.error "agent returned an unexpected command response")

/-- The renderer a streaming run prints through: how many samples it has had. -/
structure StreamRenderer where
  samples : Nat
  count : Option Nat
  deriving DecidableEq, Repr

/-- Render one measurement: whether that was the last one asked for. -/
def StreamRenderer.record (m : Measurement) : ClientM StreamRenderer Bool := do
  Await.observe (.rendered m)
  Await.modify fun r => { r with samples := r.samples + 1 }
  let r ← Await.get
  pure (r.count.any fun count => count ≤ r.samples)

/-- Run `work` until it finishes or its time is up, which is no error. -/
def untilDeadline {σ : Type} (work : ClientM σ (Except String Unit)) :
    ClientM σ (Except String Unit) := do
  match ← Await.timeout ClientAnswer.isElapsed work with
  | none => pure (.ok ())
  | some result => pure result

/-- Follow the measurements of the agent. -/
def subscribeViaDaemon {σ : Type} (mode : Mode) (cli : Cli) (paths : AgentPaths) :
    ClientM σ (Except String Unit) := do
  let r ← Await.withState ⟨0, cli.sampleCount mode⟩
    (untilDeadline (execute .subscribe paths fun response =>
      match toMeasurement platform response with
      | some m => StreamRenderer.record m
      | none => pure false))
  pure r.1

def runViaDaemon {σ : Type} (mode : Mode) (cli : Cli) (paths : AgentPaths) :
    ClientM σ (Except String Unit) := do
  match mode with
  | .setRtc time => sendDaemonCommand (.setRtc (platform.toRfc3339 time)) "RTC set" paths
  | .getRtc =>
    match ← request .getRtc paths with
    | .error e => pure (.error e)
    | .ok response =>
      match toMeasurement platform response with
      | none => pure (.error "agent returned an unexpected RTC response")
      | some _ => pure (.ok ())
  | .power on =>
    sendDaemonCommand (.power on) (if on then "Power on" else "Power off") paths
  | .testLed => sendDaemonCommand .testLed "Blink" paths
  | .metric _ | .monitor => subscribeViaDaemon platform mode cli paths

/-! ## The invocation -/

/-- `agent start`, `agent stop` and `agent status`. -/
def runAgentCommand {σ : Type} (action : AgentAction) (settings : Settings) (paths : AgentPaths) :
    ClientM σ (Except String Unit) := do
  match action with
  | .start _ =>
    match settings.connectionConfig with
    | .error e => pure (.error e)
    | .ok config => pure (platform.serve config settings paths)
  | .stop =>
    match ← probeDaemon platform.parseAddr paths with
    | none => pure (.ok ())
    | some _ => sendShutdown paths
  | .status =>
    let _ ← probeDaemon platform.parseAddr paths
    pure (.ok ())

def defaultScanWindow : Nat := 10

/-- Run a mode: through the agent if one answers, else on a connection of its own. -/
def runMode {σ : Type} (mode : Mode) (cli : Cli) (settings : Settings) (paths : AgentPaths) :
    ClientM σ (Except String Unit) := do
  let daemon ← probeDaemon platform.parseAddr paths
  Await.observe (.found daemon)
  match daemon with
  | some daemon =>
    match ensureAddrMatches cli daemon paths.socket with
    | .error e => pure (.error e)
    | .ok () => runViaDaemon platform mode cli paths
  | none =>
    match settings.connectionConfig with
    | .error e => pure (.error e)
    | .ok config => pure (platform.direct config mode)

/-- One invocation, given what loading the config file comes to. -/
def runCli [Unicode] {σ : Type} (cli : Cli) (file : Except String (Option FileConfig)) :
    ClientM σ (Except String Unit) := do
  match file.bind cli.settings with
  | .error e => pure (.error e)
  | .ok settings =>
    let paths := Cli.agentPaths platform.runtimeDir settings
    match cli.command with
    | some (.agent action) => runAgentCommand platform action settings paths
    | none =>
      let mode := cli.mode platform.now
      match cli.validatePrefix mode with
      | .error e => pure (.error e)
      | .ok () =>
        match cli.scanMode with
        | some _ =>
          pure (platform.scan settings.adapterIndex (cli.duration.getD defaultScanWindow))
        | none => runMode platform mode cli settings paths

end Zone

end Btwattch2
