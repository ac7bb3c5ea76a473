/-
Btwattch2.Cli — the command line, and what an invocation runs with (`cli.rs`).

Settings come in three layers: the command line over the selected profile over
the top-level keys of the config file. How the file is read is not part of this
module; a `FileConfig` is what it says.
-/
import Btwattch2.Chrono
import Mathlib.Data.List.Basic

namespace Btwattch2

/-! ## Values -/

/-- A Bluetooth device address. -/
abbrev BDAddr := BitVec 48

/-- Upper-case hexadecimal, a colon between two bytes. -/
def displayAddr (addr : BDAddr) : String :=
  String.intercalate ":" ((List.range 6).map fun i =>
    let byte := addr.toNat >>> (8 * (5 - i)) % 256
    String.ofList [(Nat.digitChar (byte / 16)).toUpper, (Nat.digitChar (byte % 16)).toUpper])

/-- What the tables of the standard library say of the characters beyond ASCII. -/
class Unicode where
  /-- It is printable, and does not extend a grapheme. -/
  isPrintable : Char → Bool

/-- Tables that have ASCII only. -/
@[reducible] def Unicode.ascii : Unicode := ⟨fun _ => false⟩

section Debug

variable [Unicode]

/-- `char::escape_debug_ext`, between `quote`s. -/
def escapeDebug (quote c : Char) : String :=
  if c = '\x00' then "\\0"
  else if c = '\t' then "\\t"
  else if c = '\r' then "\\r"
  else if c = '\n' then "\\n"
  else if c = '\\' ∨ c = quote then "\\" ++ c.toString
  else if (if c.toNat < 0x80 then 0x20 ≤ c.toNat && c.toNat < 0x7F else Unicode.isPrintable c) then
    c.toString
  else "\\u\x7b" ++ String.ofList (Nat.toDigits 16 c.toNat) ++ "\x7d"

/-- The `Debug` spelling of a string. -/
def debugString (s : String) : String :=
  "\"" ++ String.join (s.toList.map (escapeDebug (Char.ofNat 0x22))) ++ "\""

/-- The `Debug` spelling of a character. -/
def debugChar (c : Char) : String := "'" ++ escapeDebug (Char.ofNat 0x27) c ++ "'"

end Debug

/-- The shortest and the longest polling period, in nanoseconds. -/
def minInterval : Nat := 10 * 1000000

def maxInterval : Nat := 24 * 60 * 60 * 1000000000

/-- How long to wait between measurement requests, within its bounds. -/
structure Interval where
  nanos : Nat
  min_le : minInterval ≤ nanos
  le_max : nanos ≤ maxInterval
  deriving DecidableEq

/-- Permission bits for the agent's socket. -/
structure SocketMode where
  bits : Nat
  le_max : bits ≤ 0o777
  deriving DecidableEq

def defaultIndex : Nat := 0

def defaultInterval : Interval := ⟨1000000000, by decide, by decide⟩

inductive OutputFormat where
  | plain
  | json
  | csv
  | ltsv
  | prometheus
  | mackerel
  deriving DecidableEq, Repr

/-- Characters a Prometheus metric name may contain. -/
def prometheusChar (c : Char) : Bool := c.isAlphanum || c == '_' || c == ':'

/-- Reject a metric prefix this format cannot express. -/
def OutputFormat.validatePrefix [Unicode] (format : OutputFormat) (metricPrefix : String) :
    Except String Unit :=
  if format = .prometheus then
    match metricPrefix.toList.find? fun c => !prometheusChar c with
    | some bad =>
      .error (s!"metric name {debugString metricPrefix} contains {debugChar bad}, which a " ++
        "Prometheus metric name cannot; use letters, digits, `_`, or `:`")
    | none => .ok ()
  else .ok ()

/-! ## Settings -/

/-- Options needed to reach the device. -/
structure ConnectOpts where
  index : Option Nat := none
  addr : Option BDAddr := none
  interval : Option Interval := none
  deriving DecidableEq

/-- Overlay `self` on `fallback`: any field set here wins. -/
def ConnectOpts.or (self fallback : ConnectOpts) : ConnectOpts :=
  { index := self.index.or fallback.index,
    addr := self.addr.or fallback.addr,
    interval := self.interval.or fallback.interval }

/-- What one device needs: a section of the file, its top-level keys, or what an
invocation finally runs with. -/
structure Settings where
  connect : ConnectOpts := {}
  socket : Option String := none
  socketMode : Option SocketMode := none
  metricsListen : Option String := none
  deriving DecidableEq

structure ConnectionConfig where
  index : Nat
  addr : BDAddr
  interval : Interval
  deriving DecidableEq

namespace Settings

/-- Overlay `self` on `fallback`: any field set here wins. -/
def or (self fallback : Settings) : Settings :=
  { connect := self.connect.or fallback.connect,
    socket := self.socket.or fallback.socket,
    socketMode := self.socketMode.or fallback.socketMode,
    metricsListen := self.metricsListen.or fallback.metricsListen }

def adapterIndex (self : Settings) : Nat := self.connect.index.getD defaultIndex

/-- Resolve the connection parameters; fails when no address is available. -/
def connectionConfig (self : Settings) : Except String ConnectionConfig :=
  match self.connect.addr with
  | none => .error "no device address given; pass --addr or set it in the config file"
  | some addr =>
    .ok { index := self.adapterIndex, addr, interval := self.connect.interval.getD defaultInterval }

end Settings

/-- The `[devices.NAME]` sections in the order of their names, each once. -/
structure DeviceMap where
  entries : List (String × Settings)
  sorted : (entries.map Prod.fst).Pairwise (· < ·)

namespace DeviceMap

def get (devices : DeviceMap) (name : String) : Option Settings := devices.entries.lookup name

def keys (devices : DeviceMap) : List String := devices.entries.map Prod.fst

def isEmpty (devices : DeviceMap) : Bool := devices.entries.isEmpty

end DeviceMap

structure FileConfig where
  defaults : Settings
  devices : DeviceMap
  defaultDevice : Option String
  path : String

namespace FileConfig

variable (file : FileConfig)

def deviceNames : String :=
  if file.devices.isEmpty then "the file defines no [devices.*] sections"
  else "known devices: " ++ String.intercalate ", " file.devices.keys

/-- The profile to use, inheriting the top-level keys: the named one, else the
default one, else the top-level keys alone. -/
def profile [Unicode] (name : Option String) : Except String Settings :=
  match name.or file.defaultDevice with
  | none => .ok file.defaults
  | some name =>
    match file.devices.get name with
    | none => .error s!"unknown device {debugString name} in {file.path}; {file.deviceNames}"
    | some device => .ok (device.or file.defaults)

end FileConfig

/-! ## The command line -/

inductive AgentAction where
  | start (metricsListen : Option String)
  | stop
  | status
  deriving DecidableEq, Repr

/-- `btwattch2 agent ...`, the only subcommand. -/
inductive Command where
  | agent (action : AgentAction)
  deriving DecidableEq, Repr

inductive ScanMode where
  | wattCheckers
  | everything
  deriving DecidableEq, Repr

/-- What the invocation asks the tool to do, the scans aside. -/
inductive Mode where
  | setRtc (time : DateTime)
  | getRtc
  | power (on : Bool)
  | testLed
  | metric (name : String)
  | monitor
  deriving DecidableEq, Repr

/-- Namespace for rendered metrics. -/
def Mode.metricPrefix : Mode → String
  | .metric name => name
  | _ => "btwattch2"

/-- A command line. -/
structure Cli where
  connect : ConnectOpts := {}
  device : Option String := none
  socket : Option String := none
  on : Bool := false
  off : Bool := false
  setRtc : Option DateTime := none
  setRtcNow : Bool := false
  testLed : Bool := false
  metricName : Option String := none
  scan : Bool := false
  scanAll : Bool := false
  getRtc : Bool := false
  format : Option OutputFormat := none
  count : Option Nat := none
  duration : Option Nat := none
  command : Option Command := none

/-- Where the agent listens. -/
structure AgentPaths where
  socket : String
  deriving DecidableEq, Repr

/-- `PathBuf::join` with a single file name. -/
def joinPath (dir name : String) : String :=
  if dir = "" ∨ dir.toList.getLast? = some '/' then dir ++ name else dir ++ "/" ++ name

/-- The default socket, given `$XDG_RUNTIME_DIR`. -/
def defaultPaths (runtimeDir : Option String) : AgentPaths :=
  ⟨joinPath (runtimeDir.getD "/run/btwattch2") "btwattch2.sock"⟩

namespace Cli

variable (cli : Cli)

def scanMode : Option ScanMode :=
  match cli.scan, cli.scanAll with
  | true, _ => some .wattCheckers
  | _, true => some .everything
  | _, _ => none

/-- The address named on the command line. Only an explicit one means "this
device and no other". -/
def explicitAddr : Option BDAddr := cli.connect.addr

/-- What the flags ask for, at the time `now`. -/
def mode (now : DateTime) : Mode :=
  if cli.getRtc then .getRtc
  else if cli.setRtcNow then .setRtc now
  else match cli.setRtc with
    | some time => .setRtc time
    | none =>
      if cli.on then .power true
      else if cli.off then .power false
      else if cli.testLed then .testLed
      else match cli.metricName with
        | some name => .metric name
        | none => .monitor

/-- How many samples a streaming run takes: one in metric mode, unless told
otherwise. -/
def sampleCount (mode : Mode) : Option Nat :=
  match mode, cli.count, cli.duration with
  | .metric _, none, none => some 1
  | _, count, _ => count

def outputFormat : OutputFormat :=
  cli.format.getD (if cli.metricName.isSome then .mackerel else .plain)

def validatePrefix [Unicode] (mode : Mode) : Except String Unit :=
  cli.outputFormat.validatePrefix mode.metricPrefix

/-- The metrics endpoint asked for on the command line. -/
def metricsListenFlag : Option String :=
  match cli.command with
  | some (.agent (.start metricsListen)) => metricsListen
  | _ => none

/-- What the invocation runs with, given what the config file says if there is one. -/
def settings [Unicode] (file : Option FileConfig) : Except String Settings :=
  let profile := match file, cli.device with
    | some file, device => file.profile device
    | none, none => .ok {}
    | none, some device =>
      .error (s!"--device {device} needs a config file defining [devices.{device}], " ++
        "and none was found")
  match profile with
  | .error e => .error e
  | .ok profile =>
    .ok (Settings.or { connect := cli.connect, socket := cli.socket, socketMode := none,
                       metricsListen := cli.metricsListenFlag } profile)

/-- Where the agent of this device listens. The pid file, which `--pid-file` moves,
is the agent's own. -/
def agentPaths (runtimeDir : Option String) (settings : Settings) : AgentPaths :=
  match settings.socket with
  | some socket => ⟨socket⟩
  | none => defaultPaths runtimeDir

end Cli

example [Unicode] : debugString "a\tb" = "\"a\\tb\"" := rfl

example : displayAddr 0xCBDF6B123456#48 = "CB:DF:6B:12:34:56" := by decide +kernel

end Btwattch2
