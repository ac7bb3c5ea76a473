/-
Btwattch2.Wire — the messages as lines of JSON (`agent/protocol.rs`), and the lines the
two ends read (`handle_client` of `agent/server.rs`, `execute` of `agent/client.rs`).

An enumeration is an object with a member that names the variant, a struct the object of
its fields. A reader looks the fields up by name, whatever their order, refuses a field
that is there twice and passes over names it does not know; the fields of an array are
taken in order. How floats are written and read is the library's (`FloatCodec`).
-/
import Btwattch2.Lib.Json
import Btwattch2.Lib.Lines
import Btwattch2.Client
import Btwattch2.Server
import Btwattch2.Text

namespace Btwattch2

open Lib

/-- The values on the wire. -/
abbrev WireValue := Json ℚ

namespace Wire

/-! ## Writing -/

def ofOption {α : Type} (encode : α → WireValue) : Option α → WireValue
  | none => .null
  | some a => encode a

/-- An enumeration: its tag first, then the fields of the variant. -/
def tagged (tag variant : String) (fields : List (String × WireValue)) : WireValue :=
  .obj ((tag, .str variant) :: fields)

def encodeRequest : Request → WireValue
  | .setRtc time => tagged "cmd" "set_rtc" [("time", .str time)]
  | .getRtc => tagged "cmd" "get_rtc" []
  | .power on => tagged "cmd" "power" [("on", .bool on)]
  | .testLed => tagged "cmd" "test_led" []
  | .subscribe => tagged "cmd" "subscribe" []
  | .ping => tagged "cmd" "ping" []
  | .shutdown => tagged "cmd" "shutdown" []

def statusFields (s : AgentStatus) : List (String × WireValue) :=
  [("uptime_seconds", .int s.uptimeSeconds),
    ("interval_seconds", .float s.intervalSeconds),
    ("connected", .bool s.connected),
    ("samples", .int s.samples),
    ("last_sample_age_seconds", ofOption .float s.lastSampleAgeSeconds),
    ("reconnects", .int s.reconnects),
    ("clients", .int s.clients),
    ("metrics_listen", ofOption .str s.metricsListen)]

def encodeStatus (s : AgentStatus) : WireValue := .obj (statusFields s)

def encodeResponse : Response → WireValue
  | .ok => tagged "type" "ok" []
  | .pong addr status => tagged "type" "pong"
    [("addr", ofOption .str addr), ("status", ofOption encodeStatus status)]
  | .error message => tagged "type" "error" [("message", .str message)]
  | .measurement voltage ampere wattage powerFactor timestamp => tagged "type" "measurement"
    [("voltage", .float voltage), ("ampere", .float ampere), ("wattage", .float wattage),
      ("power_factor", .float powerFactor), ("timestamp", .int timestamp)]
  | .commandResult code => tagged "type" "command_result" [("code", .int code.toNat)]
  | .streamEnd => tagged "type" "stream_end" []

/-! ## Reading -/

/-- An integer of the range `low` to `high`. -/
def asInt (low high : Int) : WireValue → Option Int
  | .int n => if low ≤ n ∧ n ≤ high then some n else none
  | _ => none

def asU64 (v : WireValue) : Option Nat := (asInt 0 (2 ^ 64 - 1) v).map Int.toNat

def asI64 : WireValue → Option Int := asInt (-2 ^ 63) (2 ^ 63 - 1)

def asU8 (v : WireValue) : Option UInt8 := (asInt 0 255 v).map fun n => UInt8.ofNat n.toNat

/-- Integers are floats too, rounded to one. -/
def asF64 : WireValue → Option ℚ
  | .float x => some x
  | .int n => some (if n < 0 then -F64.round (-n) else F64.round n)
  | _ => none

def asBool : WireValue → Option Bool
  | .bool b => some b
  | _ => none

def asString : WireValue → Option String
  | .str s => some s
  | _ => none

def asOption {α : Type} (decode : WireValue → Option α) : WireValue → Option (Option α)
  | .null => some none
  | v => (decode v).map some

/-- The fields `names` of a struct, in this order. -/
def readFields (names : List String) : WireValue → Option (List (Option WireValue))
  | .obj members =>
    if ∀ name ∈ names, members.countP (·.1 == name) ≤ 1 then
      some (names.map fun name => members.lookup name)
    else none
  | .arr elems =>
    if elems.length ≤ names.length then
      some (elems.map some ++ List.replicate (names.length - elems.length) none)
    else none
  | _ => none

/-- A field that may be left out. -/
def defaulted {α : Type} (default : α) (decode : WireValue → Option α) :
    Option WireValue → Option α
  | none => some default
  | some v => decode v

/-- The variant an enumeration says it is, and what else it says. -/
def readTag (tag : String) : WireValue → Option (String × WireValue)
  | .obj members =>
    match members.filter (·.1 == tag) with
    | [(_, .str variant)] => some (variant, .obj (members.filter (·.1 != tag)))
    | _ => none
  | .arr (.str variant :: elems) => some (variant, .arr elems)
  | _ => none

/-- A variant without fields passes over all members, but takes no elements. -/
def readUnit : WireValue → Option Unit
  | .obj _ => some ()
  | .arr [] => some ()
  | _ => none

def requestBody (variant : String) (body : WireValue) : Option Request :=
  match variant with
  | "set_rtc" => do
    let [time] ← readFields ["time"] body | none
    return .setRtc (← time.bind asString)
  | "get_rtc" => (readUnit body).map fun _ => .getRtc
  | "power" => do
    let [on] ← readFields ["on"] body | none
    return .power (← on.bind asBool)
  | "test_led" => (readUnit body).map fun _ => .testLed
  | "subscribe" => (readUnit body).map fun _ => .subscribe
  | "ping" => (readUnit body).map fun _ => .ping
  | "shutdown" => (readUnit body).map fun _ => .shutdown
  | _ => none

def decodeRequest (v : WireValue) : Option Request :=
  (readTag "cmd" v).bind fun (variant, body) => requestBody variant body

def statusNames : List String :=
  ["uptime_seconds", "interval_seconds", "connected", "samples", "last_sample_age_seconds",
    "reconnects", "clients", "metrics_listen"]

/-- Every field is defaulted, so a reply of an agent too old to send them is a status
with nothing to say. -/
def decodeStatus (v : WireValue) : Option AgentStatus := do
  let [uptime, interval, connected, samples, age, reconnects, clients, listen] ←
    readFields statusNames v | none
  return {
    uptimeSeconds := ← defaulted 0 asU64 uptime
    intervalSeconds := ← defaulted 0 asF64 interval
    connected := ← defaulted false asBool connected
    samples := ← defaulted 0 asU64 samples
    lastSampleAgeSeconds := ← defaulted none (asOption asF64) age
    reconnects := ← defaulted 0 asU64 reconnects
    clients := ← defaulted 0 asU64 clients
    metricsListen := ← defaulted none (asOption asString) listen }

def responseBody (variant : String) (body : WireValue) : Option Response :=
  match variant with
  | "ok" => (readUnit body).map fun _ => .ok
  | "pong" => do
    let [addr, status] ← readFields ["addr", "status"] body | none
    return .pong (← defaulted none (asOption asString) addr)
      (← defaulted none (asOption decodeStatus) status)
  | "error" => do
    let [message] ← readFields ["message"] body | none
    return .error (← message.bind asString)
  | "measurement" => do
    let [voltage, ampere, wattage, powerFactor, timestamp] ←
      readFields ["voltage", "ampere", "wattage", "power_factor", "timestamp"] body | none
    return .measurement (← voltage.bind asF64) (← ampere.bind asF64) (← wattage.bind asF64)
      (← powerFactor.bind asF64) (← timestamp.bind asI64)
  | "command_result" => do
    let [code] ← readFields ["code"] body | none
    return .commandResult (← code.bind asU8)
  | "stream_end" => (readUnit body).map fun _ => .streamEnd
  | _ => none

def decodeResponse (v : WireValue) : Option Response :=
  (readTag "type" v).bind fun (variant, body) => responseBody variant body

/-! ## Lines -/

section

variable (codec : Json.FloatCodec ℚ)

/-- `write_message`: the message as one line. -/
def messageBytes (v : WireValue) : List UInt8 := utf8 (Json.print codec v) ++ [0x0A]

/-- `serde_json::from_str` of a request, with what the library says of a line it
cannot read. -/
def parseRequest (complaint : String → String) (line : String) : Except String Request :=
  match (Json.parse codec line.toList).bind decodeRequest with
  | some request => .ok request
  | none => .error (complaint line)

/-- A line without what it ends with, `\n` or `\r\n`. -/
def stripEnding (line : List UInt8) : List UInt8 :=
  if line.getLast? = some 0x0A then
    if line.dropLast.getLast? = some 0x0D then line.dropLast.dropLast else line.dropLast
  else line

/-- `Lines::next_line`. -/
def nextLine {ε : Type} (s : Source UInt8 ε) : Option (List UInt8) :=
  match s.readUntil 0x0A with
  | .error _ => none
  | .ok ([], _) => none
  | .ok (line, _) => some (stripEnding line)

/-- What a client makes of a line. -/
def clientLine (bytes : List UInt8) : Line :=
  match lineText bytes with
  | none => .failed "stream did not contain valid UTF-8"
  | some text =>
    match (Json.parse codec (Text.trim text).toList).bind decodeResponse with
    | some response => .response response
    | none => .unparsable

/-- What a client reads, line by line, up to the end. -/
def clientLines (s : Source UInt8 String) : List Line :=
  let (lines, failure) := Source.readLines 0x0A (s.contents.length + 1) s
  lines.map (clientLine codec) ++ [failure.elim .eof .failed]

end

example : decodeRequest (.obj [("on", .bool true), ("cmd", .str "power")]) = some (.power true) := by
  decide +kernel

end Wire

end Btwattch2
