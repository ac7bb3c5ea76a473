/-
Btwattch2.Bluetooth — the link, call by call (`while_scanning` and `Connection` of
`connection.rs`).

In `Connection` an attempt to connect is one answer, and so is a subscription.
Here every call of the Bluetooth stack is awaited on its own: what it is answered
is on the tape, and the call is logged when its answer is there. A peripheral is
known by its address, an adapter by its number in the manager's list.
-/
import Btwattch2.Lib.Calls
import Btwattch2.Connection
import Btwattch2.Scan
import Btwattch2.Text

namespace Btwattch2

open Lib

namespace Bluetooth

/-! ## Calls -/

/-- A characteristic, and whether its properties include `WRITE`. -/
structure Characteristic where
  uuid : Uuid
  write : Bool
  deriving DecidableEq, Repr

inductive WriteType where
  | withResponse
  | withoutResponse
  deriving DecidableEq, Repr

/-- What a call is answered. -/
inductive Answer where
  /-- Of a call that returns nothing but how it went. -/
  | done (result : Except String Unit)
  | adapters (result : Except String (List Nat))
  | adapterInfo (result : Except String String)
  | peripherals (result : Except String (List BDAddr))
  | properties (result : Except String (Option PeripheralProperties))
  | isConnected (result : Except String Bool)
  | characteristics (found : List Characteristic)
  /-- A reading of the clock, in nanoseconds. -/
  | now (nanos : Nat)

/-- A call that was answered. -/
inductive Call where
  | manager (result : Except String Unit)
  | adapters (result : Except String (List Nat))
  | adapterInfo (adapter : Nat) (result : Except String String)
  | startScan (result : Except String Unit)
  | stopScan (result : Except String Unit)
  | peripherals (result : Except String (List BDAddr))
  | properties (device : BDAddr) (result : Except String (Option PeripheralProperties))
  | connect (result : Except String Unit)
  | discoverServices (result : Except String Unit)
  | isConnected (result : Except String Bool)
  | disconnect (result : Except String Unit)
  | characteristics (found : List Characteristic)
  | subscribe (characteristic : Characteristic) (result : Except String Unit)
  | notifications (result : Except String Unit)
  | write (characteristic : Characteristic) (payload : List UInt8) (kind : WriteType)
      (result : Except String Unit)
  | now (nanos : Nat)
  | sleep (nanos : Nat)
  deriving DecidableEq

def Answer.asDone : Answer → Option (Except String Unit)
  | .done result => some result
  | _ => none

def Answer.asAdapters : Answer → Option (Except String (List Nat))
  | .adapters result => some result
  | _ => none

def Answer.asAdapterInfo : Answer → Option (Except String String)
  | .adapterInfo result => some result
  | _ => none

def Answer.asPeripherals : Answer → Option (Except String (List BDAddr))
  | .peripherals result => some result
  | _ => none

def Answer.asProperties : Answer → Option (Except String (Option PeripheralProperties))
  | .properties result => some result
  | _ => none

def Answer.asIsConnected : Answer → Option (Except String Bool)
  | .isConnected result => some result
  | _ => none

def Answer.asCharacteristics : Answer → Option (List Characteristic)
  | .characteristics found => some found
  | _ => none

def Answer.asNow : Answer → Option Nat
  | .now nanos => some nanos
  | _ => none

/-- A computation that calls the Bluetooth stack. -/
abbrev Stack (σ α : Type) := Await Answer Call σ α

/-! ## Scanning -/

def scanTimeout : Nat := 30 * 10 ^ 9

def scanPollInterval : Nat := 500 * 10 ^ 6

/-- Waking up needs no answer but that it happened. -/
def sleep {σ : Type} (nanos : Nat) : Stack σ Unit := do
  let _ ← Await.call Answer.asDone fun _ => .sleep nanos
  pure ()

/-- Run `body` with the adapter scanning, stopping the scan however it ends. -/
def whileScanning {σ α : Type} (body : Stack σ (Except String α)) : Stack σ (Except String α) := do
  match ← Await.call Answer.asDone .startScan with
  | .error _ => pure (.error "failed to start scanning (is Bluetooth powered on?)")
  | .ok () =>
    let result ← body
    let _ ← Await.call Answer.asDone .stopScan
    pure result

/-- The adapters that are left to look at. -/
def findAmong {σ : Type} (name : String) : List Nat → Stack σ (Except String Nat)
  | [] => pure (.error s!"adapter {name} not found")
  | adapter :: rest => do
    match ← Await.call Answer.asAdapterInfo (.adapterInfo adapter) with
    | .ok info =>
      if info = name ∨ (Text.stripPrefix s!"{name} " info).isSome then pure (.ok adapter)
      else findAmong name rest
    | .error _ => findAmong name rest

def findAdapter {σ : Type} (name : String) : Stack σ (Except String Nat) := do
  match ← Await.call Answer.asAdapters .adapters with
  | .error e => pure (.error e)
  | .ok adapters => findAmong name adapters

def lookup {σ : Type} (addr : BDAddr) : Stack σ (Except String (Option BDAddr)) := do
  match ← Await.call Answer.asPeripherals .peripherals with
  | .error e => pure (.error e)
  | .ok devices => pure (.ok (devices.find? fun device => device = addr))

/-- One look at the device list; the deadline ends the wait only after it. -/
def awaitDeviceBody {σ : Type} (addr : BDAddr) (deadline : Nat) :
    Stack σ (Option (Except String BDAddr)) := do
  match ← lookup addr with
  | .error e => pure (some (.error e))
  | .ok (some device) => pure (some (.ok device))
  | .ok none =>
    let now ← Await.call Answer.asNow .now
    if deadline ≤ now then pure (some (.error s!"device {displayAddr addr} not found"))
    else
      sleep scanPollInterval
      pure none

/-- Wait for `addr` to turn up in the adapter's device list. -/
def awaitDevice {σ : Type} (addr : BDAddr) : Stack σ (Except String BDAddr) := do
  let now ← Await.call Answer.asNow .now
  Await.loop (awaitDeviceBody addr (now + scanTimeout))

def findDevice {σ : Type} (addr : BDAddr) : Stack σ (Except String BDAddr) := do
  match ← lookup addr with
  | .error e => pure (.error e)
  | .ok (some device) => pure (.ok device)
  | .ok none => whileScanning (awaitDevice addr)

/-- One round over the devices listed: each is asked for its properties, unless it
has said its name. -/
def pollRound {σ : Type} (found : Found) : List BDAddr → Stack σ (Except String Found)
  | [] => pure (.ok found)
  | addr :: rest =>
    if (found.lookup addr).any hasName then pollRound found rest
    else do
      match ← Await.call Answer.asProperties (.properties addr) with
      | .error e => pure (.error e)
      | .ok none => pollRound found rest
      | .ok (some props) =>
        pollRound (found.insert addr
          (mergeProperties ((found.lookup addr).getD (none, none)) props)) rest

def pollDevicesBody (deadline : Nat) : Stack Found (Option (Except String Found)) := do
  match ← Await.call Answer.asPeripherals .peripherals with
  | .error e => pure (some (.error e))
  | .ok devices =>
    let found ← Await.get
    match ← pollRound found devices with
    | .error e => pure (some (.error e))
    | .ok found =>
      Await.modify fun _ => found
      let now ← Await.call Answer.asNow .now
      if deadline ≤ now then pure (some (.ok found))
      else
        sleep scanPollInterval
        pure none

/-- Re-read the adapter's device list until `duration` elapses, merging what each
round reports. -/
def pollDevices {σ : Type} (duration : Nat) : Stack σ (Except String Found) := do
  let now ← Await.call Answer.asNow .now
  let (found, _) ← Await.withState ∅ (Await.loop (pollDevicesBody (now + duration)))
  pure found

def scan {σ : Type} (index duration : Nat) : Stack σ (Except String (List ScannedDevice)) := do
  match ← Await.call Answer.asDone .manager with
  | .error e => pure (.error e)
  | .ok () =>
    match ← findAdapter s!"hci{index}" with
    | .error e => pure (.error e)
    | .ok _ =>
      match ← whileScanning (pollDevices duration) with
      | .error e => pure (.error e)
      | .ok found => pure (.ok (found.entries.filterMap fun entry =>
          entry.2.2.map fun rssi => { addr := entry.1, name := entry.2.1, rssi }))

/-! ## The link -/

/-- Disconnect only if a link is actually established. -/
def dropConnection {σ : Type} : Stack σ Unit := do
  match ← Await.call Answer.asIsConnected .isConnected with
  | .ok true =>
    let _ ← Await.call Answer.asDone .disconnect
    pure ()
  | _ => pure ()

/-- One attempt: connect, then discover the services. -/
def attempt {σ : Type} : Stack σ (Except String Unit) := do
  match ← Await.call Answer.asDone .connect with
  | .error e => pure (.error e)
  | .ok () => Await.call Answer.asDone .discoverServices

/-- The attempts of `establish`, with `left` to go after this one. -/
def establishLoop {σ : Type} (left : Nat) : Stack σ (Except String Unit) := do
  match ← attempt with
  | .ok () => pure (.ok ())
  | .error _ =>
    dropConnection
    match left with
    | left + 1 =>
      sleep nanosPerSec
      establishLoop left
    | 0 => pure (.error s!"connect failed after {Connection.connectRetries} attempts")

/-- The characteristics a link is written on and notifies on, in what was found. -/
def chooseCharacteristics (found : List Characteristic) :
    Except String (Characteristic × Characteristic) :=
  match found.find? (·.uuid = cTx) with
  | none => .error s!"characteristic {displayUuid cTx} not found"
  | some tx =>
    match found.find? (·.uuid = cRx) with
    | none => .error s!"characteristic {displayUuid cRx} not found"
    | some rx => .ok (tx, rx)

def establish {σ : Type} : Stack σ (Except String (Characteristic × Characteristic)) := do
  match ← establishLoop (Connection.connectRetries - 1) with
  | .error e => pure (.error e)
  | .ok () =>
    let found ← Await.call Answer.asCharacteristics .characteristics
    pure (chooseCharacteristics found)

/-- `Connection`, by what it is made of. -/
structure Link where
  name : String
  addr : BDAddr
  interval : Interval
  device : BDAddr
  tx : Characteristic
  rx : Characteristic

def new {σ : Type} (opts : ConnectionConfig) : Stack σ (Except String Link) := do
  match ← Await.call Answer.asDone .manager with
  | .error e => pure (.error e)
  | .ok () =>
    let name := s!"hci{opts.index}"
    match ← findAdapter name with
    | .error e => pure (.error e)
    | .ok _ =>
      match ← findDevice opts.addr with
      | .error e => pure (.error e)
      | .ok device =>
        match ← establish with
        | .error e => pure (.error e)
        | .ok (tx, rx) =>
          pure (.ok { name, addr := opts.addr, interval := opts.interval, device, tx, rx })

def connect : Stack Link (Except String Unit) := do
  match ← establish with
  | .error e => pure (.error e)
  | .ok (tx, rx) =>
    Await.modify fun link => { link with tx, rx }
    pure (.ok ())

def listen : Stack Link (Except String Unit) := do
  let link ← Await.get
  match ← Await.call Answer.asDone (.subscribe link.rx) with
  | .error e => pure (.error e)
  | .ok () => Await.call Answer.asDone .notifications

def reconnectStream : Stack Link (Except String Unit) := do
  match ← connect with
  | .error e => pure (.error e)
  | .ok () => listen

def writeType (tx : Characteristic) : WriteType :=
  if tx.write then .withResponse else .withoutResponse

/-- The attempts of `write`, with `left` to go after this one. -/
def writeLoop (payload : List UInt8) (reconnected : Bool) (left : Nat) :
    Stack Link (Except String Bool) := do
  let link ← Await.get
  match ← Await.call Answer.asDone (.write link.tx payload (writeType link.tx)) with
  | .ok () => pure (.ok reconnected)
  | .error _ =>
    match left with
    | left + 1 =>
      match ← connect with
      | .ok () => writeLoop payload true left
      | .error _ =>
        sleep nanosPerSec
        writeLoop payload reconnected left
    | 0 => pure (.error s!"write failed after {Connection.writeRetries} attempts")

def write (payload : List UInt8) : Stack Link (Except String Bool) :=
  writeLoop payload false (Connection.writeRetries - 1)

def disconnect : Stack Link Unit := dropConnection

/-! ## A session -/

/-- What the callers of a `Connection` do with it. -/
inductive Operation where
  | write (payload : List UInt8)
  | listen
  | reconnectStream
  deriving DecidableEq, Repr

def Operation.perform : Operation → Stack Link Unit
  | write payload => do
    let _ ← Bluetooth.write payload
    pure ()
  | listen => do
    let _ ← Bluetooth.listen
    pure ()
  | reconnectStream => do
    let _ ← Bluetooth.reconnectStream
    pure ()

def performAll : List Operation → Stack Link Unit
  | [] => pure ()
  | op :: rest => do
    op.perform
    performAll rest

/-- A connection is set up, used in any way, and disconnected. -/
def session {σ : Type} (opts : ConnectionConfig) (ops : List Operation) : Stack σ Unit := do
  match ← new opts with
  | .error _ => pure ()
  | .ok link =>
    let _ ← Await.withState link do
      performAll ops
      disconnect
    pure ()

end Bluetooth

end Btwattch2
