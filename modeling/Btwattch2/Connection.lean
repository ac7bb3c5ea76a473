/-
Btwattch2.Connection — the link to the device (`Connection` of `connection.rs`).

The Bluetooth stack answers every await: an attempt to connect, a write, a
subscription, the next notification. What happens is logged as it happens, in
`Obs`, which also has the observations of the actor that owns the link.

A connection is known by how many times `connect` has succeeded on it, and a
notification stream by that number at the time of its `listen`: a stream belongs
to the present link when the two agree.
-/
import Btwattch2.Lib.Await
import Btwattch2.Clients

namespace Btwattch2

open Lib

/-! ## Characteristics and notifications -/

abbrev Uuid := BitVec 128

/-- The characteristic the device is written on. -/
def cTx : Uuid := 0x6e400002b5a3f393e0a9e50e24dcca9e#128

/-- The characteristic the device notifies on. -/
def cRx : Uuid := 0x6e400003b5a3f393e0a9e50e24dcca9e#128

/-- Lower-case hexadecimal in groups of 8, 4, 4, 4 and 12 digits. -/
def displayUuid (uuid : Uuid) : String :=
  let digits := (List.range 32).map fun i => Nat.digitChar (uuid.toNat / 16 ^ (31 - i) % 16)
  String.intercalate "-" ([(0, 8), (8, 4), (12, 4), (16, 4), (20, 12)].map fun (start, len) =>
    String.ofList ((digits.drop start).take len))

structure ValueNotification where
  uuid : Uuid
  value : List UInt8
  deriving DecidableEq, Repr

/-- A notification stream, by the link it was subscribed on. -/
structure Notifications where
  link : Nat
  deriving DecidableEq, Repr

/-- The link, by how many times `connect` has succeeded. -/
structure Connection where
  connects : Nat
  deriving DecidableEq, Repr

/-! ## Answers and observations -/

/-- What an await is answered. -/
inductive Answer where
  /-- Before an await returns: what the clients did to their queues, and the time
  that passed. -/
  | meanwhile (acts : List (ClientId × ClientAct)) (elapsed : Nat)
  /-- One attempt to connect and discover services: the characteristics found. -/
  | attempt (result : Except String (List Uuid))
  | deviceWrite (result : Except String Unit)
  | subscribe (result : Except String Unit)
  | next (event : Option ValueNotification)
  | timeout

/-- Who takes a frame out of the shared assembler. -/
inductive Taker where
  | notification
  /-- The forwarding closure of `wait_for_frame`. -/
  | forwarded
  /-- The one-shot request that waits for this kind of frame. -/
  | reply (kind : FrameKind)
  deriving DecidableEq, Repr

/-- What happens in a run, in the order it happens. -/
inductive Obs where
  /-- One attempt of a write. -/
  | deviceWrite (payload : List UInt8) (ok : Bool)
  /-- `connect` succeeded. -/
  | connected
  | listen (ok : Bool)
  /-- `write` returned, having re-established the link on the way or not. -/
  | write (ok reconnected : Bool)
  | reconnectStream (ok : Bool)
  | meanwhile (acts : List (ClientId × ClientAct))
  /-- A subscription is in place. -/
  | opened
  /-- It was replaced or dropped, with this in the assembler's buffer. -/
  | closed (buf : List UInt8)
  /-- A value of `C_RX` reached the assembler. -/
  | rx (value : List UInt8)
  | took (frame : List UInt8) (taker : Taker)
  | clients (op : ClientOp)
  | request (tx : ClientId) (request : Request)
  | awaiting (kind : FrameKind)
  | reply (tx : ClientId) (response : Response)
  deriving DecidableEq, Repr

/-- A link operation that returned, and whether it succeeded. -/
def Obs.linkOp : Obs → Option Bool
  | .listen ok => some ok
  | .write ok _ => some ok
  | .reconnectStream ok => some ok
  | _ => none

def Answer.asAttempt : Answer → Option (Except String (List Uuid))
  | .attempt result => some result
  | _ => none

def Answer.asDeviceWrite : Answer → Option (Except String Unit)
  | .deviceWrite result => some result
  | _ => none

def Answer.asSubscribe : Answer → Option (Except String Unit)
  | .subscribe result => some result
  | _ => none

/-! ## Operations -/

namespace Connection

def connectRetries : Nat := 5

def writeRetries : Nat := 5

/-- The attempts of `establish`, with `left` to go after this one. -/
def establishLoop (left : Nat) : Await Answer Obs Connection (Except String (List Uuid)) := do
  match ← Await.await Answer.asAttempt with
  | .ok chars => pure (.ok chars)
  | .error _ =>
    match left with
    | left + 1 => establishLoop left
    | 0 => pure (.error s!"connect failed after {connectRetries} attempts")

def establish : Await Answer Obs Connection (Except String Unit) := do
  match ← establishLoop (connectRetries - 1) with
  | .error e => pure (.error e)
  | .ok chars =>
    if cTx ∉ chars then pure (.error s!"characteristic {displayUuid cTx} not found")
    else if cRx ∉ chars then pure (.error s!"characteristic {displayUuid cRx} not found")
    else pure (.ok ())

def connect : Await Answer Obs Connection (Except String Unit) := do
  match ← establish with
  | .error e => pure (.error e)
  | .ok () =>
    Await.modify fun conn => { conn with connects := conn.connects + 1 }
    Await.observe .connected
    pure (.ok ())

def listen : Await Answer Obs Connection (Except String Notifications) := do
  match ← Await.await Answer.asSubscribe with
  | .error e =>
    Await.observe (.listen false)
    pure (.error e)
  | .ok () =>
    Await.observe (.listen true)
    let conn ← Await.get
    pure (.ok ⟨conn.connects⟩)

/-- The RX notification stream ended: re-establish the link and return a fresh
subscription. -/
def reconnectStream : Await Answer Obs Connection (Except String Notifications) := do
  match ← connect with
  | .error e =>
    Await.observe (.reconnectStream false)
    pure (.error e)
  | .ok () =>
    match ← listen with
    | .error e =>
      Await.observe (.reconnectStream false)
      pure (.error e)
    | .ok n =>
      Await.observe (.reconnectStream true)
      pure (.ok n)

/-- The attempts of `write`, with `left` to go after this one. -/
def writeLoop (payload : List UInt8) (reconnected : Bool) (left : Nat) :
    Await Answer Obs Connection (Except String Bool) := do
  match ← Await.await Answer.asDeviceWrite with
  | .ok () =>
    Await.observe (.deviceWrite payload true)
    Await.observe (.write true reconnected)
    pure (.ok reconnected)
  | .error _ =>
    Await.observe (.deviceWrite payload false)
    match left with
    | left + 1 =>
      match ← connect with
      | .ok () => writeLoop payload true left
      | .error _ => writeLoop payload reconnected left
    | 0 =>
      Await.observe (.write false reconnected)
      pure (.error s!"write failed after {writeRetries} attempts")

/-- Write `payload`, reconnecting on failure: whether the link was re-established
along the way. -/
def write (payload : List UInt8) : Await Answer Obs Connection (Except String Bool) :=
  writeLoop payload false (writeRetries - 1)

end Connection

example : displayUuid cRx = "6e400003-b5a3-f393-e0a9-e50e24dcca9e" := by decide +kernel

end Btwattch2
