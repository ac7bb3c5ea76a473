/-
Btwattch2.Direct — the link used without an agent (`Connection::oneshot`,
`Connection::subscribe` and `subscribe_measure` of `connection.rs`).

`subscribe` waits for whatever comes first, so it goes from one event to the
next like the actor does, and `Subscription.step` is one turn of its loop.
`oneshot` waits for one thing after the other and is a single computation. Each
has a subscription and an assembler of its own.
-/
import Btwattch2.Assembler
import Btwattch2.Connection

namespace Btwattch2

open Lib

/-- A link with the subscription taken out on it, the assembler it is read
through, and what the callback of the caller has captured. -/
structure Direct (κ : Type) where
  conn : Connection
  /-- Nothing before the first `listen`. -/
  notifications : Option Notifications
  assembler : FrameAssembler
  captured : κ

abbrev DirectM (κ : Type) := Await Answer Obs (Direct κ)

/-- What the await on `notifications.next()` is answered. -/
def Answer.asEvent : Answer → Option (Option ValueNotification)
  | .next event => some event
  | _ => none

def Answer.isTimeout : Answer → Bool
  | .timeout => true
  | _ => false

namespace Direct

variable {κ : Type}

/-- Connected, and nothing subscribed. -/
def new (conn : Connection) (captured : κ) : Direct κ :=
  { conn, notifications := none, assembler := .new, captured }

def onLink {α : Type} (x : Await Answer Obs Connection α) : DirectM κ α :=
  Await.zoom Direct.conn (fun conn d => { d with conn }) x

/-! ## The subscription -/

/-- Assign `notifications`. The assembler is left as it is. -/
def assign (n : Notifications) : DirectM κ Unit := do
  let d ← Await.get
  match d.notifications with
  | some _ => Await.observe (.closed d.assembler.buf)
  | none => pure ()
  Await.modify fun d => { d with notifications := some n }
  Await.observe .opened

/-- Assign the subscription a link operation yields. -/
def adopt (x : Await Answer Obs Connection (Except String Notifications)) :
    DirectM κ (Except String Unit) := do
  match ← onLink x with
  | .error e => pure (.error e)
  | .ok n =>
    assign n
    pure (.ok ())

/-- `notifications = self.listen().await?` -/
def listen : DirectM κ (Except String Unit) := adopt Connection.listen

/-- `notifications = self.reconnect_stream().await?` -/
def reconnectStream : DirectM κ (Except String Unit) := adopt Connection.reconnectStream

/-- `if self.write(&payload).await? { notifications = self.listen().await?; }` -/
def write (payload : List UInt8) : DirectM κ (Except String Unit) := do
  match ← onLink (Connection.write payload) with
  | .error e => pure (.error e)
  | .ok true => listen
  | .ok false => pure (.ok ())

def clear : DirectM κ Unit := Await.modify fun d => { d with assembler := d.assembler.clear }

/-! ## One-shot commands -/

/-- Take the frames out of the assembler one after the other. -/
def takeAll (taker : Taker) : List (List UInt8) → DirectM κ Unit
  | [] => pure ()
  | frame :: frames => do
    Await.observe (.took frame taker)
    takeAll taker frames

/-- One turn of `next_matching_frame`: `some none` when the stream has ended. A
frame of the wrong kind has no owner here, and goes nowhere. -/
def nextMatchingTurn (kind : FrameKind) : DirectM κ (Option (Option (List UInt8))) := do
  Await.observe (.awaiting kind)
  match ← Await.await Answer.asEvent with
  | none => pure (some none)
  | some event =>
    if event.uuid ≠ cRx then pure none
    else
      Await.observe (.rx event.value)
      let d ← Await.get
      let r := (d.assembler.feed event.value).pull kind.matches
      Await.modify fun d => { d with assembler := r.2.2 }
      takeAll .forwarded r.1
      match r.2.1 with
      | some frame =>
        Await.observe (.took frame (.reply kind))
        pure (some (some frame))
      | none => pure none

def nextMatchingFrame (kind : FrameKind) : DirectM κ (Option (List UInt8)) :=
  Await.loop (nextMatchingTurn kind)

/-- One turn of the loop in `oneshot`: a frame, or the link dropped before the
reply arrived, taking the command with it, and it is sent again. -/
def waitTurn (payload : List UInt8) (kind : FrameKind) :
    DirectM κ (Option (Except String (List UInt8))) := do
  match ← nextMatchingFrame kind with
  | some frame => pure (some (.ok frame))
  | none =>
    match ← reconnectStream with
    | .error e => pure (some (.error e))
    | .ok () =>
      match ← write payload with
      | .error e => pure (some (.error e))
      | .ok () =>
        clear
        pure none

def wait (payload : List UInt8) (kind : FrameKind) : DirectM κ (Except String (List UInt8)) := do
  Await.modify fun d => { d with assembler := .new }
  Await.loop (waitTurn payload kind)

/-- Send a command and wait for its reply, for `COMMAND_TIMEOUT` at most. -/
def oneshot (payload : List UInt8) (kind : FrameKind) :
    DirectM κ (Except String (List UInt8)) := do
  match ← listen with
  | .error e => pure (.error e)
  | .ok () =>
    match ← write payload with
    | .error e => pure (.error e)
    | .ok () =>
      match ← Await.timeout Answer.isTimeout (wait payload kind) with
      | none => pure (.error "command timed out")
      | some result => pure result

/-! ## Subscriptions -/

/-- What wakes the loop of `subscribe`. -/
inductive Event where
  | tick
  | notification (event : Option ValueNotification)
  deriving DecidableEq, Repr

section

variable (payload : List UInt8) (onFrame : List UInt8 → κ → Bool × κ)

/-- Hand the frames to `on_frame` one after the other: whether it broke. -/
def offer : List (List UInt8) → DirectM κ Bool
  | [] => pure false
  | frame :: frames => do
    Await.observe (.took frame .notification)
    let d ← Await.get
    let r := onFrame frame d.captured
    Await.modify fun d => { d with captured := r.2 }
    if r.1 then pure true else offer frames

/-- The loop is reached when the first `listen` succeeds. -/
def opening : DirectM κ (Option (Except String Unit)) := do
  match ← listen with
  | .error e => pure (some (.error e))
  | .ok () => pure none

/-- Act on an event: what `subscribe` returns, if it does. -/
def handleEvent (event : Event) : DirectM κ (Option (Except String Unit)) := do
  match event with
  | .tick =>
    match ← write payload with
    | .error e => pure (some (.error e))
    | .ok () => pure none
  | .notification none =>
    match ← reconnectStream with
    | .error e => pure (some (.error e))
    | .ok () =>
      clear
      pure none
  | .notification (some event) =>
    if event.uuid ≠ cRx then pure none
    else
      Await.observe (.rx event.value)
      let d ← Await.get
      -- frames behind a break are never looked at: the assembler goes with the loop
      let r := (d.assembler.feed event.value).drain
      Await.modify fun d => { d with assembler := r.2 }
      if ← offer onFrame r.1 then pure (some (.ok ())) else pure none

end

/-- Where `subscribe` stands. -/
inductive Progress where
  | running
  | returned (result : Except String Unit)
  /-- Dropped by its caller at an await: the duration is over, or Ctrl-C came. -/
  | dropped
  deriving DecidableEq

/-- The loop of `subscribe` between two events, and what has happened so far. -/
structure Subscription (κ : Type) where
  direct : Direct κ
  log : List Obs
  progress : Progress

namespace Subscription

/-- Where the loop stands after a part of it that was answered in kind. -/
def after : Option (Option (Except String Unit)) × Stage Answer Obs (Direct κ) →
    Option (Subscription κ)
  | (some none, ⟨[], log, d⟩) => some ⟨d, log, .running⟩
  | (some (some result), ⟨[], log, d⟩) => some ⟨d, log, .returned result⟩
  | (none, ⟨[], log, d⟩) => some ⟨d, log, .dropped⟩
  | _ => none

/-- `subscribe` up to its loop. -/
def start (conn : Connection) (captured : κ) (tape : List Answer) : Option (Subscription κ) :=
  after (opening ⟨tape, [], .new conn captured⟩)

/-- One event, with the answers its handler's awaits are given. -/
def step (payload : List UInt8) (onFrame : List UInt8 → κ → Bool × κ) (s : Subscription κ) :
    Event × List Answer → Option (Subscription κ)
  | (event, tape) =>
    if s.progress = .running then
      after (handleEvent payload onFrame event ⟨tape, s.log, s.direct⟩)
    else none

end Subscription

/-- The callback of `subscribe_measure`: a frame that is no measurement is
skipped. -/
def onMeasurement (chrono : Chrono) (onMeasure : Measurement → κ → Bool × κ) (frame : List UInt8)
    (captured : κ) : Bool × κ :=
  match tryMeasurement chrono frame with
  | some m => onMeasure m captured
  | none => (false, captured)

/-- One event of `subscribe_measure`. -/
def Subscription.stepMeasure (chrono : Chrono) (onMeasure : Measurement → κ → Bool × κ) :
    Subscription κ → Event × List Answer → Option (Subscription κ) :=
  step monitoring (onMeasurement chrono onMeasure)

end Direct

end Btwattch2
