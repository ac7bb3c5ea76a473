/-
Btwattch2.Actor — the actor that owns the link and serves every client
(`Actor` and `actor_loop` of `agent/server.rs`).

The handlers follow the source function by function. Between any two of the
actor's own steps that an await separates, the clients may act on their queues
and time may pass (`meanwhile`); this commutes with what the link does, so it is
placed before each link operation. The ticker is not modelled: a tick may come
whenever the select admits one.
-/
import Btwattch2.Assembler
import Btwattch2.Connection

namespace Btwattch2

open Lib

abbrev StreamError := String

structure ActorCommand where
  request : Request
  tx : ClientId
  deriving DecidableEq, Repr

structure Actor where
  conn : Connection
  notifications : Option Notifications
  assembler : FrameAssembler
  clients : Clients
  monitoringPayload : List UInt8
  /-- Keep polling even with no client attached, for the metrics endpoint. -/
  pollAlways : Bool
  /-- The monotonic clock. -/
  now : Nat

abbrev ActorM := Await Answer Obs Actor

/-- How a wait for a reply ends. -/
inductive Waited where
  | frame (frame : List UInt8)
  /-- The stream ended. -/
  | closed
  /-- `COMMAND_TIMEOUT` passed. -/
  | elapsed
  deriving DecidableEq, Repr

def Answer.asMeanwhile : Answer → Option (List (ClientId × ClientAct) × Nat)
  | .meanwhile acts elapsed => some (acts, elapsed)
  | _ => none

/-- What the await on `notifications.next()` under the timeout is answered: an
item, or nothing when the timeout comes first. -/
def Answer.asNext : Answer → Option (Option (Option ValueNotification))
  | .next event => some (some event)
  | .timeout => some none
  | _ => none

namespace Actor

def new (conn : Connection) (stats : AgentStats) (pollAlways : Bool) (now : Nat) : Actor :=
  { conn, notifications := none, assembler := .new, clients := .new stats,
    monitoringPayload := monitoring, pollAlways, now }

/-- Whether the device should be polled. -/
def wantsPoll (a : Actor) : Bool := a.pollAlways || !a.clients.isEmpty

/-- The clients act on their queues, and time passes. -/
def elapse (a : Actor) (acts : List (ClientId × ClientAct)) (elapsed : Nat) : Actor :=
  { a with clients := a.clients.run (acts.map fun x => .act x.1 x.2), now := a.now + elapsed }

def applyOp (a : Actor) (op : ClientOp) : Actor := { a with clients := a.clients.apply op }

def withStats (a : Actor) (f : AgentStats → AgentStats) : Actor :=
  { a with clients := { a.clients with stats := f a.clients.stats } }

/-- `try_send` into the channel of one request. -/
def trySend (a : Actor) (tx : ClientId) (response : Response) : Actor :=
  { a with clients := { a.clients with
      chans := Function.update a.clients.chans tx ((a.clients.chans tx).trySend response).2 } }

end Actor

/-! ## The actor's own state -/

def meanwhile : ActorM Unit := do
  let (acts, elapsed) ← Await.await Answer.asMeanwhile
  Await.modify fun a => a.elapse acts elapsed
  Await.observe (.meanwhile acts)

/-- A link operation, with what happens while it is awaited. -/
def onLink {α : Type} (x : Await Answer Obs Connection α) : ActorM α := do
  meanwhile
  Await.zoom Actor.conn (fun conn a => { a with conn }) x

def clientOp (op : ClientOp) : ActorM Unit := do
  Await.modify fun a => a.applyOp op
  Await.observe (.clients op)

def setStats (f : AgentStats → AgentStats) : ActorM Unit :=
  Await.modify fun a => a.withStats f

/-- Assign `notifications`. -/
def setNotifications (n : Option Notifications) : ActorM Unit := do
  let a ← Await.get
  match a.notifications with
  | some _ => Await.observe (.closed a.assembler.buf)
  | none => pure ()
  Await.modify fun a => { a with notifications := n }

/-- Adopt a fresh notification stream, discarding any half-assembled frame. -/
def applySubscription (n : Notifications) : ActorM Unit := do
  setNotifications (some n)
  Await.modify fun a => { a with assembler := a.assembler.clear }
  Await.observe .opened

/-- (Re-)subscribe to RX notifications, discarding any half-assembled frame. -/
def relisten : ActorM (Except StreamError Unit) := do
  match ← onLink Connection.listen with
  | .ok n =>
    applySubscription n
    pure (.ok ())
  | .error e =>
    setNotifications none
    pure (.error s!"listen failed: {e}")

/-- Tear the streaming state down and report the failure to every client. -/
def abortStream (reason : StreamError) : ActorM Unit := do
  setNotifications none
  setStats fun stats => stats.setConnected false
  clientOp (.abort reason)

/-! ## Frames -/

section Zone

variable (chrono : Chrono)

/-- Record a measurement and hand it to the clients; skip anything else. -/
def forward (frame : List UInt8) : ActorM Unit := do
  match tryMeasurement chrono frame with
  | none => pure ()
  | some m =>
    let a ← Await.get
    setStats fun stats => stats.recordSample a.now m
    clientOp (.broadcast (.fromMeasurement m))

/-- The frames one after the other, as `taker` takes them out of the assembler. -/
def forwardAll (taker : Taker) : List (List UInt8) → ActorM Unit
  | [] => pure ()
  | frame :: frames => do
    Await.observe (.took frame taker)
    forward chrono frame
    forwardAll taker frames

/-- Feed a value to the shared assembler and drive the iterator until a frame
satisfies `stop`, forwarding the frames before it. -/
def feedUntil (stop : List UInt8 → Bool) (taker : Taker) (value : List UInt8) :
    ActorM (Option (List UInt8)) := do
  Await.observe (.rx value)
  let a ← Await.get
  let r := (a.assembler.feed value).pull stop
  Await.modify fun a => { a with assembler := r.2.2 }
  forwardAll chrono taker r.1
  pure r.2.1

/-! ## Ticks and notifications -/

/-- The write of `poll_device`. -/
def pollWrite : ActorM Unit := do
  let a ← Await.get
  match ← onLink (Connection.write a.monitoringPayload) with
  -- a reconnect along the way invalidated the old subscription
  | .ok true =>
    setStats fun stats => stats.recordReconnect
    match ← relisten with
    | .error e => abortStream e
    | .ok () => pure ()
  | .ok false => pure ()
  | .error e => abortStream s!"measurement write failed: {e}"

/-- Ask the device for a measurement. -/
def pollDevice : ActorM Unit := do
  clientOp .reap
  let a ← Await.get
  if a.wantsPoll then
    match a.notifications with
    | none =>
      match ← relisten with
      | .error e => abortStream e
      | .ok () => pollWrite
    | some _ => pollWrite
  else pure ()

def handleNotification (event : Option ValueNotification) : ActorM Unit := do
  match event with
  | none =>
    match ← onLink Connection.reconnectStream with
    | .ok n =>
      setStats fun stats => stats.recordReconnect
      applySubscription n
    | .error e => abortStream s!"reconnect failed: {e}"
  | some event =>
    if event.uuid ≠ cRx then pure ()
    else
      let _ ← feedUntil chrono (fun _ => false) .notification event.value
      pure ()

/-! ## One-shot requests -/

/-- One turn of `next_matching_frame` under `COMMAND_TIMEOUT`, which can only cut
in where the next notification is awaited. -/
def nextMatchingTurn (kind : FrameKind) : ActorM (Option Waited) := do
  meanwhile
  match ← Await.await Answer.asNext with
  | none => pure (some .elapsed)
  | some none => pure (some .closed)
  | some (some event) =>
    if event.uuid ≠ cRx then pure none
    else
      match ← feedUntil chrono kind.matches .forwarded event.value with
      | some frame =>
        Await.observe (.took frame (.reply kind))
        pure (some (.frame frame))
      | none => pure none

def nextMatchingFrame (kind : FrameKind) : ActorM Waited := Await.loop (nextMatchingTurn chrono kind)

/-- Read notifications until one reassembles into a frame of the expected kind,
forwarding the measurements that arrive before it. -/
def waitForFrame (kind : FrameKind) : ActorM (Except StreamError (List UInt8)) := do
  let a ← Await.get
  match a.notifications with
  | none => pure (.error "no notification stream")
  | some _ =>
    Await.observe (.awaiting kind)
    match ← nextMatchingFrame chrono kind with
    | .frame frame => pure (.ok frame)
    | .closed => pure (.error "notification stream closed")
    | .elapsed => pure (.error "command timed out")

def writeAndWait (cmdPayload : List UInt8) (kind : FrameKind) :
    ActorM (Except StreamError (List UInt8)) := do
  match ← onLink (Connection.write cmdPayload) with
  | .ok true =>
    match ← relisten with
    | .error e => pure (.error e)
    | .ok () => waitForFrame chrono kind
  | .ok false => waitForFrame chrono kind
  | .error e => pure (.error s!"write failed: {e}")

/-- Write `cmdPayload` and wait for the matching reply frame. When no client is
streaming, the temporary subscription is torn down after. -/
def oneshot (cmdPayload : List UInt8) (kind : FrameKind) :
    ActorM (Except StreamError (List UInt8)) := do
  let a ← Await.get
  match a.notifications with
  | some _ => writeAndWait chrono cmdPayload kind
  | none =>
    match ← relisten with
    | .error e => pure (.error e)
    | .ok () =>
      let result ← writeAndWait chrono cmdPayload kind
      setNotifications none
      pure result

def parseCommandResult (frame : List UInt8) : Response :=
  match commandStatus frame with
  | some code => .commandResult code
  | none => .error "response frame too short"

/-- Answer a one-shot request on its own channel. -/
def reply (tx : ClientId) (result : Except StreamError Response) : ActorM Unit := do
  let response := match result with
    | .ok response => response
    | .error message => .error message
  Await.modify fun a => a.trySend tx response
  Await.observe (.reply tx response)

def sendError (tx : ClientId) (message : String) : ActorM Unit := reply tx (.error message)

/-- Send a one-shot command frame and reply with its status byte. -/
def command (cmdPayload : List UInt8) (tx : ClientId) : ActorM Unit := do
  let resp ← oneshot chrono cmdPayload .command
  reply tx (resp.map parseCommandResult)

/-- The clock frame for a time in RFC 3339. -/
def rtcFrame (time : String) : Except String (List UInt8) :=
  match chrono.parseFromRfc3339 time with
  | .error e => .error s!"invalid time: {e}"
  | .ok t => rtc chrono t

/-- The clock of the device, in the measurement that answers a `GetRtc`. -/
def rtcResponse (frame : List UInt8) : Except StreamError Response :=
  match readMeasure chrono frame with
  | .ok m => .ok (.fromMeasurement m)
  | .error e => .error s!"get_rtc failed: {e}"

/-- Take out a subscription if there is none, and put the client on the list. -/
def handleSubscribe (tx : ClientId) : ActorM Unit := do
  let a ← Await.get
  match a.notifications with
  | none =>
    match ← relisten with
    | .error e => sendError tx e
    | .ok () => clientOp (.add tx)
  | some _ => clientOp (.add tx)

/-- Serve one client request. -/
def handle (cmd : ActorCommand) : ActorM Unit := do
  Await.observe (.request cmd.tx cmd.request)
  clientOp .reap
  match cmd.request with
  -- answered by `handle_client`; they never reach here
  | .ping | .shutdown => pure ()
  | .subscribe => handleSubscribe cmd.tx
  | .getRtc =>
    let a ← Await.get
    let resp ← oneshot chrono a.monitoringPayload .measurement
    reply cmd.tx (resp.bind (rtcResponse chrono))
  | .power on => command chrono (if on then Btwattch2.on else off) cmd.tx
  | .testLed => command chrono blinkLed cmd.tx
  | .setRtc time =>
    match rtcFrame chrono time with
    | .ok p => command chrono p cmd.tx
    | .error e => sendError cmd.tx e

/-! ## The loop -/

/-- What wakes the actor loop. -/
inductive Event where
  | command (cmd : Option ActorCommand)
  | tick
  | notification (event : Option ValueNotification)
  | shutdown
  deriving DecidableEq, Repr

/-- Whether the select polls this branch. -/
def Event.enabled (a : Actor) : Event → Bool
  | .command _ => true
  | .tick => a.wantsPoll
  | .notification _ => a.notifications.isSome
  | .shutdown => true

/-- Act on an event: whether the loop goes on. -/
def handleEvent (event : Event) : ActorM Bool := do
  meanwhile
  match event with
  | .shutdown => pure false
  -- the last client handle is gone: nothing left to serve
  | .command none => pure false
  | .command (some cmd) =>
    handle chrono cmd
    pure true
  | .tick =>
    pollDevice
    pure true
  | .notification event =>
    handleNotification chrono event
    pure true

/-- The actor loop between two events, and what has happened so far. -/
structure Agent where
  actor : Actor
  log : List Obs
  running : Bool

namespace Agent

/-- The loop has ended: the streaming clients are owed a clean end. -/
def stop (log : List Obs) (actor : Actor) : Agent :=
  ⟨actor.applyOp .end_, log ++ [.clients .end_], false⟩

/-- One event, with the answers its handler's awaits are given. A handler whose
answers run out is abandoned at that await, because shutdown was signalled. -/
def step (agent : Agent) : Event × List Answer → Option Agent
  | (event, tape) =>
    if agent.running && event.enabled agent.actor then
      match handleEvent chrono event ⟨tape, agent.log, agent.actor⟩ with
      | (some true, ⟨[], log, actor⟩) => some ⟨actor, log, true⟩
      | (some false, ⟨[], log, actor⟩) => some (stop log actor)
      | (none, ⟨[], log, actor⟩) => some (stop log actor)
      | _ => none
    else none

/-- Where `actor_loop` starts: connected, nobody streaming. -/
def start (conn : Connection) (interval now : Nat) (metricsListen : Option String)
    (pollAlways : Bool) : Agent :=
  ⟨.new conn ((AgentStats.new now interval metricsListen).setConnected true) pollAlways now, [],
    true⟩

end Agent

end Zone

end Btwattch2
