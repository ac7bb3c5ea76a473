/-
Btwattch2.Server — the agent's half of one client's connection (`handle_client`
of `agent/server.rs`).

The client, the actor and the socket answer every await: the line that is read,
what can be seen of the actor, whether it takes the command, what comes out of
the channel of the request, whether a line could be written. The JSON reader is a
parameter.
-/
import Btwattch2.Lib.Await
import Btwattch2.Cli
import Btwattch2.Status

namespace Btwattch2

open Lib

/-- What the connection handler knows of the agent. The counters are shared with
the actor, which goes on changing them. -/
structure AgentInfo where
  addr : BDAddr
  stats : AgentStats

/-- What an await of the handler is answered. -/
inductive ServerAnswer where
  /-- The first line, or nothing: the client closed before it, or reading failed. -/
  | line (bytes : Option (List UInt8))
  /-- What is seen of the actor: whether it is gone, and its counters. -/
  | actor (gone : Bool) (stats : AgentStats) (now : Nat)
  /-- Whether the actor took the command. -/
  | send (ok : Bool)
  /-- The next response on the channel, or its end. -/
  | recv (response : Option Response)
  | write (ok : Bool)
  deriving DecidableEq, Repr

/-- What the handler does that can be seen from outside. -/
inductive ServerObs where
  /-- A response on its way to the client, and whether it was written. -/
  | wrote (response : Response) (ok : Bool)
  /-- The request was given to the actor. -/
  | submitted (request : Request)
  /-- Shutdown was signalled. -/
  | notified
  deriving DecidableEq, Repr

abbrev ServerM := Await ServerAnswer ServerObs Unit

namespace ServerAnswer

def asLine : ServerAnswer → Option (Option (List UInt8))
  | .line bytes => some bytes
  | _ => none

def asActor : ServerAnswer → Option (Bool × AgentStats × Nat)
  | .actor gone stats now => some (gone, stats, now)
  | _ => none

def asSend : ServerAnswer → Option Bool
  | .send ok => some ok
  | _ => none

def asRecv : ServerAnswer → Option (Option Response)
  | .recv response => some response
  | _ => none

def asWrite : ServerAnswer → Option Bool
  | .write ok => some ok
  | _ => none

end ServerAnswer

/-- Write one message as a line: whether that succeeded. -/
def writeMessage (response : Response) : ServerM Bool := do
  let ok ← Await.await ServerAnswer.asWrite
  Await.observe (.wrote response ok)
  pure ok

/-- The requests the connection handler answers itself; `none` means the request
is work for the actor. -/
def controlResponse (request : Request) (actorGone : Bool) (info : AgentInfo) (now : Nat) :
    Option Response :=
  match request with
  | .ping =>
    if actorGone then some (.error "agent actor is not running")
    else some (.pong (some (displayAddr info.addr)) (some (info.stats.snapshot now)))
  | .shutdown => some .ok
  | _ => none

def Response.isMeasurement : Response → Bool
  | .measurement _ _ _ _ _ => true
  | _ => false

/-- One turn of the loop that writes what comes out of the channel: whether that
was the last. -/
def relayResponse : ServerM (Option Unit) := do
  match ← Await.await ServerAnswer.asRecv with
  | none => pure (some ())
  | some response =>
    let ok ← writeMessage response
    if ok && response.isMeasurement then pure none else pure (some ())

def relayResponses : ServerM Unit := Await.loop relayResponse

/-- The text of a line. Reading one that is not UTF-8 fails. -/
def lineText (bytes : List UInt8) : Option String := String.fromUTF8? ⟨bytes.toArray⟩

section

variable (parse : String → Except String Request) (addr : BDAddr)

/-- Answer a request that was understood. -/
def serveRequest (request : Request) : ServerM Unit := do
  let (gone, stats, now) ← Await.await ServerAnswer.asActor
  match controlResponse request gone ⟨addr, stats⟩ now with
  | some response =>
    let ok ← writeMessage response
    if ok && request == .shutdown then Await.observe .notified else pure ()
  | none =>
    if ← Await.await ServerAnswer.asSend then
      Await.observe (.submitted request)
      relayResponses
    else
      let _ ← writeMessage (.error "agent shutting down")
      pure ()

/-- Read one line, answer it and close. -/
def handleClient : ServerM Unit := do
  match (← Await.await ServerAnswer.asLine).bind lineText with
  | none => pure ()
  | some line =>
    match parse line with
    | .error e =>
      let _ ← writeMessage (.error s!"invalid request: {e}")
      pure ()
    | .ok request => serveRequest addr request

end

/-- The lines that were written, in order. -/
def linesOf (log : List ServerObs) : List Response :=
  log.filterMap fun
    | .wrote response true => some response
    | _ => none

end Btwattch2
