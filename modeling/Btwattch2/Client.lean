/-
Btwattch2.Client — one invocation's conversation with a running agent
(`agent/client.rs`, and `probe_daemon` of `agent/mod.rs`).

The agent answers every await: whether its socket is there, whether it takes the
connection and the request, and what the next line it writes says. A line is what
the JSON reader makes of it.
-/
import Btwattch2.Lib.Await
import Btwattch2.Protocol
import Btwattch2.Cli

namespace Btwattch2

open Lib

/-- What reading the next line of the agent comes to. -/
inductive Line where
  | failed (message : String)
  /-- The agent closed the connection. -/
  | eof
  | unparsable
  | response (response : Response)
  deriving DecidableEq, Repr

/-- What an await of a client is answered. -/
inductive ClientAnswer where
  | socketExists (found : Bool)
  | connect (result : Except String Unit)
  | write (result : Except String Unit)
  | line (line : Line)
  /-- Time is up, or Ctrl-C came. -/
  | elapsed

/-- What a live agent reported about itself when it answered a ping. -/
structure DaemonInfo where
  /-- The device it is attached to, if it says. -/
  addr : Option BDAddr
  status : Option AgentStatus
  deriving DecidableEq, Repr

/-- What a client does that can be seen from outside. -/
inductive ClientObs where
  /-- A request on its way to the agent. -/
  | sent (request : Request)
  /-- What the probe of the socket found. -/
  | found (daemon : Option DaemonInfo)
  | rendered (m : Measurement)
  deriving DecidableEq, Repr

/-- A part of a client with a state of its own. -/
abbrev ClientM := Await ClientAnswer ClientObs

namespace ClientAnswer

def asSocketExists : ClientAnswer → Option Bool
  | .socketExists found => some found
  | _ => none

def asConnect : ClientAnswer → Option (Except String Unit)
  | .connect result => some result
  | _ => none

def asWrite : ClientAnswer → Option (Except String Unit)
  | .write result => some result
  | _ => none

def asLine : ClientAnswer → Option Line
  | .line l => some l
  | _ => none

def isElapsed : ClientAnswer → Bool
  | .elapsed => true
  | _ => false

end ClientAnswer

/-! ## Requests -/

section

variable {ρ : Type} (onResponse : Response → ClientM ρ Bool)

/-- Read one line: how the request ended, if it did. -/
def readResponse : ClientM ρ (Option (Except String Unit)) := do
  match ← Await.await ClientAnswer.asLine with
  | .failed message => pure (some (.error message))
  | .eof => pure (some (.error "agent closed the connection before completing the response"))
  | .unparsable => pure (some (.error "failed to parse agent response"))
  -- the agent reporting that the request failed is this call's error
  | .response (.error message) => pure (some (.error message))
  | .response response => do
    let isBreak ← onResponse response
    if isBreak || response == .streamEnd then pure (some (.ok ())) else pure none

/-- Hand the responses of the agent to `onResponse` until it breaks. -/
def readResponses : ClientM ρ (Except String Unit) := Await.loop (readResponse onResponse)

/-- Lines are read until one of them ends the request, however many that are. -/
theorem readResponses_eq (hresponse : ∀ response, Await.Shrinks (onResponse response))
    (s : Stage ClientAnswer ClientObs ρ) :
    readResponses onResponse s =
      (readResponse onResponse >>= fun r => r.elim (readResponses onResponse) pure) s := by
  have htakes : Await.Takes (readResponse onResponse) := by
    refine Await.takes_bind (Await.takes_await _) fun line => ?_
    split
    · exact Await.shrinks_pure _
    · exact Await.shrinks_pure _
    · exact Await.shrinks_pure _
    · exact Await.shrinks_pure _
    · refine Await.shrinks_bind (hresponse _) fun _ => ?_
      split <;> exact Await.shrinks_pure _
  exact Await.loop_eq htakes s

end

/-- Send `request` to the agent and follow its responses. -/
def execute {ρ : Type} (request : Request) (paths : AgentPaths)
    (onResponse : Response → ClientM ρ Bool) : ClientM ρ (Except String Unit) := do
  match ← Await.await ClientAnswer.asConnect with
  | .error _ => pure (.error s!"failed to connect to agent at {paths.socket}")
  | .ok () =>
    Await.observe (.sent request)
    match ← Await.await ClientAnswer.asWrite with
    | .error e => pure (.error e)
    | .ok () => readResponses onResponse

/-- The first response to `request`. -/
def request {σ : Type} (request : Request) (paths : AgentPaths) :
    ClientM σ (Except String Response) := do
  let r ← Await.withState none (execute request paths fun response => do
    Await.modify fun _ => some response
    pure true)
  match r with
  | (.error e, _) => pure (.error e)
  | (.ok (), none) => pure (.error "agent returned no response")
  | (.ok (), some response) => pure (.ok response)

/-- What a ping was answered, read with the address parser. -/
def readPong (parseAddr : String → Except String BDAddr) : Response → Except String DaemonInfo
  | .pong none status => .ok { addr := none, status }
  | .pong (some addr) status =>
    match parseAddr addr with
    | .error _ => .error "agent reported an unparsable address"
    | .ok addr => .ok { addr := some addr, status }
  | _ => .error "agent returned an unexpected ping response"

/-- Ping the agent, which has half a second to answer. -/
def ping {σ : Type} (parseAddr : String → Except String BDAddr) (paths : AgentPaths) :
    ClientM σ (Except String DaemonInfo) := do
  match ← Await.timeout ClientAnswer.isElapsed (request .ping paths) with
  | none => pure (.error "agent ping timed out")
  | some (.error e) => pure (.error e)
  | some (.ok response) => pure (readPong parseAddr response)

def sendShutdown {σ : Type} (paths : AgentPaths) : ClientM σ (Except String Unit) := do
  match ← request .shutdown paths with
  | .error e => pure (.error e)
  | .ok .ok => pure (.ok ())
  | .ok _ => pure (.error "agent returned an unexpected shutdown response")

/-- Probe the agent's socket: something only when an agent answers. -/
def probeDaemon {σ : Type} (parseAddr : String → Except String BDAddr) (paths : AgentPaths) :
    ClientM σ (Option DaemonInfo) := do
  match ← Await.await ClientAnswer.asSocketExists with
  | false => pure none
  | true =>
    match ← ping parseAddr paths with
    | .error _ => pure none
    | .ok daemon => pure (some daemon)

end Btwattch2
