/-
Btwattch2.Lifecycle — the agent as a whole, from its start to its end (`run`,
`accept_loop`, `until_shutdown` and `Shutdown` of `agent/server.rs`).

Three kinds of task make it up: `run` itself, with the accept loop in it, the actor,
and a handler for each client. They share the channel to the actor and two
`Notify`, of which each keeps one permit until it is taken. What a task does between
two awaits is one event, and a run of the agent is any interleaving of the events of
its tasks with the signals it gets. `Actor` is about what the actor does with an
event, `Server` about what a handler writes and `PidFile` about `take_over`; each is
one event or a few here. A panic ends its task alone or, as in a release build, the
process.
-/
import Mathlib.Logic.Function.Basic
import Btwattch2.Lib.Transition
import Btwattch2.Server

namespace Btwattch2.Lifecycle

abbrev Client := Nat

/-- The signals that end the agent. -/
inductive SignalKind where
  | interrupt
  | terminate
  deriving DecidableEq, Repr

/-- What the agent is started with, and how it is built. -/
structure Options where
  metricsListen : Bool
  /-- `panic = "abort"`. -/
  panicAborts : Bool

/-- How `run` comes out. -/
inductive Outcome where
  /-- `Ok`. -/
  | stopped
  /-- "agent is already running", since one answers on the socket. -/
  | answered
  /-- What the rest of `take_over`, the metrics port or the connect failed with. -/
  | failed
  /-- "agent actor failed". -/
  | actorFailed
  /-- "agent actor stopped unexpectedly". -/
  | actorStopped
  | panicked
  /-- A panic before there is a guard for the pid file. -/
  | panickedUnguarded
  /-- The process dies of a panic. -/
  | aborted
  /-- The process dies of a signal it has no handler for. -/
  | killed
  deriving DecidableEq, Repr

/-- How far `run` has come. -/
inductive Stage where
  | start
  /-- The signals are registered. -/
  | registered
  /-- `take_over` has returned. -/
  | claimed
  /-- The metrics port is bound, where there is one. -/
  | connecting
  /-- In the `select!` of the accept loop and the actor. -/
  | serving
  /-- The accept loop has returned, the actor is told to stop and is waited for. -/
  | joining
  /-- `run` returns, and the guard drops. -/
  | dropping (outcome : Outcome)
  | gone (outcome : Outcome)
  deriving DecidableEq, Repr

/-- What the actor's task is doing. -/
inductive ActorTask where
  | absent
  /-- In the `select!` of its loop. -/
  | idle
  /-- In `until_shutdown`, with a command, a tick or a notification. -/
  | working
  /-- Behind its loop: the clients are ended and the device is disconnected. -/
  | ending
  | ended
  | panicked
  deriving DecidableEq, Repr

/-- What a client's handler is doing. -/
inductive Handler where
  | absent
  | reading
  | asked (request : Request)
  /-- Writing an answer of its own. -/
  | writing (request : Request) (response : Response)
  /-- Relaying what the actor answers. -/
  | relaying
  | done
  deriving DecidableEq, Repr

structure Process where
  stage : Stage
  /-- The socket that it bound is there. -/
  socket : Bool
  /-- The pid file that it claimed is there. -/
  pid : Bool
  /-- A file could not be removed. -/
  unremoved : Bool
  /-- The signals a handler could be registered for. -/
  handled : SignalKind → Bool
  /-- The signals that have come and were not received yet. -/
  pending : SignalKind → Bool
  /-- The metrics endpoint is served. -/
  metrics : Bool
  /-- The permit of `shutdown`. -/
  shutdown : Bool
  /-- The permit of `actor_shutdown`. -/
  actorShutdown : Bool
  actor : ActorTask
  /-- The commands that were sent and not received yet, by their clients. -/
  queue : List Client
  /-- How many clients were accepted. -/
  accepted : Nat
  handlers : Client → Handler
  /-- What the handlers have answered of their own. -/
  told : List (Client × Response)
  /-- Whether a stop was asked for: by a signal that is handled, or by a client whose
  `Shutdown` was answered. -/
  asked : Bool

/-- How `take_over` comes out. -/
inductive TakeOver where
  /-- The pid file is not to be had. -/
  | unclaimed
  /-- An agent answers on the socket. -/
  | answered
  /-- The socket cannot be bound or be given its mode, or the pid not be written. -/
  | failed (bound : Bool)
  | taken
  deriving DecidableEq, Repr

inductive RunEvent where
  /-- Register for the signals: for which of them this succeeds. -/
  | register (interrupt terminate : Bool)
  | takeOver (result : TakeOver)
  | bindMetrics (ok : Bool)
  | connect (ok : Bool)
  /-- A signal is received, or a permit taken. -/
  | stopSignal (kind : SignalKind)
  | stopNotified
  /-- The actor's task is over, in the `select!` and behind it. -/
  | actorSeen
  | joined
  /-- The guard drops: whether each file could be removed. -/
  | drop (socket pid : Bool)
  | panic (socket pid : Bool)
  /-- A panic in `take_over`, between the claim and the guard. -/
  | panicUnguarded
  deriving DecidableEq, Repr

inductive ActorEvent where
  | command
  /-- The channel is empty and every sender is gone. -/
  | closed
  | tick
  /-- A notification, or the end of the stream. -/
  | notification
  /-- The work is done. -/
  | finished
  /-- The permit is taken, in the loop or instead of the rest of the work. -/
  | notified
  /-- The disconnect is over, or has timed out. -/
  | disconnected
  | panic
  deriving DecidableEq, Repr

inductive ClientEvent where
  | accept
  /-- The request line; none when there is none or it is not understood. -/
  | read (request : Option Request)
  | answer (info : AgentInfo) (now : Nat)
  | wrote (ok : Bool)
  /-- The last response is relayed, or the client or the channel is closed. -/
  | relayed
  | panic

inductive Event where
  | signal (kind : SignalKind)
  | run (event : RunEvent)
  | actor (event : ActorEvent)
  | client (client : Client) (event : ClientEvent)

def Event.isPanic : Event → Bool
  | .run (.panic _ _) | .run .panicUnguarded | .actor .panic | .client _ .panic => true
  | _ => false

namespace Stage

def isGone : Stage → Bool
  | .gone _ => true
  | _ => false

/-- Before the agent serves. -/
def isEarly : Stage → Bool
  | .start | .registered | .claimed | .connecting => true
  | _ => false

end Stage

namespace ActorTask

def isLive : ActorTask → Bool
  | .idle | .working | .ending => true
  | _ => false

/-- The receiving half of the channel is dropped. -/
def isOver : ActorTask → Bool
  | .ended | .panicked => true
  | _ => false

end ActorTask

/-- A handler that still has its sender of commands. -/
def Handler.isLive : Handler → Bool
  | .absent | .done => false
  | _ => true

namespace Process

/-- Before `main`. -/
def init : Process where
  stage := .start
  socket := false
  pid := false
  unremoved := false
  handled _ := false
  pending _ := false
  metrics := false
  shutdown := false
  actorShutdown := false
  actor := .absent
  queue := []
  accepted := 0
  handlers _ := .absent
  told := []
  asked := false

def goto (w : Process) (stage : Stage) : Process := { w with stage }

/-- A signal that is not handled ends the process where it is. -/
def onSignal (w : Process) (kind : SignalKind) : Process :=
  if w.handled kind then { w with pending := Function.update w.pending kind true, asked := true }
  else w.goto (.gone .killed)

/-- The accept loop has returned: the actor is told, and `run` gives up its senders. -/
def stopServing (w : Process) : Process := { w.goto .joining with actorShutdown := true }

/-- `remove_files`, an error in which is ignored. -/
def removeFiles (w : Process) (socket pid : Bool) : Process :=
  { w with
    socket := w.socket && !socket
    pid := w.pid && !pid
    unremoved := w.socket && !socket || w.pid && !pid }

/-- `run`, with a metrics port or without. -/
def onRun (metricsListen : Bool) (w : Process) : RunEvent → Option Process
  | .register interrupt terminate =>
    match w.stage with
    | .start => some { w.goto .registered with
        handled := fun | .interrupt => interrupt | .terminate => terminate }
    | _ => none
  | .takeOver result =>
    match w.stage, result with
    | .registered, .taken => some { w.goto .claimed with socket := true, pid := true }
    | .registered, .unclaimed => some (w.goto (.gone .failed))
    -- the guard is not there yet, and the pid file stays
    | .registered, .answered => some { w.goto (.gone .answered) with pid := true }
    | .registered, .failed bound => some { w.goto (.dropping .failed) with
        socket := bound, pid := true }
    | _, _ => none
  | .bindMetrics ok =>
    match w.stage with
    | .claimed => some (w.goto (if ok || !metricsListen then .connecting else .dropping .failed))
    | _ => none
  | .connect ok =>
    match w.stage with
    | .connecting => some (if ok then
        { w.goto .serving with metrics := metricsListen, actor := .idle }
        else w.goto (.dropping .failed))
    | _ => none
  | .stopSignal kind =>
    if w.pending kind then
      match w.stage with
      | .connecting => some { w.goto (.dropping .stopped) with
          pending := Function.update w.pending kind false }
      | .serving => some { w.stopServing with pending := Function.update w.pending kind false }
      | _ => none
    else none
  | .stopNotified =>
    match w.stage, w.shutdown with
    | .serving, true => some { w.stopServing with shutdown := false }
    | _, _ => none
  | .actorSeen =>
    match w.stage, w.actor with
    | .serving, .panicked => some (w.goto (.dropping .actorFailed))
    | .serving, .ended => some (w.goto (.dropping .actorStopped))
    | _, _ => none
  | .joined =>
    match w.stage with
    | .joining => if w.actor.isOver then some { w.goto (.dropping .stopped) with metrics := false }
        else none
    | _ => none
  | .drop socket pid =>
    match w.stage with
    | .dropping outcome => some ((w.removeFiles socket pid).goto (.gone outcome))
    | _ => none
  | .panic socket pid =>
    match w.stage with
    | .dropping _ | .gone _ => none
    | _ => some ((w.removeFiles socket pid).goto (.gone .panicked))
  | .panicUnguarded =>
    match w.stage with
    | .registered => some { w.goto (.gone .panickedUnguarded) with pid := true }
    | _ => none

/-- Whether a sender of commands is left: `run` has one while it serves, and so has each
handler that is still there. -/
def hasSender (w : Process) : Bool :=
  w.stage == .serving || (List.range w.accepted).any fun c => (w.handlers c).isLive

def onActor (w : Process) : ActorEvent → Option Process
  | .command =>
    match w.actor, w.queue with
    | .idle, _ :: queue => some { w with actor := .working, queue }
    | _, _ => none
  | .closed =>
    match w.actor, w.queue with
    | .idle, [] => if w.hasSender then none else some { w with actor := .ending }
    | _, _ => none
  | .tick | .notification =>
    match w.actor with
    | .idle => some { w with actor := .working }
    | _ => none
  | .finished =>
    match w.actor with
    | .working => some { w with actor := .idle }
    | _ => none
  | .notified =>
    match w.actor, w.actorShutdown with
    | .idle, true => some { w with actor := .ending, actorShutdown := false }
    | .working, true => some { w with actor := .ending, actorShutdown := false }
    | _, _ => none
  | .disconnected =>
    match w.actor with
    | .ending => some { w with actor := .ended, queue := [] }
    | _ => none
  | .panic => if w.actor.isLive then some { w with actor := .panicked, queue := [] } else none

def setHandler (w : Process) (c : Client) (handler : Handler) : Process :=
  { w with handlers := Function.update w.handlers c handler }

def onClient (w : Process) (c : Client) : ClientEvent → Option Process
  | .accept =>
    if w.stage = .serving ∧ c = w.accepted then
      some { w.setHandler c .reading with accepted := w.accepted + 1 }
    else none
  | .read request =>
    match w.handlers c with
    | .reading => some (w.setHandler c (request.elim .done .asked))
    | _ => none
  | .answer info now =>
    match w.handlers c with
    | .asked request =>
      match controlResponse request w.actor.isOver info now with
      | some response => some (w.setHandler c (.writing request response))
      | none =>
        if w.actor.isOver then
          some (w.setHandler c (.writing request (.error "agent shutting down")))
        else some { w.setHandler c .relaying with queue := w.queue ++ [c] }
    | _ => none
  | .wrote ok =>
    match w.handlers c with
    | .writing request response =>
      if ok then
        some { w.setHandler c .done with
          told := w.told ++ [(c, response)]
          shutdown := w.shutdown || request == .shutdown
          asked := w.asked || request == .shutdown }
      else some (w.setHandler c .done)
    | _ => none
  | .relayed =>
    match w.handlers c with
    | .relaying => some (w.setHandler c .done)
    | _ => none
  | .panic => if (w.handlers c).isLive then some (w.setHandler c .done) else none

/-- One event, a panic ending its task alone. -/
def onEvent (metricsListen : Bool) (w : Process) : Event → Option Process
  | .signal kind => some (w.onSignal kind)
  | .run event => w.onRun metricsListen event
  | .actor event => w.onActor event
  | .client c event => w.onClient c event

/-- One event. Once `run` has returned, the runtime takes every task with it. -/
def step (options : Options) (w : Process) (event : Event) : Option Process :=
  if w.stage.isGone then none
  else if options.panicAborts && event.isPanic then
    (w.onEvent options.metricsListen event).map fun _ => w.goto (.gone .aborted)
  else w.onEvent options.metricsListen event

end Process

end Btwattch2.Lifecycle
