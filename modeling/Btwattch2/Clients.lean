/-
Btwattch2.Clients — the clients that stream measurements, and the bounded queue
each is fed through (`Clients` of `agent/server.rs`).

A `Sender` is the number of the channel it sends into; `chans` is the table of
all channels, since a queue is shared with the client that reads it. `given` is
what a channel has ever been given, kept beside the queue to state what a client
is fed; no function reads it.
-/
import Btwattch2.Lib.Sweep
import Btwattch2.Status

namespace Btwattch2

/-- How many responses a client may leave unread before it is dropped. -/
def clientQueueLen : Nat := 64

/-! ## One client's queue -/

inductive TrySend where
  | sent
  | full
  | closed
  deriving DecidableEq, Repr

/-- A bounded channel between the actor and one client. -/
structure Chan where
  queue : List Response
  /-- The receiver is gone. -/
  closed : Bool
  given : List Response
  bounded : queue.length ≤ clientQueueLen
  deriving DecidableEq, Repr

namespace Chan

def new : Chan := ⟨[], false, [], Nat.zero_le _⟩

/-- `Sender::try_send`: a closed channel is reported before a full one. -/
def trySend (c : Chan) (response : Response) : TrySend × Chan :=
  if c.closed then (.closed, c)
  else if h : c.queue.length ≥ clientQueueLen then (.full, c)
  else (.sent, {
    queue := c.queue ++ [response]
    closed := c.closed
    given := c.given ++ [response]
    bounded := by
      rw [List.length_append]
      exact Nat.lt_of_not_le h })

/-- The client takes the oldest response out of its queue. -/
def recv (c : Chan) : Chan where
  queue := c.queue.tail
  closed := c.closed
  given := c.given
  bounded := by
    rw [List.length_tail]
    exact (Nat.sub_le _ _).trans c.bounded

/-- The client drops its receiver, and with it what was queued. -/
def hangUp (c : Chan) : Chan := ⟨[], true, c.given, Nat.zero_le _⟩

end Chan

/-- A `Sender`, by the channel it sends into. -/
abbrev ClientId := Nat

/-- What a client does to its own queue. -/
inductive ClientAct where
  | recv
  | hangUp
  deriving DecidableEq, Repr

def Chan.act : Chan → ClientAct → Chan
  | c, .recv => c.recv
  | c, .hangUp => c.hangUp

/-! ## The list -/

/-- The list of streaming clients, and the count published with it. -/
structure Clients where
  list : List ClientId
  chans : ClientId → Chan
  stats : AgentStats

namespace Clients

def new (stats : AgentStats) : Clients := { list := [], chans := fun _ => .new, stats }

variable (clients : Clients)

def isEmpty : Bool := clients.list.isEmpty

def publishCount : Clients :=
  { clients with stats := clients.stats.setClients clients.list.length }

def add (tx : ClientId) : Clients :=
  { clients with list := clients.list ++ [tx] }.publishCount

/-- `try_send` as the predicate of a `retain`. -/
def retainSent (response : Response) (c : Chan) : Bool × Chan :=
  let r := c.trySend response
  (r.1 == .sent, r.2)

/-- Hand `response` to everyone still listening. Whoever hung up, or whose queue
is full, is dropped in the same pass. -/
def broadcast (response : Response) : Clients :=
  let before := clients.list.length
  let r := Lib.sweep (retainSent response) clients.list clients.chans
  let clients := { clients with list := r.1, chans := r.2 }
  if clients.list.length ≠ before then clients.publishCount else clients

/-- Drop the clients that have hung up. -/
def reap : Clients :=
  if clients.list.any fun tx => (clients.chans tx).closed then
    { clients with list := clients.list.filter fun tx => !(clients.chans tx).closed }.publishCount
  else clients

def take : List ClientId × Clients :=
  (clients.list, { clients with list := [] }.publishCount)

/-- `try_send` the same response to each, whatever comes of it. -/
def sendEach (response : Response) (txs : List ClientId) (clients : Clients) : Clients :=
  { clients with chans := (Lib.sweep (retainSent response) txs clients.chans).2 }

/-- Report a failure to everyone and forget them. -/
def abort (reason : String) : Clients :=
  let r := clients.take
  sendEach (.error reason) r.1 r.2

/-- Tell everyone the stream is over and forget them. -/
def end_ : Clients :=
  let r := clients.take
  sendEach .streamEnd r.1 r.2

/-- A client acts on its own queue. -/
def act (tx : ClientId) (a : ClientAct) : Clients :=
  { clients with chans := Function.update clients.chans tx ((clients.chans tx).act a) }

end Clients

/-! ## Interleavings -/

/-- One operation on the list, or one act of one client. -/
inductive ClientOp where
  | add (tx : ClientId)
  | broadcast (response : Response)
  | reap
  | abort (reason : String)
  | end_
  | act (tx : ClientId) (a : ClientAct)
  deriving DecidableEq, Repr

def Clients.apply (clients : Clients) : ClientOp → Clients
  | .add tx => clients.add tx
  | .broadcast response => clients.broadcast response
  | .reap => clients.reap
  | .abort reason => clients.abort reason
  | .end_ => clients.end_
  | .act tx a => clients.act tx a

/-- The operations in the order they are made. -/
def Clients.run (clients : Clients) (ops : List ClientOp) : Clients := ops.foldl Clients.apply clients

end Btwattch2
