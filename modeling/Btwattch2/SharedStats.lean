/-
Btwattch2.SharedStats — `AgentStats` as its two sides share it: the actor's calls
and one call of `reading`, an atomic access at a time.

Each load or store of an atomic is one step, and so is each section that holds
the lock of `latest`. `Instant::now` and `elapsed` are read inside such a section.
-/
import Btwattch2.Status
import Btwattch2.Lib.Transition

namespace Btwattch2

/-- What the actor's calls do to the shared cells, one step each. -/
inductive Access where
  | fetchAddSamples
  | fetchAddReconnects
  | storeConnected (connected : Bool)
  | lockLatest (m : Measurement)
  deriving DecidableEq, Repr

def AgentStats.access (stats : AgentStats) (now : Nat) : Access → AgentStats
  | .fetchAddSamples => { stats with samples := stats.samples + 1 }
  | .fetchAddReconnects => { stats with reconnects := stats.reconnects + 1 }
  | .storeConnected connected => { stats with connected }
  | .lockLatest m => { stats with latest := some ⟨m, now⟩ }

/-- The section of `reading` under the lock, with the flag loaded before it. -/
def AgentStats.lockedReading (stats : AgentStats) (now : Nat) (connected : Bool) : Reading :=
  { measurement := stats.latest.map Sample.measurement,
    fresh := connected && stats.latest.any fun s => now - s.arrived ≤ stats.staleAfter }

/-- The calls the actor makes. -/
inductive StatsCall where
  | recordSample (m : Measurement)
  | setConnected (connected : Bool)
  | recordReconnect
  deriving DecidableEq, Repr

def StatsCall.accesses : StatsCall → List Access
  | .recordSample m => [.fetchAddSamples, .storeConnected true, .lockLatest m]
  | .setConnected connected => [.storeConnected connected]
  | .recordReconnect => [.fetchAddReconnects, .storeConnected true]

/-- How far the call of `reading` has come. -/
inductive Reader where
  | idle
  | entered
  | loaded (connected : Bool)
  | locked (reading : Reading)
  | returned (reading : Reading)
  deriving DecidableEq, Repr

/-- Between the start of the call and its end. -/
def Reader.InCall : Reader → Prop
  | .entered | .loaded _ | .locked _ => True
  | .idle | .returned _ => False

structure SharedStats where
  stats : AgentStats
  now : Nat
  /-- What is left of the call the actor is in. -/
  pending : List Access
  reader : Reader
  deriving DecidableEq, Repr

namespace SharedStats

/-- Between two calls of the actor, before the call of `reading`. -/
def start (stats : AgentStats) (now : Nat) : SharedStats := ⟨stats, now, [], .idle⟩

inductive Move where
  | tick (nanos : Nat)
  | call (call : StatsCall)
  | access
  | enter
  | load
  | lock
  | leave
  deriving DecidableEq, Repr

def step (s : SharedStats) : Move → Option SharedStats
  | .tick nanos => some { s with now := s.now + nanos }
  | .call call => if s.pending = [] then some { s with pending := call.accesses } else none
  | .access =>
    match s.pending with
    | [] => none
    | a :: pending => some { s with stats := s.stats.access s.now a, pending }
  | .enter =>
    match s.reader with
    | .idle => some { s with reader := .entered }
    | _ => none
  | .load =>
    match s.reader with
    | .entered => some { s with reader := .loaded s.stats.connected }
    | _ => none
  | .lock =>
    match s.reader with
    | .loaded connected =>
      some { s with reader := .locked (s.stats.lockedReading s.now connected) }
    | _ => none
  | .leave =>
    match s.reader with
    | .locked reading => some { s with reader := .returned reading }
    | _ => none

end SharedStats

/-! ## Against the calls taken in one step -/

theorem recordSample_eq (stats : AgentStats) (now : Nat) (m : Measurement) :
    (StatsCall.recordSample m).accesses.foldl (·.access now ·) stats = stats.recordSample now m :=
  rfl

theorem setConnected_eq (stats : AgentStats) (now : Nat) (connected : Bool) :
    (StatsCall.setConnected connected).accesses.foldl (·.access now ·) stats =
      stats.setConnected connected := rfl

theorem recordReconnect_eq (stats : AgentStats) (now : Nat) :
    StatsCall.recordReconnect.accesses.foldl (·.access now ·) stats = stats.recordReconnect := rfl

/-- A call of `reading` that nothing interrupts. -/
theorem reading_eq (stats : AgentStats) (now : Nat) :
    Lib.Transition.run SharedStats.step (.start stats now) [.enter, .load, .lock, .leave] =
      some ⟨stats, now, [], .returned (stats.reading now)⟩ := rfl

end Btwattch2
