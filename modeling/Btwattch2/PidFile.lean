/-
Btwattch2.PidFile — any number of agents starting and stopping on one socket
path and one pid path (`PidFile::claim`, `take_over`, `AgentFiles::drop` of
`agent/server.rs`, `remove_files` of `agent/mod.rs`).

Each process runs `take_over` once and later exits. A label is one system call
of one process; a run is any interleaving of such calls. The file system is
modelled as far as these calls see it: what the two paths name, and which
process holds the lock of which inode. Locks belong to inodes, not to paths, and
an inode that has been unlinked stays locked as long as it is held open.
-/
import Mathlib.Logic.Function.Basic
import Btwattch2.Lib.Transition

namespace Btwattch2.PidFile

abbrev Proc := Nat
abbrev Inode := Nat

/-- How far a process that holds the claim has come. -/
inductive Stage where
  /-- `PidFile::claim` has returned. -/
  | claimed
  /-- `cleanup_stale` got no answer to its ping. -/
  | probed
  /-- The leftover socket is unlinked and the `AgentFiles` guard is built. -/
  | cleaned
  | bound
  /-- The pid is written and `take_over` has returned; nobody is accepting yet. -/
  | listening
  /-- In `accept_loop`, where pings are answered. -/
  | accepting
  /-- Bailing out of `cleanup_stale`: the claim goes, and there is no guard. -/
  | bailing
  /-- In `AgentFiles::drop`, with the socket still to unlink. -/
  | dropping
  /-- In `AgentFiles::drop`, with the pid file still to unlink. -/
  | droppingPid
  /-- Both paths are unlinked and the pid file is still open. -/
  | unlinked
  deriving DecidableEq, Repr

/-- Where a process is. -/
inductive Phase where
  | start
  /-- The pid path has been opened, the lock not yet tried. -/
  | opened (fd : Inode)
  /-- Between a successful claim and its release. -/
  | holding (fd : Inode) (stage : Stage)
  | gone
  deriving DecidableEq, Repr

structure World where
  /-- The inode the pid path names. -/
  pid : Option Inode
  /-- The process whose bound socket the socket path names. -/
  socket : Option Proc
  /-- The next inode to be created. -/
  fresh : Inode
  lock : Inode → Option Proc
  phase : Proc → Phase

inductive Syscall where
  /-- Open the pid path, creating it when there is none. -/
  | open
  | openFails
  /-- A non-blocking exclusive `flock` on the opened inode. -/
  | flock
  /-- The ping of `cleanup_stale`. A serving agent may be too slow to answer it. -/
  | probe (answered : Bool)
  | unlinkStale
  | bind (ok : Bool)
  | writePid (ok : Bool)
  | accept
  /-- An error, a signal or `agent stop`: the guard starts to drop. -/
  | exit
  | unlinkSocket
  | unlinkPid
  /-- Close the pid file, which releases its lock. -/
  | close
  /-- The process dies, and the kernel closes its files. -/
  | crash
  deriving DecidableEq, Repr

namespace World

variable (w : World)

def goto (p : Proc) (ph : Phase) : World := { w with phase := Function.update w.phase p ph }

/-- The process closes the inode it holds the lock of and is gone. -/
def release (p : Proc) (fd : Inode) : World :=
  { w with lock := Function.update w.lock fd none, phase := Function.update w.phase p .gone }

/-- An agent answers pings on the socket path. -/
def serves : Bool :=
  match w.socket with
  | some q =>
    match w.phase q with
    | .holding _ .accepting => true
    | _ => false
  | none => false

/-- The process is between a successful claim and its release. -/
def Holds (p : Proc) : Prop := ∃ fd stage, w.phase p = .holding fd stage

/-- One system call of one process, where its program makes that call. -/
def step (w : World) : Proc × Syscall → Option World
  | (p, call) =>
    match w.phase p, call with
    | .start, .open =>
      match w.pid with
      | some i => some (w.goto p (.opened i))
      | none => some { w.goto p (.opened w.fresh) with pid := some w.fresh, fresh := w.fresh + 1 }
    | .start, .openFails => some (w.goto p .gone)
    | .opened i, .flock =>
      match w.lock i with
      | none => some { w.goto p (.holding i .claimed) with lock := Function.update w.lock i (some p) }
      -- `EWOULDBLOCK`: an agent is already running
      | some _ => some (w.goto p .gone)
    | .holding i .claimed, .probe true =>
      if w.serves then some (w.goto p (.holding i .bailing)) else none
    | .holding i .claimed, .probe false => some (w.goto p (.holding i .probed))
    | .holding i .probed, .unlinkStale =>
      some { w.goto p (.holding i .cleaned) with socket := none }
    | .holding i .cleaned, .bind true =>
      match w.socket with
      | none => some { w.goto p (.holding i .bound) with socket := some p }
      | some _ => none
    | .holding i .cleaned, .bind false => some (w.goto p (.holding i .dropping))
    | .holding i .bound, .writePid true => some (w.goto p (.holding i .listening))
    | .holding i .bound, .writePid false => some (w.goto p (.holding i .dropping))
    | .holding i .listening, .accept => some (w.goto p (.holding i .accepting))
    | .holding i .listening, .exit => some (w.goto p (.holding i .dropping))
    | .holding i .accepting, .exit => some (w.goto p (.holding i .dropping))
    | .holding i .dropping, .unlinkSocket =>
      some { w.goto p (.holding i .droppingPid) with socket := none }
    | .holding i .droppingPid, .unlinkPid =>
      some { w.goto p (.holding i .unlinked) with pid := none }
    | .holding i .unlinked, .close => some (w.release p i)
    | .holding i .bailing, .close => some (w.release p i)
    | .holding i _, .crash => some (w.release p i)
    | .start, .crash => some (w.goto p .gone)
    | .opened _, .crash => some (w.goto p .gone)
    | _, _ => none

/-- Before any process has made its first call: what earlier agents left behind
may lie at either path, and nothing is locked. -/
structure Initial : Prop where
  phase : ∀ p, w.phase p = .start ∨ w.phase p = .gone
  lock : ∀ i, w.lock i = none

/-- Nothing at either path. -/
def init : World := ⟨none, none, 0, fun _ => none, fun _ => .start⟩

theorem init_initial : init.Initial := ⟨fun _ => .inl rfl, fun _ => rfl⟩

end World

/-! ## What the claim is for -/

/-- At most one process is between a successful claim and its release. -/
def AtMostOne (w : World) : Prop := ∀ p q, w.Holds p → w.Holds q → p = q

/-- The call, if it unlinks the socket path, does not take the socket bound by
another process that still holds a claim. -/
def SparesOthers (w : World) : Proc × Syscall → Prop
  | (p, call) => call = .unlinkStale ∨ call = .unlinkSocket →
      ∀ q, q ≠ p → w.socket = some q → ¬ w.Holds q

/-- A lock that is granted is granted on the inode the pid path still names, and
not between another process unlinking that path and closing its pid file. -/
def LocksNamed (w : World) : Proc × Syscall → Prop
  | (p, call) => call = .flock → ∀ fd, w.phase p = .opened fd → w.lock fd = none →
      w.pid = some fd ∧ ∀ q i, w.phase q ≠ .holding i .unlinked

end Btwattch2.PidFile
