/-
Btwattch2.Permissions — who may reach the files of an agent (`ensure_socket_dir`,
`bind_socket` and `Umask` of `agent/server.rs`).

Any number of agents start and exit on one directory, one pid path and one socket
path, each with the umask it inherited and the mode it was asked for. A label is one
system call of one agent, and a run is any interleaving of them. Which of them may
claim the pid file is left open, so that a race for it is among the runs; `PidFile`
is about the claim.
-/
import Mathlib.Logic.Function.Basic
import Btwattch2.Cli
import Btwattch2.Lib.Transition

namespace Btwattch2.Permissions

abbrev Proc := Nat

/-- `libc::mode_t`. -/
abbrev ModeT := BitVec 32

/-- What an agent is started with. -/
structure Setup where
  umask : ModeT
  mode : SocketMode

def bits (mode : SocketMode) : ModeT := BitVec.ofNat 32 mode.bits

/-- The mask of `Umask::narrowed_to`. -/
def narrowed (mode : SocketMode) : ModeT := ~~~(bits mode) &&& 0o777

/-- What a call that creates a file asks for, less what the umask withholds. -/
def created (requested umask : ModeT) : ModeT := requested &&& ~~~umask

/-- A file at a path. -/
structure Node where
  perm : ModeT
  /-- The agent that made it, if one of these did. -/
  by_ : Option Proc
  /-- The agent that changed its mode last, if one of these did. -/
  setBy : Option Proc := none
  deriving DecidableEq, Repr

/-- How far an agent has come. -/
inductive Phase where
  | start
  /-- The directory is there. -/
  | placed
  /-- The pid file is open. -/
  | claimed
  /-- A leftover socket is unlinked and the guard is built. -/
  | cleaned
  /-- The umask is narrowed. -/
  | narrowed
  /-- `bind` has returned, well or not, with the umask to be restored. -/
  | bound (ok : Bool)
  /-- The socket is there and the umask is restored. -/
  | restored
  /-- `bind_socket` has returned. -/
  | listening
  /-- The guard drops. -/
  | dropping
  /-- The socket is unlinked, the pid file still to be. -/
  | droppingPid
  | gone
  deriving DecidableEq, Repr

structure World where
  dir : Option Node
  pid : Option Node
  socket : Option Node
  umask : Proc → ModeT
  phase : Proc → Phase

inductive Syscall where
  /-- Create the directory, if there is none. -/
  | mkdir (ok : Bool)
  /-- Open the pid path, creating it if there is none. -/
  | openPid (ok : Bool)
  /-- Another agent holds the claim, or answers. -/
  | refused
  /-- `remove_file`, here and below, with its error ignored. -/
  | unlinkStale (ok : Bool)
  | narrow
  | bind (ok : Bool)
  | restore
  | chmod (ok : Bool)
  /-- An error after the guard was built, a signal or `agent stop`. -/
  | exit
  | unlinkSocket (ok : Bool)
  | unlinkPid (ok : Bool)
  /-- The process dies. -/
  | crash
  deriving DecidableEq, Repr

/-- It is past the claim, and not at its end. -/
def Phase.holds : Phase → Bool
  | .start | .placed | .claimed | .gone => false
  | _ => true

namespace World

/-- No two agents are past the claim at once. -/
def Exclusive (w : World) : Prop :=
  ∀ p q, (w.phase p).holds = true → (w.phase q).holds = true → p = q

def goto (w : World) (p : Proc) (phase : Phase) : World :=
  { w with phase := Function.update w.phase p phase }

/-- One system call of one agent, where its program makes that call. -/
def step (setup : Proc → Setup) (w : World) : Proc × Syscall → Option World
  | (p, call) =>
    match w.phase p, call with
    | .start, .mkdir true =>
      some { w.goto p .placed with
        dir := w.dir.or (some ⟨created 0o700 (w.umask p), some p, none⟩) }
    | .start, .mkdir false => some (w.goto p .gone)
    | .placed, .openPid true =>
      some { w.goto p .claimed with
        pid := w.pid.or (some ⟨created 0o600 (w.umask p), some p, none⟩) }
    | .placed, .openPid false => some (w.goto p .gone)
    | .claimed, .refused => some (w.goto p .gone)
    | .claimed, .unlinkStale ok =>
      some { w.goto p .cleaned with socket := if ok then none else w.socket }
    | .cleaned, .narrow =>
      some { w.goto p .narrowed with
        umask := Function.update w.umask p (narrowed (setup p).mode &&& 0o777) }
    | .narrowed, .bind true =>
      match w.socket with
      | none => some { w.goto p (.bound true) with
          socket := some ⟨created 0o777 (w.umask p), some p, none⟩ }
      | some _ => none
    | .narrowed, .bind false => some (w.goto p (.bound false))
    | .bound ok, .restore =>
      some { w.goto p (if ok then .restored else .dropping) with
        umask := Function.update w.umask p (setup p).umask }
    -- by its path: whatever socket is there now
    | .restored, .chmod true =>
      match w.socket with
      | some node => some { w.goto p .listening with
          socket := some { node with perm := bits (setup p).mode, setBy := some p } }
      | none => none
    | .restored, .chmod false => some (w.goto p .dropping)
    | .listening, .exit => some (w.goto p .dropping)
    | .dropping, .unlinkSocket ok =>
      some { w.goto p .droppingPid with socket := if ok then none else w.socket }
    | .droppingPid, .unlinkPid ok =>
      some { w.goto p .gone with pid := if ok then none else w.pid }
    | .gone, _ => none
    | _, .crash => some (w.goto p .gone)
    | _, _ => none

/-- Before any agent has made its first call: what lies at the paths is nobody's. -/
structure Initial (setup : Proc → Setup) (w : World) : Prop where
  phase : ∀ p, w.phase p = .start
  umask : ∀ p, w.umask p = (setup p).umask
  nodes : ∀ node, w.dir = some node ∨ w.pid = some node ∨ w.socket = some node → node.by_ = none

end World

end Btwattch2.Permissions
