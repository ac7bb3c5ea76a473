/-
Btwattch2.Paths — where an agent keeps its socket and its pid file (`AgentPaths`
of `agent/mod.rs`), and what its start and its exit do there.

A path is its bytes, as `OsStr` has them on Unix. What it names depends on the file
system: its directory is looked up, through `.`, `..`, symbolic links and the working
directory, and its name is an entry there. The calls made here do not follow a link in
the name itself. Every entry is taken to be a file of its own.
-/
import Mathlib.Logic.Function.Basic

namespace Btwattch2.Paths

/-! ## `std::path` -/

abbrev OsStr := List UInt8

def sep : UInt8 := 0x2F
def dot : UInt8 := 0x2E

inductive Component where
  | rootDir
  | curDir
  | parentDir
  | normal (name : OsStr)
  deriving DecidableEq, Repr

/-- Segments that name no component: what is between two separators, and `.`. -/
def skipped (segment : OsStr) : Bool := segment == [] || segment == [dot]

def component? (segment : OsStr) : Option Component :=
  if skipped segment then none
  else if segment = [dot, dot] then some .parentDir
  else some (.normal segment)

/-- `/` in front is the root, and `.` in front is kept. -/
def leading : List OsStr → List Component
  | [] :: _ :: _ => [.rootDir]
  | [0x2E] :: _ => [.curDir]
  | _ => []

def components (path : OsStr) : List Component :=
  leading (path.splitOn sep) ++ (path.splitOn sep).filterMap component?

/-- The last component, if that is a name. -/
def fileName (path : OsStr) : Option OsStr :=
  match (components path).getLast? with
  | some (.normal name) => some name
  | _ => none

/-- The components in front of the last. -/
def parent (path : OsStr) : List Component := (components path).dropLast

/-- What comes before the last dot of a file name, and what comes after it. -/
def rsplitFileAtDot (file : OsStr) : Option OsStr × Option OsStr :=
  if file = [dot, dot] then (some file, none)
  else
    let after := (file.reverse.takeWhile (· != dot)).reverse
    match file.reverse.dropWhile (· != dot) with
    | [] => (none, some after)
    -- a dot in front of everything is part of the name
    | [_] => (some file, none)
    | _ :: before => (some before.reverse, some after)

def fileStem (path : OsStr) : Option OsStr :=
  ((fileName path).map rsplitFileAtDot).bind fun (before, after) => before.or after

def extension (path : OsStr) : Option OsStr :=
  ((fileName path).map rsplitFileAtDot).bind fun (before, after) => before.bind fun _ => after

/-- The bytes up to the file name: every segment before the last that names a
component. -/
def untilFileName (path : OsStr) : OsStr :=
  (((path.splitOn sep).reverse.dropWhile skipped).drop 1).reverse.flatMap (· ++ [sep])

/-- What stands behind the stem of the file name makes way for the extension. A path
without a file name stays as it is. -/
def withExtension (path ext : OsStr) : OsStr :=
  match fileStem path with
  | none => path
  | some stem => untilFileName path ++ stem ++ dot :: ext

/-! ## The paths of an agent -/

structure AgentPaths where
  socket : OsStr
  pid : OsStr
  deriving DecidableEq, Repr

/-- `pid`. -/
def pidExtension : OsStr := [0x70, 0x69, 0x64]

def AgentPaths.pidFor (socket : OsStr) : OsStr := withExtension socket pidExtension

def pathsFromSocket (socket : OsStr) : AgentPaths := ⟨socket, AgentPaths.pidFor socket⟩

/-! ## Its files -/

/-- The directory that some components lead to, however they are spelled. -/
structure FileSystem (Dir : Type) where
  lookup : List Component → Dir

/-- What a path names: an entry of a directory, or a directory itself. -/
inductive Place (Dir : Type) where
  | entry (dir : Dir) (name : OsStr)
  | directory (dir : Dir)
  deriving DecidableEq, Repr

abbrev Agent := Nat

/-- What is at a place. -/
inductive Node where
  | socket (bound : Agent)
  | file (lock : Option Agent)
  deriving DecidableEq, Repr

inductive ClaimError where
  /-- A socket cannot be opened. -/
  | failedToOpen
  | alreadyRunning
  deriving DecidableEq, Repr

abbrev Files (Dir : Type) := Place Dir → Option Node

section FileSystem

variable {Dir : Type} (fs : FileSystem Dir)

/-- The place a path names. -/
def FileSystem.place (path : OsStr) : Place Dir :=
  match fileName path with
  | some name => .entry (fs.lookup (parent path)) name
  | none => .directory (fs.lookup (components path))

variable [DecidableEq Dir]

/-- `PidFile::claim`: open the pid file, creating it when there is none, and lock it. -/
def claim (paths : AgentPaths) (agent : Agent) (files : Files Dir) :
    Except ClaimError (Files Dir) :=
  match files (fs.place paths.pid) with
  | some (.socket _) => .error .failedToOpen
  | some (.file (some _)) => .error .alreadyRunning
  | some (.file none) | none =>
    .ok (Function.update files (fs.place paths.pid) (some (.file (some agent))))

def removeFile (path : OsStr) (files : Files Dir) : Files Dir :=
  Function.update files (fs.place path) none

def AgentPaths.removeFiles (paths : AgentPaths) (files : Files Dir) : Files Dir :=
  removeFile fs paths.pid (removeFile fs paths.socket files)

/-- The agent listens on its socket and holds its claim. -/
structure Serving (paths : AgentPaths) (agent : Agent) (files : Files Dir) : Prop where
  socket : files (fs.place paths.socket) = some (.socket agent)
  pid : files (fs.place paths.pid) = some (.file (some agent))

end FileSystem

end Btwattch2.Paths
