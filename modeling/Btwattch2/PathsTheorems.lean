/-
Btwattch2.PathsTheorems — when two agents keep out of each other's way.

The pid file of a socket path is its directory, the stem of its file name, and
`.pid` (`Named.pidFor`). So two sockets in one directory share a pid file when their
names differ in the extension only, and a socket called `.pid` is its own pid file.
Whether two paths lead to one directory is for the file system to say, as it may be
spelled in many ways.
-/
import Mathlib.Data.List.TakeWhile
import Btwattch2.Paths

namespace Btwattch2.Paths

/-! ## Segments -/

theorem sep_not_mem_of_mem_splitOn {path segment : OsStr} (h : segment ∈ path.splitOn sep) :
    sep ∉ segment := by
  induction path generalizing segment with
  | nil =>
    rw [List.splitOn_nil] at h
    simp [List.mem_singleton.mp h]
  | cons b path ih =>
    rw [List.splitOn_cons_eq_if_modifyHead] at h
    split at h
    · rcases List.mem_cons.mp h with rfl | h
      · simp
      · exact ih h
    · rename_i hb
      cases hsplit : path.splitOn sep with
      | nil => simp [hsplit] at h
      | cons first rest =>
        rw [hsplit, List.modifyHead_cons] at h
        rcases List.mem_cons.mp h with rfl | h
        · have hfirst : sep ∉ first := ih (by simp [hsplit])
          intro hmem
          rcases List.mem_cons.mp hmem with rfl | hmem
          · simp at hb
          · exact hfirst hmem
        · exact ih (by simp [hsplit, h])

/-- A segment that names a component. -/
theorem component?_of_not_skipped {segment : OsStr} (h : skipped segment = false) :
    component? segment = some (if segment = [dot, dot] then .parentDir else .normal segment) := by
  unfold component?
  rw [if_neg (by simp [h])]
  split <;> rfl

theorem component?_eq_none {segment : OsStr} (h : skipped segment = true) :
    component? segment = none := by
  simp [component?, h]

/-- The component a name is. -/
theorem component?_eq_normal {segment name : OsStr} :
    component? segment = some (.normal name) ↔
      segment = name ∧ skipped name = false ∧ name ≠ [dot, dot] := by
  unfold component?
  constructor
  · intro h
    split at h
    · cases h
    · split at h
      · cases h
      · simp_all
  · rintro ⟨rfl, hskip, hdots⟩
    simp [hskip, hdots]

/-- Joining segments again. -/
theorem flatMap_append_sep (segments : List OsStr) (last : OsStr) :
    segments.flatMap (· ++ [sep]) ++ last = [sep].intercalate (segments ++ [last]) := by
  induction segments with
  | nil => simp [List.intercalate]
  | cons segment segments ih =>
    rw [List.flatMap_cons, List.append_assoc, ih]
    cases segments <;> simp [List.intercalate, List.intersperse]

/-! ## The file name -/

/-- A path with a file name: the segments before it, and those behind it that name
nothing. -/
structure Named (path : OsStr) (before : List OsStr) (name : OsStr)
    (behind : List OsStr) : Prop where
  split : path.splitOn sep = before ++ name :: behind
  name : component? name = some (.normal name)
  behind : ∀ segment ∈ behind, skipped segment = true

/-- What leads a path of several segments is read off the first. -/
theorem leading_cons (first : OsStr) {rest rest' : List OsStr} (h : rest ≠ []) (h' : rest' ≠ []) :
    leading (first :: rest) = leading (first :: rest') := by
  obtain ⟨x, xs, rfl⟩ := List.exists_cons_of_ne_nil h
  obtain ⟨y, ys, rfl⟩ := List.exists_cons_of_ne_nil h'
  unfold leading
  split <;> split <;> simp_all

/-- A name alone leads no path. -/
theorem leading_name {name : OsStr} (h : skipped name = false) (rest : List OsStr) :
    leading (name :: rest) = [] := by
  unfold leading
  split <;> simp_all [skipped, dot]

theorem leading_getLast? (segments : List OsStr) (name : OsStr) :
    (leading segments).getLast? ≠ some (.normal name) := by
  unfold leading
  split <;> simp

/-- The last segment that names a component. -/
theorem dropWhile_reverse_of_last {segments before behind : List OsStr} {name : OsStr}
    (h : segments = before ++ name :: behind) (hname : skipped name = false)
    (hbehind : ∀ segment ∈ behind, skipped segment = true) :
    segments.reverse.dropWhile skipped = name :: before.reverse := by
  have hreverse : segments.reverse = behind.reverse ++ (name :: before.reverse) := by simp [h]
  rw [hreverse, List.dropWhile_append_of_pos (by simpa using hbehind), List.dropWhile_cons_of_neg]
  simpa using hname

theorem filterMap_behind {behind : List OsStr} (h : ∀ segment ∈ behind, skipped segment = true) :
    behind.filterMap component? = [] :=
  List.filterMap_eq_nil_iff.mpr fun segment hsegment => component?_eq_none (h segment hsegment)

namespace Named

variable {path name : OsStr} {before behind : List OsStr} (h : Named path before name behind)

include h

theorem not_skipped : skipped name = false := (component?_eq_normal.mp h.name).2.1

theorem components_eq : components path =
    leading (path.splitOn sep) ++ before.filterMap component? ++ [.normal name] := by
  rw [components, h.split, List.filterMap_append, List.filterMap_cons, h.name,
    filterMap_behind h.behind, List.append_assoc]

theorem fileName_eq : fileName path = some name := by
  rw [fileName, h.components_eq]
  simp

theorem parent_eq : parent path = leading (path.splitOn sep) ++ before.filterMap component? := by
  rw [parent, h.components_eq]
  simp

theorem components_eq_parent : components path = parent path ++ [.normal name] := by
  rw [h.parent_eq, h.components_eq]

theorem untilFileName_eq : untilFileName path = before.flatMap (· ++ [sep]) := by
  rw [untilFileName, dropWhile_reverse_of_last h.split h.not_skipped h.behind]
  simp

/-- Another name in the same place. -/
theorem renamed {other : OsStr} (hother : component? other = some (.normal other))
    (hsep : sep ∉ other) : Named (untilFileName path ++ other) before other [] := by
  refine ⟨?_, hother, by simp⟩
  rw [h.untilFileName_eq, flatMap_append_sep, List.splitOn_intercalate _ _ (by simp)]
  intro segment hsegment
  rcases List.mem_append.mp hsegment with hsegment | hsegment
  · exact sep_not_mem_of_mem_splitOn (by rw [h.split]; simp [hsegment])
  · rwa [List.mem_singleton.mp hsegment]

/-- The directory of another name in the same place is the same. -/
theorem parent_renamed {other : OsStr} (hother : component? other = some (.normal other))
    (hsep : sep ∉ other) : parent (untilFileName path ++ other) = parent path := by
  have hrenamed := h.renamed hother hsep
  have hskip := (component?_eq_normal.mp hother).2.1
  rw [h.parent_eq, hrenamed.parent_eq, hrenamed.split, h.split]
  congr 1
  -- what leads a path is read off what is before the name, or off the name alone
  have hname := h.not_skipped
  cases before with
  | nil =>
    rw [List.nil_append, List.nil_append, leading_name hskip, leading_name hname]
  | cons first before =>
    rw [List.cons_append, List.cons_append]
    exact leading_cons first (by simp) (by simp)

end Named

theorem exists_named {path name : OsStr} (h : fileName path = some name) :
    ∃ before behind, Named path before name behind := by
  have hlast : (components path).getLast? = some (.normal name) := by
    unfold fileName at h
    split at h
    · rename_i hlast
      rwa [Option.some.inj h] at hlast
    · cases h
  cases hdrop : (path.splitOn sep).reverse.dropWhile skipped with
  | nil =>
    -- no segment names a component
    have hnone : (path.splitOn sep).filterMap component? = [] := by
      refine filterMap_behind fun segment hsegment => ?_
      have hall := List.dropWhile_eq_nil_iff.mp hdrop
      exact hall segment (List.mem_reverse.mpr hsegment)
    rw [components, hnone, List.append_nil] at hlast
    exact absurd hlast (leading_getLast? _ _)
  | cons last before =>
    have hskip : skipped last = false := by
      have hhead := List.head?_dropWhile_not skipped (path.splitOn sep).reverse
      simpa [hdrop] using hhead
    have hsplit : path.splitOn sep = before.reverse ++ last ::
        ((path.splitOn sep).reverse.takeWhile skipped).reverse := by
      have happend := List.takeWhile_append_dropWhile (p := skipped)
        (l := (path.splitOn sep).reverse)
      rw [hdrop] at happend
      have hreverse := congrArg List.reverse happend
      simpa using hreverse.symm
    have hbehind : ∀ segment ∈ ((path.splitOn sep).reverse.takeWhile skipped).reverse,
        skipped segment = true := by
      intro segment hsegment
      exact List.mem_takeWhile_imp (List.mem_reverse.mp hsegment)
    have hcomponent := component?_of_not_skipped hskip
    have hlast' : component? last = some (.normal name) := by
      rw [components, hsplit, List.filterMap_append, List.filterMap_cons, hcomponent,
        filterMap_behind hbehind] at hlast
      rw [hcomponent]
      simpa using hlast
    obtain ⟨rfl, -, -⟩ := component?_eq_normal.mp hlast'
    exact ⟨before.reverse, _, hsplit, hlast', hbehind⟩

/-! ## Stem and extension -/

/-- A dot that is not in front splits the name at the last one. -/
theorem rsplitFileAtDot_append {stem ext : OsStr} (hstem : stem ≠ []) (hext : dot ∉ ext)
    (hdots : stem ++ dot :: ext ≠ [dot, dot]) :
    rsplitFileAtDot (stem ++ dot :: ext) = (some stem, some ext) := by
  have hreverse : (stem ++ dot :: ext).reverse = ext.reverse ++ (dot :: stem.reverse) := by simp
  have hall : ∀ b ∈ ext.reverse, (b != dot) = true := by
    intro b hb
    simp only [bne_iff_ne, ne_eq]
    rintro rfl
    exact hext (List.mem_reverse.mp hb)
  obtain ⟨b, before, hbefore⟩ := List.exists_cons_of_ne_nil (List.reverse_ne_nil_iff.mpr hstem)
  unfold rsplitFileAtDot
  rw [if_neg hdots, hreverse, List.dropWhile_append_of_pos hall, List.takeWhile_append_of_pos hall,
    List.dropWhile_cons_of_neg (by simp), List.takeWhile_cons_of_neg (by simp), hbefore]
  simp [← hbefore]

/-- A name is its stem and its extension, or it has no extension. -/
theorem rsplitFileAtDot_cases {file : OsStr} (hdots : file ≠ [dot, dot]) :
    (∃ stem ext, stem ≠ [] ∧ dot ∉ ext ∧ file = stem ++ dot :: ext) ∨
      rsplitFileAtDot file = (none, some file) ∨ rsplitFileAtDot file = (some file, none) := by
  have hall := List.takeWhile_append_dropWhile (p := (· != dot)) (l := file.reverse)
  have hnotdot : ∀ b ∈ file.reverse.takeWhile (· != dot), b ≠ dot := fun b hb => by
    simpa using List.mem_takeWhile_imp hb
  cases hdrop : file.reverse.dropWhile (· != dot) with
  | nil =>
    refine .inr (.inl ?_)
    rw [hdrop, List.append_nil] at hall
    unfold rsplitFileAtDot
    rw [if_neg hdots, hdrop, hall, List.reverse_reverse]
  | cons b before =>
    have hb : b = dot := by
      have hhead := List.head?_dropWhile_not (· != dot) file.reverse
      simpa [hdrop] using hhead
    cases before with
    | nil =>
      refine .inr (.inr ?_)
      unfold rsplitFileAtDot
      rw [if_neg hdots, hdrop]
    | cons c before =>
      refine .inl ⟨(c :: before).reverse, (file.reverse.takeWhile (· != dot)).reverse,
        by simp, ?_, ?_⟩
      · intro hmem
        exact hnotdot dot (List.mem_reverse.mp hmem) rfl
      · have hfile := congrArg List.reverse hall
        rw [hdrop, hb, List.reverse_append, List.reverse_reverse] at hfile
        simpa using hfile.symm

section Named

variable {path name : OsStr} {before behind : List OsStr} (h : Named path before name behind)

include h

/-- The stem and the extension of a path with a file name. -/
theorem Named.stem_cases :
    (∃ stem ext, stem ≠ [] ∧ dot ∉ ext ∧ name = stem ++ dot :: ext ∧
      fileStem path = some stem ∧ extension path = some ext) ∨
    fileStem path = some name ∧ extension path = none := by
  have hdots := (component?_eq_normal.mp h.name).2.2
  rcases rsplitFileAtDot_cases hdots with ⟨stem, ext, hstem, hext, rfl⟩ | hsplit | hsplit
  · have hsplit := rsplitFileAtDot_append hstem hext hdots
    exact .inl ⟨stem, ext, hstem, hext, rfl, by simp [fileStem, h.fileName_eq, hsplit],
      by simp [extension, h.fileName_eq, hsplit]⟩
  · exact .inr ⟨by simp [fileStem, h.fileName_eq, hsplit],
      by simp [extension, h.fileName_eq, hsplit]⟩
  · exact .inr ⟨by simp [fileStem, h.fileName_eq, hsplit],
      by simp [extension, h.fileName_eq, hsplit]⟩

/-- The stem is not empty, and it is part of the name. -/
theorem Named.exists_stem : ∃ stem, fileStem path = some stem ∧ stem ≠ [] ∧ sep ∉ stem := by
  have hsep : sep ∉ name := sep_not_mem_of_mem_splitOn (by rw [h.split]; simp)
  rcases h.stem_cases with ⟨stem, ext, hstem, -, rfl, hfile, -⟩ | ⟨hfile, -⟩
  · exact ⟨stem, hfile, hstem, fun hmem => hsep (by simp [hmem])⟩
  · refine ⟨name, hfile, ?_, hsep⟩
    rintro rfl
    exact absurd h.not_skipped (by decide)

end Named

/-! ## The pid file -/

/-- The pid file's name is a name. -/
theorem component?_pid {stem : OsStr} (h : stem ≠ []) :
    component? (stem ++ dot :: pidExtension) = some (.normal (stem ++ dot :: pidExtension)) := by
  have hlong : 4 < (stem ++ dot :: pidExtension).length := by
    have hpos := List.length_pos_iff.mpr h
    simp only [List.length_append, List.length_cons, pidExtension, List.length_nil]
    omega
  refine component?_eq_normal.mpr ⟨rfl, ?_, ?_⟩
  · rw [skipped, Bool.or_eq_false_iff, beq_eq_false_iff_ne, beq_eq_false_iff_ne]
    constructor <;> intro heq <;> rw [heq] at hlong <;> simp at hlong
  · intro heq
    rw [heq] at hlong
    simp at hlong

/-- **The pid file of a socket path**: its directory, the stem of its name, `.pid`. -/
theorem Named.pidFor {socket name stem : OsStr} {before behind : List OsStr}
    (h : Named socket before name behind) (hstem : fileStem socket = some stem) :
    components (AgentPaths.pidFor socket) = parent socket ++
      [.normal (stem ++ dot :: pidExtension)] ∧
      extension (AgentPaths.pidFor socket) = some pidExtension := by
  obtain ⟨stem', hstem', hne, hsep⟩ := h.exists_stem
  obtain rfl : stem = stem' := Option.some.inj (hstem.symm.trans hstem')
  have hname := component?_pid hne
  have hsep' : sep ∉ stem ++ dot :: pidExtension := by
    simp only [List.mem_append, not_or]
    exact ⟨hsep, by decide⟩
  have hpid : AgentPaths.pidFor socket = untilFileName socket ++ (stem ++ dot :: pidExtension) := by
    rw [AgentPaths.pidFor, withExtension, hstem]
    exact List.append_assoc _ _ _
  have hrenamed := h.renamed hname hsep'
  have hsplit := rsplitFileAtDot_append hne (by decide : dot ∉ pidExtension)
    (component?_eq_normal.mp hname).2.2
  rw [hpid]
  exact ⟨by rw [hrenamed.components_eq_parent, h.parent_renamed hname hsep'],
    by simp [extension, hrenamed.fileName_eq, hsplit]⟩

/-- A path without a file name is its own pid file. -/
theorem pidFor_of_unnamed {socket : OsStr} (h : fileName socket = none) :
    AgentPaths.pidFor socket = socket := by
  simp [AgentPaths.pidFor, withExtension, fileStem, h]

/-! ## Places -/

section FileSystem

variable {Dir : Type} {fs : FileSystem Dir}

theorem place_eq_entry {path name : OsStr} (h : fileName path = some name) :
    fs.place path = .entry (fs.lookup (parent path)) name := by
  simp [FileSystem.place, h]

/-- The name of a path, and with it the extension, is read off its place. -/
theorem extension_congr {path path' : OsStr} (h : fs.place path = fs.place path') :
    extension path = extension path' := by
  have hname : fileName path = fileName path' := by
    unfold FileSystem.place at h
    split at h <;> split at h <;> simp_all
  simp [extension, hname]

/-- A path with a file name that does not end in `.pid`. -/
def OwnName (socket : OsStr) : Prop :=
  (fileName socket).isSome ∧ extension socket ≠ some pidExtension

instance (socket : OsStr) : Decidable (OwnName socket) := inferInstanceAs (Decidable (_ ∧ _))

/-- The pid file of a name of its own is not its socket. -/
theorem OwnName.exists_pid {socket : OsStr} (h : OwnName socket) (fs : FileSystem Dir) :
    ∃ stem, fileStem socket = some stem ∧ fs.place (AgentPaths.pidFor socket) =
      .entry (fs.lookup (parent socket)) (stem ++ dot :: pidExtension) ∧
      extension (AgentPaths.pidFor socket) = some pidExtension := by
  obtain ⟨name, hname⟩ := Option.isSome_iff_exists.mp h.1
  obtain ⟨before, behind, hnamed⟩ := exists_named hname
  obtain ⟨stem, hstem, -, -⟩ := hnamed.exists_stem
  obtain ⟨hpid, hext⟩ := hnamed.pidFor hstem
  refine ⟨stem, hstem, ?_, hext⟩
  have hfile : fileName (AgentPaths.pidFor socket) = some (stem ++ dot :: pidExtension) := by
    simp [fileName, hpid]
  have hparent : parent (AgentPaths.pidFor socket) = parent socket := by
    simp [parent, hpid]
  rw [place_eq_entry hfile, hparent]

/-- A socket that is its own pid file has no name of its own. -/
theorem ownName_of_pid_ne {socket : OsStr}
    (h : fs.place (AgentPaths.pidFor socket) ≠ fs.place socket) : OwnName socket := by
  cases hname : fileName socket with
  | none => exact absurd (congrArg fs.place (pidFor_of_unnamed hname)) h
  | some name =>
    refine ⟨by simp [hname], fun hext => h ?_⟩
    obtain ⟨before, behind, hnamed⟩ := exists_named hname
    rcases hnamed.stem_cases with ⟨stem, ext, -, -, rfl, hstem, hext'⟩ | ⟨-, hnone⟩
    · obtain rfl : ext = pidExtension := Option.some.inj (hext'.symm.trans hext)
      have hcomponents : components (AgentPaths.pidFor socket) = components socket := by
        rw [(hnamed.pidFor hstem).1, hnamed.components_eq_parent]
      simp [FileSystem.place, fileName, parent, hcomponents]
    · rw [hnone] at hext
      cases hext

variable (fs) in
/-- Two files that neither agent shares with the other. -/
structure Apart (paths other : AgentPaths) : Prop where
  sockets : fs.place paths.socket ≠ fs.place other.socket
  pids : fs.place paths.pid ≠ fs.place other.pid
  pid_socket : fs.place paths.pid ≠ fs.place other.socket
  socket_pid : fs.place paths.socket ≠ fs.place other.pid

theorem Apart.symm {paths other : AgentPaths} (h : Apart fs paths other) : Apart fs other paths :=
  ⟨h.sockets.symm, h.pids.symm, h.socket_pid.symm, h.pid_socket.symm⟩

/-! ## Two agents -/

variable [DecidableEq Dir]

variable (fs) in
/-- Whatever the other agent is doing, a start that its files stop would be stopped
without them. -/
def Unhindered (paths other : AgentPaths) : Prop :=
  ∀ agent agent' files, agent ≠ agent' → Serving fs other agent' files →
    ∀ e, claim fs paths agent files = .error e →
      ∃ e', claim fs paths agent (other.removeFiles fs files) = .error e'

variable (fs) in
/-- The exit of an agent leaves the other one's files alone. -/
def Spares (paths other : AgentPaths) : Prop :=
  ∀ agent files, Serving fs other agent files → Serving fs other agent (paths.removeFiles fs files)

variable (fs) in
/-- The agents on two sockets keep out of each other's way. -/
structure Independent (s₁ s₂ : OsStr) : Prop where
  pids : fs.place (pathsFromSocket s₁).pid ≠ fs.place (pathsFromSocket s₂).pid
  sockets : ∀ pid ∈ [(pathsFromSocket s₁).pid, (pathsFromSocket s₂).pid], ∀ socket ∈ [s₁, s₂],
    fs.place pid ≠ fs.place socket
  starts : Unhindered fs (pathsFromSocket s₁) (pathsFromSocket s₂)
  starts' : Unhindered fs (pathsFromSocket s₂) (pathsFromSocket s₁)
  exits : Spares fs (pathsFromSocket s₁) (pathsFromSocket s₂)
  exits' : Spares fs (pathsFromSocket s₂) (pathsFromSocket s₁)

theorem removeFile_ne {path : OsStr} {files : Files Dir} {place : Place Dir}
    (h : place ≠ fs.place path) : removeFile fs path files place = files place :=
  Function.update_of_ne h _ _

theorem Apart.unhindered {paths other : AgentPaths} (h : Apart fs paths other) :
    Unhindered fs paths other := by
  intro agent agent' files _ _ e he
  have hpid : other.removeFiles fs files (fs.place paths.pid) = files (fs.place paths.pid) := by
    rw [AgentPaths.removeFiles, removeFile_ne h.pids, removeFile_ne h.pid_socket]
  refine ⟨e, ?_⟩
  revert he
  unfold claim
  rw [hpid]
  split <;> intro he <;> first | exact he | cases he

theorem Apart.spares {paths other : AgentPaths} (h : Apart fs paths other) :
    Spares fs paths other := by
  intro agent files hserving
  have hremoved : ∀ place, place ≠ fs.place paths.pid → place ≠ fs.place paths.socket →
      paths.removeFiles fs files place = files place := fun place hpid hsocket => by
    rw [AgentPaths.removeFiles, removeFile_ne hpid, removeFile_ne hsocket]
  exact ⟨(hremoved _ h.pid_socket.symm h.sockets.symm).trans hserving.socket,
    (hremoved _ h.pids.symm h.socket_pid.symm).trans hserving.pid⟩

end FileSystem

/-- A file system in which every directory is spelled in one way. -/
def plain : FileSystem (List Component) := ⟨id⟩

/-- Two sockets told apart by their extensions: `/run/w.a` and `/run/w.b`. -/
def extensionA : OsStr := [0x2F, 0x72, 0x75, 0x6E, 0x2F, 0x77, 0x2E, 0x61]
def extensionB : OsStr := [0x2F, 0x72, 0x75, 0x6E, 0x2F, 0x77, 0x2E, 0x62]

end Btwattch2.Paths
