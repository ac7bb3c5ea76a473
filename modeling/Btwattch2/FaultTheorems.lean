/-
Btwattch2.FaultTheorems — which config files are rejected, and with what message.

`complaint` says what is wrong with a line in its section, whatever the other lines
are. A line is an error exactly when there is one (`parseLine_complaint`), so a file
is rejected for its first faulty line, or else for a `default` that names no section
(`rejected_iff`).
-/
import Mathlib.Data.List.Sort
import Btwattch2.ConfigTheorems

namespace Btwattch2

open Lib

/-! ## Complaints -/

/-- The setting a key names. -/
def Setting.ofKey (key : String) : Option Setting :=
  [index, interval, addr, socket, socketMode, metricsListen].find? fun k => k.key = key

variable (readers : Readers)

/-- What is wrong with an assignment. -/
def settingComplaint [Unicode] (key value : String) : Option String :=
  match Setting.ofKey key with
  | none => some s!"unknown key: {key}"
  | some k =>
    match k.read readers value with
    | .error e => some s!"invalid {key} {debugString value}: {e}"
    | .ok _ => none

/-- What is wrong with a line that is neither a header nor a pair. -/
def malformedComplaint (line : String) : String :=
  match Text.stripPrefix "[" line with
  | none => s!"expected `key = value`, got: {line}"
  | some header =>
    match Text.stripSuffix "]" header with
    | none => s!"unterminated section header: {line}"
    | some name =>
      if (Text.stripPrefix "devices." (Text.trim name)).isSome then
        "a [devices.<name>] section needs a name"
      else s!"unknown section [{Text.trim name}]; only [devices.<name>] is understood"

/-- What is wrong with a line, given the section it is in. -/
def complaint [Unicode] (section_ : Option String) (raw : String) : Option String :=
  match readConfigLine raw with
  | .blank => none
  | .header _ => none
  | .default _ =>
    section_.map fun _ => "`default` belongs before the first [devices.<name>] section"
  | .pair key value => settingComplaint readers key value
  | .malformed => some (malformedComplaint (Text.trim raw))

/-- The complaints about the lines of a file, each in its section. -/
def complaints [Unicode] : Option String → List String → List (Option String)
  | _, [] => []
  | section_, raw :: rest =>
    complaint readers section_ raw :: complaints ((readConfigLine raw).next section_) rest

/-- A complaint about a line, its number counted from zero. -/
def located (path : String) (lineno : Nat) (complaint : String) : String :=
  s!"{path}:{lineno + 1}: {complaint}"

variable {readers}

/-! ## One line -/

theorem ofKey_key (k : Setting) : Setting.ofKey k.key = some k := by
  cases k <;> decide

theorem ofKey_none {key : String} (h : ∀ k : Setting, key ≠ k.key) : Setting.ofKey key = none := by
  refine List.find?_eq_none.mpr fun k _ => ?_
  simpa using (h k).symm

theorem parseValue_eq [Unicode] {α : Type} (fromStr : String → Except String α)
    (value key place : String) :
    parseValue fromStr value key place = match fromStr value with
      | .ok v => .ok v
      | .error e =>
        let complaint := s!"invalid {key} {debugString value}: {e}"
        .error s!"{place}: {complaint}" := by
  unfold parseValue
  cases fromStr value with
  | ok v => rfl
  | error e =>
    simp only [toString, String.append_assoc]
    rfl

theorem bind_map {α β : Type} {x : Except String α} {f : α → β} :
    (x >>= fun v => pure (f v)) = x.map f := by
  cases x <;> rfl

theorem assign_key [Unicode] (k : Setting) (profile : Settings) (value place : String) :
    assign readers profile k.key value place =
      (parseValue (k.read readers) value k.key place).map (k.set profile) := by
  cases k with
  | socket => rfl
  | _ => exact bind_map

theorem assign_complaint [Unicode] (readers : Readers) (profile : Settings)
    (key value place : String) :
    match settingComplaint readers key value with
    | some c => assign readers profile key value place = .error s!"{place}: {c}"
    | none => ∃ profile', assign readers profile key value place = .ok profile' := by
  unfold settingComplaint
  by_cases hkey : ∃ k : Setting, key = k.key
  · obtain ⟨k, rfl⟩ := hkey
    rw [ofKey_key, assign_key, parseValue_eq]
    dsimp only
    cases k.read readers value with
    | error e => rfl
    | ok v => exact ⟨_, rfl⟩
  · rw [ofKey_none fun k h => hkey ⟨k, h⟩]
    dsimp only
    unfold assign
    split
    · exact absurd ⟨.index, rfl⟩ hkey
    · exact absurd ⟨.interval, rfl⟩ hkey
    · exact absurd ⟨.addr, rfl⟩ hkey
    · exact absurd ⟨.socket, rfl⟩ hkey
    · exact absurd ⟨.socketMode, rfl⟩ hkey
    · exact absurd ⟨.metricsListen, rfl⟩ hkey
    · simp only [toString, String.append_assoc]
      rfl

/-- What a line is read as, by what kind of line it is. -/
def readAs [Unicode] (readers : Readers) (file : PartialConfig) (lineno : Nat) (line : String) :
    ConfigLine → Except String PartialConfig
  | .blank => .ok file
  | .header device => .ok ⟨{ file.config with
      devices := file.config.devices.insert device (file.config.devices.entry device) }, some device⟩
  | .default value =>
    match file.section_ with
    | some _ => .error (located file.config.path lineno
        "`default` belongs before the first [devices.<name>] section")
    | none => .ok { file with config := { file.config with defaultDevice := some value } }
  | .pair key value =>
    let place := s!"{file.config.path}:{lineno + 1}"
    match file.section_ with
    | some name => (assign readers (file.config.devices.entry name) key value place).map fun device =>
        { file with config :=
          { file.config with devices := file.config.devices.insert name device } }
    | none => (assign readers file.config.defaults key value place).map fun defaults =>
        { file with config := { file.config with defaults } }
  | .malformed => .error (located file.config.path lineno (malformedComplaint line))

theorem parseLine_eq [Unicode] (readers : Readers) (file : PartialConfig) (lineno : Nat)
    (raw : String) :
    parseLine readers file lineno raw =
      readAs readers file lineno (Text.trim raw) (readConfigLine raw) := by
  obtain ⟨config, tag⟩ := file
  unfold parseLine readConfigLine
  generalize Text.trim raw = line
  by_cases hblank : (line.isEmpty || (Text.stripPrefix "#" line).isSome) = true
  · simp only [hblank, if_true]
    rfl
  simp only [hblank]
  cases hheader : Text.stripPrefix "[" line with
  | some header =>
    cases hname : Text.stripSuffix "]" header with
    | none =>
      simp only [hname, readAs, malformedComplaint, hheader, Option.bind_none, located, toString,
        String.append_assoc]
      rfl
    | some name =>
      cases hdevice : Text.stripPrefix "devices." (Text.trim name) with
      | none =>
        simp only [hname, hdevice, readAs, malformedComplaint, hheader, Option.bind_some, located,
          toString, String.append_assoc]
        rfl
      | some device =>
        simp only [hname, hdevice, Option.bind_some]
        generalize unquote (Text.trim device) = device
        cases hempty : device.isEmpty with
        | true =>
          simp only [hname, hdevice, readAs, malformedComplaint, hheader, located,
            toString, String.append_assoc]
          rfl
        | false => rfl
  | none =>
    cases hpair : Text.splitOnce '=' line with
    | none =>
      simp only [readAs, malformedComplaint, hheader, located, toString, String.append_assoc]
      rfl
    | some pair =>
      obtain ⟨key, value⟩ := pair
      dsimp only
      generalize Text.trim key = key
      by_cases hdefault : key = "default"
      · simp only [hdefault, if_true]
        cases tag with
        | some name =>
          simp only [readAs, located, toString, String.append_assoc]
          rfl
        | none => rfl
      · simp only [hdefault, if_false]
        cases tag with
        | some name => exact bind_map
        | none => exact bind_map

/-- How a line comes out, given what is said against it. -/
inductive LineEnds [Unicode] (readers : Readers) (file : PartialConfig) (lineno : Nat)
    (raw : String) :
    Option String → Prop where
  | error {c : String}
      (h : parseLine readers file lineno raw = .error (located file.config.path lineno c)) :
      LineEnds readers file lineno raw (some c)
  | ok {file' : PartialConfig} (h : parseLine readers file lineno raw = .ok file')
      (hpath : file'.config.path = file.config.path)
      (hsection : file'.section_ = (readConfigLine raw).next file.section_) :
      LineEnds readers file lineno raw none

/-- An assignment, wherever it is put. -/
theorem pair_ends [Unicode] {file : PartialConfig} {lineno : Nat} {raw key value : String}
    {profile : Settings} {put : Settings → PartialConfig}
    (heq : parseLine readers file lineno raw =
      (assign readers profile key value s!"{file.config.path}:{lineno + 1}").map put)
    (hpath : ∀ settings, (put settings).config.path = file.config.path)
    (hsection : ∀ settings, (put settings).section_ = (readConfigLine raw).next file.section_) :
    LineEnds readers file lineno raw (settingComplaint readers key value) := by
  have hassign := assign_complaint readers profile key value
    s!"{file.config.path}:{lineno + 1}"
  cases hc : settingComplaint readers key value with
  | some c =>
    rw [hc] at hassign
    refine .error ?_
    rw [heq, hassign]
    rfl
  | none =>
    rw [hc] at hassign
    obtain ⟨settings, hassign⟩ := hassign
    refine .ok ?_ (hpath settings) (hsection settings)
    rw [heq, hassign]
    rfl

/-- A line is an error exactly when something is said against it. -/
theorem parseLine_complaint [Unicode] (readers : Readers) (file : PartialConfig) (lineno : Nat)
    (raw : String) :
    LineEnds readers file lineno raw (complaint readers file.section_ raw) := by
  have heq := parseLine_eq readers file lineno raw
  obtain ⟨config, tag⟩ := file
  unfold complaint
  cases hline : readConfigLine raw with
  | blank =>
    rw [hline] at heq
    exact .ok heq rfl (by rw [hline]; rfl)
  | header device =>
    rw [hline] at heq
    exact .ok heq rfl (by rw [hline]; rfl)
  | default value =>
    rw [hline] at heq
    cases tag with
    | some name => exact .error heq
    | none => exact .ok heq rfl (by rw [hline]; rfl)
  | pair key value =>
    rw [hline] at heq
    cases tag with
    | some name => exact pair_ends heq (fun _ => rfl) fun _ => by rw [hline]; rfl
    | none => exact pair_ends heq (fun _ => rfl) fun _ => by rw [hline]; rfl
  | malformed =>
    rw [hline] at heq
    exact .error heq

/-! ## All lines -/

/-- The first complaint. -/
def FirstAt (cs : List (Option String)) (i : Nat) (c : String) : Prop :=
  cs[i]? = some (some c) ∧ ∀ j < i, cs[j]? = some none

theorem firstAt_some {c : String} {cs : List (Option String)} {i : Nat} {c' : String} :
    FirstAt (some c :: cs) i c' ↔ i = 0 ∧ c' = c := by
  constructor
  · intro h
    obtain ⟨hi, hearlier⟩ := h
    cases i with
    | zero => simpa [eq_comm] using hi
    | succ i => exact absurd (hearlier 0 (Nat.succ_pos i)) (by simp)
  · rintro ⟨rfl, rfl⟩
    exact ⟨rfl, fun j hj => absurd hj (Nat.not_lt_zero j)⟩

theorem firstAt_none {cs : List (Option String)} {i : Nat} {c : String} :
    FirstAt (none :: cs) i c ↔ ∃ j, i = j + 1 ∧ FirstAt cs j c := by
  constructor
  · intro h
    obtain ⟨hi, hearlier⟩ := h
    cases i with
    | zero => simp at hi
    | succ i => exact ⟨i, rfl, hi, fun j hj => hearlier (j + 1) (Nat.succ_lt_succ hj)⟩
  · rintro ⟨j, rfl, hj, hearlier⟩
    refine ⟨hj, fun k hk => ?_⟩
    cases k with
    | zero => rfl
    | succ k => exact hearlier k (Nat.lt_of_succ_lt_succ hk)

theorem exists_firstAt {cs : List (Option String)} (h : ∃ c ∈ cs, c ≠ none) :
    ∃ i c, FirstAt cs i c := by
  induction cs with
  | nil => simp at h
  | cons c cs ih =>
    cases c with
    | some c => exact ⟨0, c, firstAt_some.mpr ⟨rfl, rfl⟩⟩
    | none =>
      obtain ⟨i, c, hfirst⟩ := ih (by simpa using h)
      exact ⟨i + 1, c, firstAt_none.mpr ⟨i, rfl, hfirst⟩⟩

theorem FirstAt.ne_none {cs : List (Option String)} {i : Nat} {c : String} (h : FirstAt cs i c) :
    ∃ c ∈ cs, c ≠ none := ⟨some c, List.mem_of_getElem? h.1, by simp⟩

theorem parseLines_error_iff [Unicode] (lines : List String) {file : PartialConfig} {lineno : Nat}
    {e : String} : parseLines readers file lineno lines = .error e ↔
      ∃ i c, FirstAt (complaints readers file.section_ lines) i c ∧
        e = located file.config.path (lineno + i) c := by
  induction lines generalizing file lineno with
  | nil => simp [parseLines, complaints, FirstAt]
  | cons raw rest ih =>
    have hends := parseLine_complaint readers file lineno raw
    unfold parseLines complaints
    generalize complaint readers file.section_ raw = said at hends
    cases hends with
    | @error c hline =>
      rw [hline]
      constructor
      · intro h
        cases h
        exact ⟨0, c, firstAt_some.mpr ⟨rfl, rfl⟩, rfl⟩
      · intro h
        obtain ⟨i, c', hfirst, rfl⟩ := h
        obtain ⟨rfl, rfl⟩ := firstAt_some.mp hfirst
        rfl
    | @ok next hline hpath hsection =>
      rw [hline]
      have hrest := @ih next (lineno + 1)
      rw [hsection, hpath] at hrest
      refine hrest.trans ?_
      constructor
      · intro h
        obtain ⟨i, c, hfirst, rfl⟩ := h
        exact ⟨i + 1, c, firstAt_none.mpr ⟨i, rfl, hfirst⟩, by rw [Nat.add_right_comm, Nat.add_assoc]⟩
      · intro h
        obtain ⟨i, c, hfirst, rfl⟩ := h
        obtain ⟨j, rfl, hlater⟩ := firstAt_none.mp hfirst
        exact ⟨j, c, hlater, by rw [Nat.add_right_comm, Nat.add_assoc]⟩

theorem parseLines_ok_iff [Unicode] (lines : List String) (file : PartialConfig) (lineno : Nat) :
    (∃ file', parseLines readers file lineno lines = .ok file') ↔
      ∀ c ∈ complaints readers file.section_ lines, c = none := by
  constructor
  · intro h
    obtain ⟨file', hok⟩ := h
    intro c hc
    by_contra hne
    obtain ⟨i, c, hfirst⟩ := exists_firstAt ⟨c, hc, hne⟩
    have herror : parseLines readers file lineno lines =
        .error (located file.config.path (lineno + i) c) :=
      (parseLines_error_iff lines).mpr ⟨i, c, hfirst, rfl⟩
    exact nomatch hok.symm.trans herror
  · intro h
    cases hresult : parseLines readers file lineno lines with
    | ok file' => exact ⟨file', rfl⟩
    | error e =>
      obtain ⟨i, c, hfirst, -⟩ := (parseLines_error_iff lines).mp hresult
      obtain ⟨c, hc, hne⟩ := hfirst.ne_none
      exact absurd (h c hc) hne

/-! ## The whole file -/

theorem DeviceMap.mem_keys (devices : DeviceMap) (name : String) :
    name ∈ devices.keys ↔ (devices.get name).isSome := by
  unfold keys get
  constructor
  · intro h
    obtain ⟨entry, hentry, rfl⟩ := List.mem_map.mp h
    rw [← Option.ne_none_iff_isSome]
    intro hnone
    simpa using List.lookup_eq_none_iff.mp hnone entry hentry
  · intro h
    by_contra hnot
    have hnone : devices.entries.lookup name = none := by
      refine List.lookup_eq_none_iff.mpr fun entry hentry => ?_
      rw [bne_iff_ne]
      exact fun heq => hnot (List.mem_map.mpr ⟨entry, hentry, heq.symm⟩)
    rw [hnone] at h
    cases h

/-- How the sections of a file are listed in a message: in order, each once. -/
def ListsSections (sections : List String) (message : String) : Prop :=
  ∃ names : List String, names.Pairwise (· < ·) ∧ (∀ name, name ∈ names ↔ name ∈ sections) ∧
    message = if names = [] then "the file defines no [devices.*] sections"
      else "known devices: " ++ String.intercalate ", " names

theorem ListsSections.unique {sections : List String} {message message' : String}
    (h : ListsSections sections message) (h' : ListsSections sections message') :
    message = message' := by
  obtain ⟨names, hsorted, hmem, rfl⟩ := h
  obtain ⟨names', hsorted', hmem', rfl⟩ := h'
  rw [hsorted.eq_of_mem_iff hsorted' fun name => (hmem name).trans (hmem' name).symm]

theorem deviceNames_lists {file : FileConfig} {sections : List String}
    (h : ∀ name, (file.devices.get name).isSome ↔ name ∈ sections) :
    ListsSections sections file.deviceNames := by
  refine ⟨file.devices.keys, file.devices.sorted, fun name => ?_, ?_⟩
  · rw [file.devices.mem_keys]
    exact h name
  · unfold FileConfig.deviceNames DeviceMap.isEmpty DeviceMap.keys
    cases file.devices.entries <;> rfl

/-- What is wrong with a file, if anything. -/
inductive Faulty [Unicode] (readers : Readers) (text path : String) : String → Prop where
  /-- Its first faulty line is, whatever comes after it. -/
  | line {lineno : Nat} {c : String}
      (h : FirstAt (complaints readers none (Text.lines text)) lineno c) :
      Faulty readers text path (located path lineno c)
  /-- No line is, but its `default`, the last one given, names no section. -/
  | default {name names : String}
      (hlines : ∀ c ∈ complaints readers none (Text.lines text), c = none)
      (hdefault : lastOf readDefault (taggedLines text) = some name)
      (hsection : name ∉ sectionsOf (taggedLines text))
      (hnames : ListsSections (sectionsOf (taggedLines text)) names) :
      Faulty readers text path
        s!"{path}: default = {debugString name} names no [devices.{name}] section; {names}"

/-- What is read before the first line. -/
def emptyConfig (path : String) : PartialConfig := ⟨⟨{}, .empty, none, path⟩, none⟩

theorem readsAll_emptyConfig [Unicode] {text path : String} {last : PartialConfig}
    (h : parseLines readers (emptyConfig path) 0 (Text.lines text) = .ok last) :
    last.config.defaultDevice = lastOf readDefault (taggedLines text) ∧
      ∀ name, (last.config.devices.get name).isSome ↔ name ∈ sectionsOf (taggedLines text) := by
  have hall := parseLines_readsAll (fun _ hname => absurd hname (by simp [emptyConfig])) h
  refine ⟨hall.default.trans (Option.or_none), fun name => (hall.devices name).trans ?_⟩
  exact or_iff_right (by simp [emptyConfig, DeviceMap.get, DeviceMap.empty])

/-- **Config errors**: a file is rejected exactly when something is wrong with it, and
the error says what: the number of the first faulty line and the complaint about it, or
the `default` that names no section and the sections there are. -/
theorem rejected_iff [Unicode] {readers : Readers} {text path e : String} :
    parseConfig readers text path = .error e ↔ Faulty readers text path e := by
  have hparse : parseConfig readers text path =
      parseLines readers (emptyConfig path) 0 (Text.lines text) >>= fun last =>
        match last.config.defaultDevice with
        | some name =>
          if last.config.devices.get name = none then
            .error (s!"{path}: default = {debugString name} names no [devices.{name}] section; " ++
              last.config.deviceNames)
          else pure last.config
        | none => pure last.config := rfl
  cases hlines : parseLines readers (emptyConfig path) 0 (Text.lines text) with
  | error e' =>
    rw [hparse, hlines]
    obtain ⟨i, c, hfirst, rfl⟩ := (parseLines_error_iff _).mp hlines
    constructor
    · intro h
      cases h
      rw [Nat.zero_add]
      exact .line hfirst
    · intro h
      cases h with
      | @line j c' hfirst' =>
        have herror : parseLines readers (emptyConfig path) 0 (Text.lines text) =
            .error (located path (0 + j) c') := (parseLines_error_iff _).mpr ⟨j, c', hfirst', rfl⟩
        rw [← hlines, herror, Nat.zero_add]
        rfl
      | default hnone =>
        obtain ⟨c, hc, hne⟩ := hfirst.ne_none
        exact absurd (hnone c hc) hne
  | ok last =>
    have hnone := (parseLines_ok_iff _ (emptyConfig path) 0).mp ⟨last, hlines⟩
    obtain ⟨hdefault, hdevices⟩ := readsAll_emptyConfig hlines
    have hlists := deviceNames_lists hdevices
    rw [hparse, hlines]
    show (match last.config.defaultDevice with
      | some name => _
      | none => _) = _ ↔ _
    constructor
    · intro h
      split at h
      case h_1 name hname =>
        split at h
        case isTrue hget =>
          cases h
          refine .default hnone (hdefault.symm.trans hname) ?_ hlists
          rw [← hdevices, hget]
          exact Bool.false_ne_true
        case isFalse => cases h
      case h_2 => cases h
    · intro h
      cases h with
      | line hfirst =>
        obtain ⟨c, hc, hne⟩ := hfirst.ne_none
        exact absurd (hnone c hc) hne
      | @default name names _ hlast hsection hnames =>
        rw [hdefault, hlast]
        have hget : last.config.devices.get name = none := by
          rw [← Option.not_isSome_iff_eq_none, hdevices]
          exact hsection
        dsimp only
        rw [if_pos hget, hlists.unique hnames]
        rfl

end Btwattch2
