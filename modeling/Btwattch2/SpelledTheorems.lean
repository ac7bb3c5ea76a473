/-
Btwattch2.SpelledTheorems — what a config file can hold.

`FileConfig.spelled` writes a configuration out: its `default`, the top-level settings,
and the sections in the order of their names, each value in quotes and as the program
spells it. A line of it sets the one setting (`parseLine_setting`), so the lines of a
section set its settings whatever came before (`parseLines_settings`), and a section
whose name is behind all the others is added behind them (`parseLines_devices`). The
other way, what a line puts into a configuration stands in the line, so it can be
written again (`parseLine_spellable`).
-/
import Btwattch2.FaultTheorems
import Btwattch2.QuoteTheorems
import Btwattch2.ReportTheorems

namespace Btwattch2

open Lib

/-! ## Values -/

/-- A value as the program spells it. -/
def Setting.spell : (k : Setting) → k.Value → String
  | index, n => Nat.repr n
  | interval, v => Interval.display v
  | addr, v => displayAddr v
  | socket, path => path
  | socketMode, mode => SocketMode.display mode
  | metricsListen, endpoint => endpoint

/-- Addresses are displayed as they are read, a socket address on one line. -/
structure Readers.Displayed (readers : Readers) : Prop where
  addr : ∀ addr, readers.addr (displayAddr addr) = .ok addr
  socketAddr : ∀ s addr, readers.socketAddr s = .ok addr →
    readers.socketAddr addr = .ok addr ∧ '\n' ∉ addr.toList

/-- What can be written of a section: numbers in range, and texts of one line. A socket
address is kept as it is displayed. -/
structure Settings.Writable (readers : Readers) (s : Settings) : Prop where
  index : ∀ n ∈ s.connect.index, n < 2 ^ 64
  socket : ∀ path ∈ s.socket, '\n' ∉ path.toList
  metricsListen : ∀ addr ∈ s.metricsListen, readers.socketAddr addr = .ok addr ∧
    '\n' ∉ addr.toList

theorem newline_not_mem_debugDuration (nanos : Nat) : '\n' ∉ (debugDuration nanos).toList := by
  unfold debugDuration
  split
  · exact Report.newline_not_mem_append (Report.newline_not_mem_fmtDecimal (by omega)) (by decide)
  split
  · exact Report.newline_not_mem_append (Report.newline_not_mem_fmtDecimal (by omega)) (by decide)
  split
  · exact Report.newline_not_mem_append (Report.newline_not_mem_fmtDecimal (by omega)) (by decide)
  · exact Report.newline_not_mem_append (Report.newline_not_mem_fmtDecimal (by decide)) (by decide)

theorem newline_not_mem_display (mode : SocketMode) : '\n' ∉ mode.display.toList := by
  have hdigits : AllDigits mode.display.toList := by
    unfold SocketMode.display
    rw [String.toList_ofList]
    exact (allDigits_zeros _).append fun _ => Nat.isDigit_of_mem_toDigits (by decide) (by decide)
  exact fun hmem => absurd (hdigits '\n' hmem) (by decide)

/-! ## Settings -/

/-- A value is read back from its spelling. -/
theorem Setting.read_spell {readers : Readers}
    (haddr : ∀ addr, readers.addr (displayAddr addr) = .ok addr) {s : Settings}
    (h : s.Writable readers) {k : Setting} {v : k.Value} (hv : k.get s = some v) :
    k.read readers (k.spell v) = .ok v := by
  have hindex : ∀ n : Nat, n < 2 ^ 64 → parseUsize (Nat.repr n) = .ok n := fun n hn =>
    parseUsize_repr (Nat.le_of_lt_succ hn)
  have hinterval : ∀ v : Interval, Interval.fromStr v.display = .ok v := fun v =>
    Interval.fromStr_debugDuration v.min_le v.le_max
  cases k with
  | index => exact hindex v (h.index v hv)
  | interval => exact hinterval v
  | addr => exact haddr v
  | socket => rfl
  | socketMode => exact SocketMode.fromStr_display v
  | metricsListen => exact (h.metricsListen v hv).1

theorem Setting.newline_not_mem_spell {readers : Readers} {s : Settings}
    (h : s.Writable readers) {k : Setting} {v : k.Value} (hv : k.get s = some v) :
    '\n' ∉ (k.spell v).toList := by
  cases k with
  | index => exact Report.newline_not_mem_repr v
  | interval => exact newline_not_mem_debugDuration _
  | addr => exact Report.newline_not_mem_displayAddr v
  | socket => exact h.socket v hv
  | socketMode => exact newline_not_mem_display v
  | metricsListen => exact (h.metricsListen v hv).2

/-! ## Lines -/

def assignLine (key value : String) : String := key ++ " = " ++ quoted value

/-- A key that stands in front of an equals sign. -/
structure PlainKey (key : String) : Prop where
  trim : Text.trim (key ++ " ") = key
  equals : '=' ∉ key.toList
  head : ∃ c rest, key.toList = c :: rest ∧ Text.isWhitespace c = false ∧ c ≠ '#' ∧ c ≠ '['

theorem plainKey_default : PlainKey "default" :=
  ⟨by decide +kernel, by decide, _, _, rfl, by decide, by decide, by decide⟩

theorem plainKey_key (k : Setting) : PlainKey k.key := by
  cases k <;> exact ⟨by decide +kernel, by decide, _, _, rfl, by decide, by decide, by decide⟩

theorem trim_space_quoted (s : String) : Text.trim (" " ++ quoted s) = quoted s := by
  have hstart : Text.trimStart (" " ++ quoted s) = Text.trimStart (quoted s) := by
    have hspace : (" " ++ quoted s).toList = ' ' :: (quoted s).toList := by simp
    rw [Text.trimStart, hspace, List.dropWhile_cons_of_pos (by decide)]
    rfl
  rw [Text.trim, hstart]
  exact trim_quoted s

theorem splitOnce_assignLine {key : String} (h : PlainKey key) (value : String) :
    Text.splitOnce '=' (assignLine key value) = some (key ++ " ", " " ++ quoted value) := by
  have hline : (assignLine key value).toList =
      (key ++ " ").toList ++ '=' :: (" " ++ quoted value).toList := by
    simp [assignLine]
  have hfront : ∀ c ∈ (key ++ " ").toList, (c != '=') = true := by
    intro c hc
    rw [bne_iff_ne]
    rintro rfl
    rw [String.toList_append, List.mem_append] at hc
    exact hc.elim h.equals (by decide)
  have hspan : (assignLine key value).toList.span (· != '=') =
      ((key ++ " ").toList, '=' :: (" " ++ quoted value).toList) := by
    rw [hline]
    exact span_append hfront (by simp)
  rw [Text.splitOnce, hspan]
  simp

/-- An assignment is read as one. -/
theorem readConfigLine_assignLine {key : String} (h : PlainKey key) (value : String) :
    readConfigLine (assignLine key value) =
      if key = "default" then .default value else .pair key value := by
  obtain ⟨c, rest, hkey, hwhite, hcomment, hheader⟩ := h.head
  have hline : (assignLine key value).toList =
      c :: (rest ++ " = \"".toList ++ value.toList ++ ['"']) := by
    simp [assignLine, quoted, hkey]
  have htrim : Text.trim (assignLine key value) = assignLine key value :=
    Text.trim_eq_self hline hwhite (by decide)
  have hprefix : ∀ d : Char, c ≠ d →
      Text.stripPrefix (String.singleton d) (assignLine key value) = none := by
    intro d hd
    rw [Text.stripPrefix, hline]
    simp [List.isPrefixOf?, Ne.symm hd]
  have hempty : (assignLine key value).isEmpty = false := by
    rw [Bool.eq_false_iff, ne_eq, String.isEmpty_iff]
    intro heq
    rw [heq] at hline
    cases hline
  have hhash : Text.stripPrefix "#" (assignLine key value) = none := hprefix '#' hcomment
  have hopen : Text.stripPrefix "[" (assignLine key value) = none := hprefix '[' hheader
  unfold readConfigLine
  rw [htrim]
  simp only [hempty, hhash, hopen, splitOnce_assignLine h, h.trim, trim_space_quoted,
    unquote_quoted, Option.isSome_none, Bool.or_self, Bool.false_eq_true, if_false]

theorem newline_not_mem_assignLine {key value : String} (hkey : '\n' ∉ key.toList)
    (hvalue : '\n' ∉ value.toList) : '\n' ∉ (assignLine key value).toList := by
  simp [assignLine, quoted, hkey, hvalue]

/-! ## Sections -/

theorem lookup_of_not_mem {name : String} {entries : List (String × Settings)}
    (h : name ∉ entries.map Prod.fst) : entries.lookup name = none := by
  refine List.lookup_eq_none_iff.mpr fun entry hentry => ?_
  rw [bne_iff_ne]
  exact fun heq => h (heq ▸ List.mem_map_of_mem hentry)

theorem lookup_of_mem {name : String} {s : Settings} : ∀ {entries : List (String × Settings)},
    (entries.map Prod.fst).Nodup → (name, s) ∈ entries → entries.lookup name = some s
  | (name', s') :: entries, hnodup, hmem => by
    obtain ⟨hnot, hnodup⟩ := List.nodup_cons.mp hnodup
    rw [DeviceMap.lookup_cons_eq]
    rcases List.mem_cons.mp hmem with heq | hmem
    · cases heq
      exact if_pos rfl
    · have hkey : name ∈ entries.map Prod.fst := List.mem_map_of_mem (f := Prod.fst) hmem
      have hother : name ≠ name' := by
        rintro rfl
        exact hnot hkey
      rw [if_neg hother]
      exact lookup_of_mem hnodup hmem

theorem eq_of_lookup : ∀ {entries entries' : List (String × Settings)},
    entries.map Prod.fst = entries'.map Prod.fst → (entries.map Prod.fst).Nodup →
    (∀ name, entries.lookup name = entries'.lookup name) → entries = entries'
  | [], [], _, _, _ => rfl
  | [], _ :: _, hkeys, _, _ => by cases hkeys
  | _ :: _, [], hkeys, _, _ => by cases hkeys
  | (name, s) :: entries, (name', s') :: entries', hkeys, hnodup, hlookup => by
    obtain ⟨rfl, hrest⟩ := List.cons_eq_cons.mp hkeys
    obtain ⟨hnot, hnodup⟩ := List.nodup_cons.mp hnodup
    have hhead := hlookup name
    simp only [DeviceMap.lookup_cons_eq, if_true, Option.some.injEq] at hhead
    subst hhead
    refine congrArg _ (eq_of_lookup hrest hnodup fun other => ?_)
    by_cases hother : other = name
    · subst hother
      rw [lookup_of_not_mem hnot, lookup_of_not_mem (hrest ▸ hnot)]
    · simpa [DeviceMap.lookup_cons_eq, hother] using hlookup other

/-- Sections are known by what is in each. -/
theorem DeviceMap.ext_get {devices devices' : DeviceMap}
    (h : ∀ name, devices.get name = devices'.get name) : devices = devices' := by
  have hkeys : devices.keys = devices'.keys :=
    devices.sorted.eq_of_mem_iff devices'.sorted fun name =>
      (devices.mem_keys name).trans (h name ▸ (devices'.mem_keys name).symm)
  have hentries : devices.entries = devices'.entries :=
    eq_of_lookup hkeys (devices.sorted.imp ne_of_lt) h
  cases devices
  cases devices'
  cases hentries
  rfl

theorem DeviceMap.insert_insert (devices : DeviceMap) (name : String) (s t : Settings) :
    (devices.insert name s).insert name t = devices.insert name t := by
  refine DeviceMap.ext_get fun other => ?_
  simp only [DeviceMap.get_insert]
  split <;> rfl

/-- What is there is put there again. -/
theorem DeviceMap.insert_entry {devices : DeviceMap} {name : String}
    (h : (devices.get name).isSome) : devices.insert name (devices.entry name) = devices := by
  refine DeviceMap.ext_get fun other => ?_
  rw [DeviceMap.get_insert]
  split
  case isTrue heq =>
    obtain ⟨s, hs⟩ := Option.isSome_iff_exists.mp h
    rw [heq, DeviceMap.entry, hs]
    rfl
  case isFalse => rfl

/-- The sections are put in one by one. -/
def DeviceMap.insertAll (devices : DeviceMap) (entries : List (String × Settings)) : DeviceMap :=
  entries.foldl (fun devices entry => devices.insert entry.1 entry.2) devices

theorem DeviceMap.get_insertAll {name : String} : ∀ (entries : List (String × Settings))
    (devices : DeviceMap), (entries.map Prod.fst).Nodup →
    (devices.insertAll entries).get name = (entries.lookup name).or (devices.get name)
  | [], _, _ => rfl
  | (name', s) :: entries, devices, hnodup => by
    obtain ⟨hnot, hnodup⟩ := List.nodup_cons.mp hnodup
    have hrest : ((devices.insert name' s).insertAll entries).get name = _ :=
      get_insertAll entries _ hnodup
    refine hrest.trans ?_
    rw [DeviceMap.get_insert, DeviceMap.lookup_cons_eq]
    by_cases hname : name = name'
    · subst hname
      rw [lookup_of_not_mem hnot]
      simp
    · simp [hname]

/-- From none, they are those that were there. -/
theorem DeviceMap.insertAll_entries (devices : DeviceMap) :
    DeviceMap.empty.insertAll devices.entries = devices := by
  refine DeviceMap.ext_get fun name => ?_
  rw [DeviceMap.get_insertAll _ _ (devices.sorted.imp ne_of_lt)]
  exact Option.or_none

namespace PartialConfig

variable (file : PartialConfig)

/-- The settings that are being read. -/
def profile : Settings :=
  match file.section_ with
  | none => file.config.defaults
  | some name => file.config.devices.entry name

def put (s : Settings) : PartialConfig :=
  match file.section_ with
  | none => { file with config := { file.config with defaults := s } }
  | some name =>
    { file with config := { file.config with devices := file.config.devices.insert name s } }

@[simp] theorem profile_put (s : Settings) : (file.put s).profile = s := by
  obtain ⟨config, _ | name⟩ := file
  · rfl
  · simp [put, profile, DeviceMap.entry, DeviceMap.get_insert]

@[simp] theorem put_put (s t : Settings) : (file.put s).put t = file.put t := by
  obtain ⟨config, _ | name⟩ := file
  · rfl
  · simp [put, DeviceMap.insert_insert]

theorem put_profile {file : PartialConfig} (h : file.Opened) : file.put file.profile = file := by
  obtain ⟨config, _ | name⟩ := file
  · rfl
  · simp [put, profile, DeviceMap.insert_entry (h name rfl)]

theorem opened_put (s : Settings) : (file.put s).Opened := by
  obtain ⟨config, _ | name⟩ := file
  · exact fun name hname => nomatch hname
  · intro name' hname'
    cases hname'
    simp [put, DeviceMap.get_insert]

end PartialConfig

/-! ## Reading what was written -/

def Setting.all : List Setting := [index, interval, addr, socket, socketMode, metricsListen]

/-- The lines of these settings, of those that are there. -/
def settingLines (ks : List Setting) (s : Settings) : List String :=
  ks.filterMap fun k => (k.get s).map fun v => assignLine k.key (k.spell v)

/-- These settings, where they are there, and else what was. -/
def Settings.overlay (ks : List Setting) (s t : Settings) : Settings :=
  ks.foldl (fun t k => (k.get s).elim t (k.set t)) t

theorem Settings.get_overlay (k : Setting) (s : Settings) : ∀ (ks : List Setting) (t : Settings),
    k.get (Settings.overlay ks s t) = if k ∈ ks then (k.get s).or (k.get t) else k.get t
  | [], t => by simp [Settings.overlay]
  | k' :: ks, t => by
    have hstep : k.get ((k'.get s).elim t (k'.set t)) =
        if k = k' then (k.get s).or (k.get t) else k.get t := by
      by_cases hk : k = k'
      · subst hk
        cases hget : k.get s <;> simp
      · cases hget : k'.get s <;> simp [hk, Setting.get_set_of_ne]
    have hrest := get_overlay k s ks ((k'.get s).elim t (k'.set t))
    rw [hstep] at hrest
    refine (show k.get (Settings.overlay (k' :: ks) s t) = _ from hrest).trans ?_
    by_cases hk : k = k'
    · subst hk
      cases k.get s <;> simp
    · simp [hk]

theorem Settings.overlay_all (s : Settings) : Settings.overlay Setting.all s {} = s := by
  refine Setting.ext_get fun k => ?_
  have hmem : k ∈ Setting.all := by cases k <;> decide
  rw [Settings.get_overlay, if_pos hmem, Setting.get_empty, Option.or_none]

theorem parseLines_append [Unicode] (readers : Readers) (lines' : List String) :
    ∀ (lines : List String) (file : PartialConfig) (lineno : Nat),
      parseLines readers file lineno (lines ++ lines') =
        parseLines readers file lineno lines >>= fun file =>
          parseLines readers file (lineno + lines.length) lines'
  | [], _, _ => rfl
  | raw :: lines, file, lineno => by
    rw [List.cons_append, parseLines, parseLines]
    cases parseLine readers file lineno raw with
    | error e => rfl
    | ok file =>
      have ih := parseLines_append readers lines' lines file (lineno + 1)
      rw [List.length_cons, Nat.add_comm lines.length, ← Nat.add_assoc]
      exact ih

section Readers

variable [Unicode] {readers : Readers} {file : PartialConfig}

/-- A line that sets a setting sets it where it stands. -/
theorem parseLine_setting {k : Setting} {v : k.Value} (hread : k.read readers (k.spell v) = .ok v)
    (lineno : Nat) :
    parseLine readers file lineno (assignLine k.key (k.spell v)) =
      .ok (file.put (k.set file.profile v)) := by
  have hkey : k.key ≠ "default" := by cases k <;> decide
  have hassign : ∀ profile place, assign readers profile k.key (k.spell v) place =
      .ok (k.set profile v) := by
    intro profile place
    rw [assign_key, parseValue, hread]
    rfl
  rw [parseLine_eq, readConfigLine_assignLine (plainKey_key k), if_neg hkey]
  obtain ⟨config, _ | name⟩ := file
  · simp only [readAs, hassign]
    rfl
  · simp only [readAs, hassign]
    rfl

theorem parseLines_settings {s : Settings}
    (hread : ∀ (k : Setting) (v : k.Value), k.get s = some v →
      k.read readers (k.spell v) = .ok v) :
    ∀ (ks : List Setting) (file : PartialConfig) (lineno : Nat), file.Opened →
      parseLines readers file lineno (settingLines ks s) =
        .ok (file.put (Settings.overlay ks s file.profile))
  | [], file, _, hopen => by
    show Except.ok file = _
    rw [Settings.overlay, List.foldl_nil, PartialConfig.put_profile hopen]
  | k :: ks, file, lineno, hopen => by
    cases hget : k.get s with
    | none =>
      have hlines : settingLines (k :: ks) s = settingLines ks s := by simp [settingLines, hget]
      have hover : Settings.overlay (k :: ks) s file.profile =
          Settings.overlay ks s file.profile := by simp [Settings.overlay, hget]
      rw [hlines, hover]
      exact parseLines_settings hread ks file lineno hopen
    | some v =>
      have hlines : settingLines (k :: ks) s =
          assignLine k.key (k.spell v) :: settingLines ks s := by simp [settingLines, hget]
      have hover : Settings.overlay (k :: ks) s file.profile =
          Settings.overlay ks s (k.set file.profile v) := by simp [Settings.overlay, hget]
      have hline : parseLine readers file lineno (assignLine k.key (k.spell v)) = _ :=
        parseLine_setting (hread k v hget) lineno
      have hopen' := file.opened_put (k.set file.profile v)
      rw [hlines, hover, parseLines_cons_ok hline,
        parseLines_settings hread ks _ (lineno + 1) hopen', PartialConfig.profile_put,
        PartialConfig.put_put]

/-- The lines of a section. -/
def deviceLines (device : String × Settings) : List String :=
  sectionHeader device.1 :: settingLines Setting.all device.2

theorem parseLines_device {name : String} {s : Settings} (hname : name ≠ "")
    (hread : ∀ (k : Setting) (v : k.Value), k.get s = some v →
      k.read readers (k.spell v) = .ok v)
    (hnew : file.config.devices.get name = none) (lineno : Nat) :
    parseLines readers file lineno (deviceLines (name, s)) =
      .ok ⟨{ file.config with devices := file.config.devices.insert name s }, some name⟩ := by
  have hheader : parseLine readers file lineno (sectionHeader name) = .ok ⟨{ file.config with
      devices := file.config.devices.insert name (file.config.devices.entry name) },
      some name⟩ := by
    rw [parseLine_eq, readConfigLine_sectionHeader hname]
    rfl
  have hfresh : file.config.devices.entry name = {} := by
    rw [DeviceMap.entry, hnew]
    rfl
  rw [deviceLines, parseLines_cons_ok hheader, parseLines_settings hread _ _ _ (by
    intro name' hname'
    cases hname'
    simp [DeviceMap.get_insert])]
  simp [PartialConfig.profile, PartialConfig.put, DeviceMap.entry, DeviceMap.get_insert,
    DeviceMap.insert_insert, hnew, Settings.overlay_all]

/-- Sections are added as they come. -/
theorem parseLines_devices : ∀ (entries : List (String × Settings)) (file : PartialConfig)
    (lineno : Nat), (entries.map Prod.fst).Nodup →
    (∀ entry ∈ entries, entry.1 ≠ "" ∧ file.config.devices.get entry.1 = none ∧
      ∀ (k : Setting) (v : k.Value), k.get entry.2 = some v →
        k.read readers (k.spell v) = .ok v) →
    ∃ section_, parseLines readers file lineno (entries.flatMap deviceLines) =
      .ok ⟨{ file.config with devices := file.config.devices.insertAll entries }, section_⟩
  | [], file, _, _, _ => ⟨file.section_, rfl⟩
  | (name, s) :: entries, file, lineno, hnodup, hentries => by
    obtain ⟨hnot, hnodup⟩ := List.nodup_cons.mp hnodup
    obtain ⟨hname, hnew, hread⟩ := hentries (name, s) List.mem_cons_self
    let next : PartialConfig :=
      ⟨{ file.config with devices := file.config.devices.insert name s }, some name⟩
    obtain ⟨section_, hrest⟩ := parseLines_devices entries next
      (lineno + (deviceLines (name, s)).length) hnodup fun entry hentry => by
        obtain ⟨hname', hnew', hread'⟩ := hentries entry (List.mem_cons_of_mem _ hentry)
        have hmem : entry.1 ∈ entries.map Prod.fst := List.mem_map_of_mem hentry
        have hother : entry.1 ≠ name := fun heq => hnot (heq ▸ hmem)
        refine ⟨hname', ?_, hread'⟩
        exact (DeviceMap.get_insert _ _ _ _).trans ((if_neg hother).trans hnew')
    refine ⟨section_, ?_⟩
    rw [List.flatMap_cons, parseLines_append, parseLines_device hname hread hnew]
    exact hrest

end Readers

/-! ## The whole file -/

/-- What can be written in the sections of a file. -/
structure FileConfig.Spellable (readers : Readers) (file : FileConfig) : Prop where
  defaults : file.defaults.Writable readers
  devices : ∀ name s, file.devices.get name = some s →
    name ≠ "" ∧ '\n' ∉ name.toList ∧ s.Writable readers

/-- What can be written as a file. -/
structure FileConfig.Writable (readers : Readers) (file : FileConfig) : Prop
    extends file.Spellable readers where
  selected : ∀ name, file.defaultDevice = some name → (file.devices.get name).isSome

theorem FileConfig.Spellable.device {readers : Readers} {file : FileConfig}
    (h : file.Spellable readers) {entry : String × Settings}
    (hentry : entry ∈ file.devices.entries) :
    entry.1 ≠ "" ∧ '\n' ∉ entry.1.toList ∧ entry.2.Writable readers :=
  h.devices _ _ (lookup_of_mem (file.devices.sorted.imp ne_of_lt) hentry)

/-- The configuration in the order of its keys. -/
def FileConfig.spelledLines (file : FileConfig) : List String :=
  (file.defaultDevice.map (assignLine "default")).toList ++
    (settingLines Setting.all file.defaults ++ file.devices.entries.flatMap deviceLines)

def FileConfig.spelled (file : FileConfig) : String := Text.unlines file.spelledLines

theorem parseLines_spelledLines [Unicode] {readers : Readers}
    (haddr : ∀ addr, readers.addr (displayAddr addr) = .ok addr) {file : FileConfig}
    (h : file.Writable readers) : ∃ section_,
      parseLines readers (emptyConfig file.path) 0 file.spelledLines = .ok ⟨file, section_⟩ := by
  -- the name of the default section comes before anything else
  have hdefault : parseLines readers (emptyConfig file.path) 0
      (file.defaultDevice.map (assignLine "default")).toList =
      .ok ⟨⟨{}, .empty, file.defaultDevice, file.path⟩, none⟩ := by
    cases file.defaultDevice with
    | none => rfl
    | some name =>
      rw [Option.map_some, Option.toList_some, parseLines, parseLine_eq,
        readConfigLine_assignLine plainKey_default, if_pos rfl]
      rfl
  have hsettings := fun lineno => parseLines_settings
    (fun k v hv => Setting.read_spell haddr h.defaults hv) Setting.all
    ⟨⟨{}, .empty, file.defaultDevice, file.path⟩, none⟩ lineno
    fun name hname => absurd hname (by simp)
  have hdevices := fun lineno => @parseLines_devices _ readers file.devices.entries
    ⟨⟨file.defaults, .empty, file.defaultDevice, file.path⟩, none⟩ lineno
    (file.devices.sorted.imp ne_of_lt) fun entry hentry =>
      have hentry' := h.device hentry
      ⟨hentry'.1, rfl, fun k v hv => Setting.read_spell haddr hentry'.2.2 hv⟩
  simp only [PartialConfig.put, PartialConfig.profile, Settings.overlay_all] at hsettings
  simp only [DeviceMap.insertAll_entries] at hdevices
  obtain ⟨section_, hrest⟩ := hdevices _
  refine ⟨section_, ?_⟩
  rw [FileConfig.spelledLines, parseLines_append, hdefault]
  show parseLines _ _ _ _ = _
  rw [parseLines_append, hsettings]
  exact hrest

theorem lines_spelled {readers : Readers} {file : FileConfig} (h : file.Writable readers) :
    Text.lines file.spelled = file.spelledLines := by
  have hkey : ∀ k : Setting, '\n' ∉ k.key.toList := fun k => by cases k <;> decide
  have hclosed : ∀ key value, (assignLine key value).toList.getLast? ≠ some '\r' := by
    intro key value
    have hline : (assignLine key value).toList =
        key.toList ++ " = \"".toList ++ value.toList ++ ['"'] := by simp [assignLine, quoted]
    rw [hline, List.getLast?_concat]
    decide
  have hsettings : ∀ {s : Settings}, s.Writable readers → ∀ line ∈ settingLines Setting.all s,
      '\n' ∉ line.toList ∧ line.toList.getLast? ≠ some '\r' := by
    intro s hs line hline
    obtain ⟨k, -, hk⟩ := List.mem_filterMap.mp hline
    obtain ⟨v, hv, rfl⟩ := Option.map_eq_some_iff.mp hk
    exact ⟨newline_not_mem_assignLine (hkey k) (Setting.newline_not_mem_spell hs hv),
      hclosed _ _⟩
  have hall : ∀ line ∈ file.spelledLines,
      '\n' ∉ line.toList ∧ line.toList.getLast? ≠ some '\r' := by
    intro line hline
    rcases List.mem_append.mp hline with hline | hline
    · obtain ⟨name, hname, rfl⟩ := Option.map_eq_some_iff.mp (Option.mem_toList.mp hline)
      obtain ⟨s, hs⟩ := Option.isSome_iff_exists.mp (h.selected name hname)
      exact ⟨newline_not_mem_assignLine (by decide) (h.devices name s hs).2.1, hclosed _ _⟩
    rcases List.mem_append.mp hline with hline | hline
    · exact hsettings h.defaults line hline
    obtain ⟨entry, hentry, hline⟩ := List.mem_flatMap.mp hline
    obtain ⟨-, hname, hwritable⟩ := h.device hentry
    rcases List.mem_cons.mp hline with rfl | hline
    · refine ⟨by simp [sectionHeader, quoted, hname], ?_⟩
      rw [sectionHeader_toList, ← List.cons_append, List.getLast?_concat]
      decide
    · exact hsettings hwritable line hline
  have hrows : Lib.terminated '\n' (file.spelledLines.map String.toList) =
      (file.spelledLines.map String.toList).flatMap fun line => line ++ ['\n'] := rfl
  rw [Text.lines, FileConfig.spelled, Text.toList_unlines, hrows, Text.splitLines_flatMap]
  · simp
  · intro line hline
    obtain ⟨s, hs, rfl⟩ := List.mem_map.mp hline
    exact hall s hs

/-- **A configuration that is written out is read back.** -/
theorem parseConfig_spelled [Unicode] {readers : Readers}
    (haddr : ∀ addr, readers.addr (displayAddr addr) = .ok addr) {file : FileConfig}
    (h : file.Writable readers) : parseConfig readers file.spelled file.path = .ok file := by
  obtain ⟨section_, hlines⟩ := parseLines_spelledLines haddr h
  have hall : parseLines readers ⟨⟨{}, .empty, none, file.path⟩, none⟩ 0 file.spelledLines =
      .ok ⟨file, section_⟩ := hlines
  rw [parseConfig, lines_spelled h, hall]
  cases hdefault : file.defaultDevice with
  | none =>
    simp only [bind, Except.bind, hdefault]
    rfl
  | some name =>
    simp only [bind, Except.bind, hdefault]
    exact if_neg (Option.isSome_iff_ne_none.mp (h.selected name hdefault))

/-! ## Nothing else is accepted -/

/-- What is read off a line stands in it. -/
structure LineParts (raw : String) (line : ConfigLine) : Prop where
  header : ∀ device, line = .header device → device ≠ "" ∧ ∀ c ∈ device.toList, c ∈ raw.toList
  pair : ∀ key value, line = .pair key value → ∀ c ∈ value.toList, c ∈ raw.toList

theorem readConfigLine_parts (raw : String) : LineParts raw (readConfigLine raw) := by
  have hother : ∀ {line : ConfigLine}, (∀ device, line ≠ .header device) →
      (∀ key value, line ≠ .pair key value) → LineParts raw line :=
    fun hheader hpair => ⟨fun device h => absurd h (hheader device),
      fun key value h => absurd h (hpair key value)⟩
  unfold readConfigLine
  dsimp only
  generalize hline : Text.trim raw = line
  have htrim : ∀ c ∈ line.toList, c ∈ raw.toList := fun c hc => Text.trim_subset (hline ▸ hc)
  by_cases hblank : (line.isEmpty || (Text.stripPrefix "#" line).isSome) = true
  · rw [if_pos hblank]
    exact hother (by simp) (by simp)
  rw [if_neg hblank]
  cases hheader : Text.stripPrefix "[" line with
  | some header =>
    dsimp only
    cases hname : (Text.stripSuffix "]" header).bind
      fun name => Text.stripPrefix "devices." (Text.trim name) with
    | none => exact hother (by simp) (by simp)
    | some written =>
      obtain ⟨name, hsuffix, hprefix⟩ := Option.bind_eq_some_iff.mp hname
      have hwritten : ∀ c ∈ (unquote (Text.trim written)).toList, c ∈ raw.toList := by
        intro c hc
        have hmem := Text.stripPrefix_subset hprefix (Text.trim_subset (mem_unquote hc))
        have hinner := Text.stripSuffix_subset hsuffix (Text.trim_subset hmem)
        exact htrim c (Text.stripPrefix_subset hheader hinner)
      dsimp only
      generalize unquote (Text.trim written) = device at hwritten ⊢
      cases hempty : device.isEmpty with
      | true => exact hother (by simp) (by simp)
      | false =>
        refine ⟨fun device' h => ?_, by simp⟩
        cases ConfigLine.header.inj h
        exact ⟨fun heq => by simp [heq] at hempty, hwritten⟩
  | none =>
    dsimp only
    cases hpair : Text.splitOnce '=' line with
    | none => exact hother (by simp) (by simp)
    | some pair =>
      obtain ⟨key, written⟩ := pair
      have hwritten : ∀ c ∈ (unquote (Text.trim written)).toList, c ∈ raw.toList := fun c hc =>
        htrim c (Text.splitOnce_subset hpair (Text.trim_subset (mem_unquote hc)))
      dsimp only
      generalize unquote (Text.trim written) = value at hwritten ⊢
      split
      · exact hother (by simp) (by simp)
      · refine ⟨by simp, fun key' value' h => ?_⟩
        cases (ConfigLine.pair.inj h).2
        exact hwritten

attribute [local irreducible] readConfigLine

theorem Settings.Writable.set {readers : Readers} (hreaders : readers.Displayed) {s : Settings}
    (h : s.Writable readers) {k : Setting} {value : String} {v : k.Value}
    (hread : k.read readers value = .ok v) (hvalue : '\n' ∉ value.toList) :
    (k.set s v).Writable readers := by
  cases k with
  | index =>
    refine ⟨fun n hn => ?_, h.socket, h.metricsListen⟩
    cases hn
    exact Nat.lt_succ_of_le (Text.fromStrRadix_le hread)
  | interval => exact ⟨h.index, h.socket, h.metricsListen⟩
  | addr => exact ⟨h.index, h.socket, h.metricsListen⟩
  | socket =>
    refine ⟨h.index, fun path hpath => ?_, h.metricsListen⟩
    cases hpath
    cases hread
    exact hvalue
  | socketMode => exact ⟨h.index, h.socket, h.metricsListen⟩
  | metricsListen =>
    refine ⟨h.index, h.socket, fun addr haddr => ?_⟩
    cases haddr
    exact hreaders.socketAddr value v hread

theorem settings_writable_empty {readers : Readers} : ({} : Settings).Writable readers :=
  ⟨by simp, by simp, by simp⟩

theorem FileConfig.Spellable.entry {readers : Readers} {file : FileConfig}
    (h : file.Spellable readers) (name : String) : (file.devices.entry name).Writable readers := by
  rw [DeviceMap.entry]
  cases hget : file.devices.get name with
  | none => exact settings_writable_empty
  | some s => exact (h.devices name s hget).2.2

theorem FileConfig.Spellable.insert {readers : Readers} {file : FileConfig}
    (h : file.Spellable readers) {name : String} {s : Settings} (hname : name ≠ "")
    (hline : '\n' ∉ name.toList) (hs : s.Writable readers) :
    FileConfig.Spellable readers { file with devices := file.devices.insert name s } := by
  refine ⟨h.defaults, fun name' s' hget => ?_⟩
  have hget' : (file.devices.insert name s).get name' = some s' := hget
  rw [DeviceMap.get_insert] at hget'
  split at hget'
  case isTrue heq =>
    cases hget'
    exact ⟨heq ▸ hname, heq ▸ hline, hs⟩
  case isFalse => exact h.devices name' s' hget'

/-- A line leaves what can be written. -/
theorem parseLine_spellable [Unicode] {readers : Readers} (hreaders : readers.Displayed)
    {file file' : PartialConfig} {lineno : Nat} {raw : String} (hraw : '\n' ∉ raw.toList)
    (hopen : file.Opened) (h : file.config.Spellable readers)
    (hline : parseLine readers file lineno raw = .ok file') : file'.config.Spellable readers := by
  have hparts := readConfigLine_parts raw
  have hdoes := parseLine_does hline
  cases hread : readConfigLine raw with
  | blank =>
    rw [hread] at hdoes
    cases hdoes
    exact h
  | header device =>
    rw [hread] at hdoes
    cases hdoes
    obtain ⟨hname, hdevice⟩ := hparts.header device hread
    exact h.insert hname (fun hmem => hraw (hdevice _ hmem)) (h.entry device)
  | default value =>
    rw [hread] at hdoes
    obtain ⟨-, rfl⟩ := hdoes
    exact ⟨h.defaults, h.devices⟩
  | pair key value =>
    rw [hread] at hdoes
    obtain ⟨place, hdoes⟩ := hdoes
    have hvalue : '\n' ∉ value.toList := fun hmem => hraw (hparts.pair key value hread _ hmem)
    obtain ⟨config, _ | name⟩ := file
    · obtain ⟨defaults, hassign, rfl⟩ := hdoes
      obtain ⟨k, -, v, hv, rfl⟩ := assign_ok hassign
      exact ⟨h.defaults.set hreaders hv hvalue, h.devices⟩
    · obtain ⟨device, hassign, rfl⟩ := hdoes
      obtain ⟨k, -, v, hv, rfl⟩ := assign_ok hassign
      -- the section was opened by its header, which named it
      obtain ⟨s, hs⟩ := Option.isSome_iff_exists.mp (hopen name rfl)
      obtain ⟨hname, hnewline, -⟩ := h.devices name s hs
      exact h.insert hname hnewline ((h.entry name).set hreaders hv hvalue)
  | malformed =>
    rw [hread] at hdoes
    exact hdoes.elim

theorem parseLines_spellable [Unicode] {readers : Readers} (hreaders : readers.Displayed)
    {lines : List String} {file file' : PartialConfig} {lineno : Nat}
    (hraw : ∀ line ∈ lines, '\n' ∉ line.toList) (hopen : file.Opened)
    (h : file.config.Spellable readers)
    (hlines : parseLines readers file lineno lines = .ok file') :
    file'.config.Spellable readers ∧ file'.config.path = file.config.path := by
  induction lines generalizing file lineno with
  | nil =>
    cases hlines
    exact ⟨h, rfl⟩
  | cons raw rest ih =>
    obtain ⟨next, hline, hrest⟩ := bind_ok hlines
    obtain ⟨hhead, htail⟩ := List.forall_mem_cons.mp hraw
    have hnext := parseLine_spellable hreaders hhead hopen h hline
    obtain ⟨hspell, hpath⟩ := ih htail (parseLine_reads hopen hline).opened hnext hrest
    refine ⟨hspell, hpath.trans ?_⟩
    generalize hcomplaint : complaint readers file.section_ raw = said
    have hends := parseLine_complaint readers file lineno raw
    rw [hcomplaint] at hends
    cases hends with
    | error herror => exact nomatch herror.symm.trans hline
    | ok hok hpath' =>
      cases hok.symm.trans hline
      exact hpath'

/-- **What a config file can hold** is what can be written in one. -/
theorem parseConfig_ok_iff [Unicode] {readers : Readers} (hreaders : readers.Displayed)
    {path : String} {file : FileConfig} :
    (∃ text, parseConfig readers text path = .ok file) ↔
      file.Writable readers ∧ file.path = path := by
  constructor
  · rintro ⟨text, h⟩
    have hholds := parseConfig_holds h
    obtain ⟨last, hlines, hlast⟩ := bind_ok h
    have hempty : FileConfig.Spellable readers (emptyConfig path).config :=
      ⟨settings_writable_empty, by simp [emptyConfig, DeviceMap.get, DeviceMap.empty]⟩
    have hnewline : ∀ line ∈ Text.lines text, '\n' ∉ line.toList := by
      intro line hline
      obtain ⟨cs, hcs, rfl⟩ := List.mem_map.mp hline
      rw [String.toList_ofList]
      exact Text.not_mem_splitLines _ cs hcs
    obtain ⟨hspell, hpath⟩ := parseLines_spellable hreaders hnewline
      (fun name hname => absurd hname (by simp [emptyConfig])) hempty hlines
    have hfile : file = last.config := by
      dsimp only at hlast
      split at hlast
      · split at hlast
        · cases hlast
        · exact (Except.ok.inj hlast).symm
      · exact (Except.ok.inj hlast).symm
    rw [hfile] at hholds ⊢
    exact ⟨⟨hspell, hholds.selected⟩, hpath⟩
  · rintro ⟨h, rfl⟩
    exact ⟨file.spelled, parseConfig_spelled hreaders.addr h⟩

def displayedAddr (s : String) : Except String BDAddr :=
  if displayAddr (Report.readAddr s.toList) = s then .ok (Report.readAddr s.toList)
  else .error "invalid digit found in string"

/-- Readers of addresses as they are displayed, and of one socket address. -/
def displayedReaders : Readers where
  addr := displayedAddr
  socketAddr s := if s = "127.0.0.1:9184" then .ok s else .error "invalid socket address syntax"

theorem displayedReaders_displayed : displayedReaders.Displayed := by
  constructor
  case addr =>
    intro addr
    simp [displayedReaders, displayedAddr, Report.readAddr_display]
  case socketAddr =>
    intro s addr hread
    have hread' : (if s = "127.0.0.1:9184" then Except.ok s
      else .error "invalid socket address syntax") = Except.ok addr := hread
    split at hread'
    case isTrue hs =>
      cases hread'
      exact ⟨if_pos hs, by rw [hs]; decide⟩
    case isFalse => cases hread'

/-- A watch at the rack that is read every three quarters of a second, and served. -/
def rackConfig (socket : String) : FileConfig where
  defaults := { connect := { interval := some ⟨750000000, by decide, by decide⟩ } }
  devices := DeviceMap.empty.insert "rack"
    { connect := { addr := some 0xCBDF6B00000B#48 }, socket := some socket,
      socketMode := some ⟨0o640, by decide⟩, metricsListen := some "127.0.0.1:9184" }
  defaultDevice := some "rack"
  path := "config.toml"

theorem parseConfig_ok_iff_rack : letI : Unicode := .ascii
    (∃ text, parseConfig displayedReaders text "config.toml" =
        .ok (rackConfig "/run/\"rack\".sock")) ∧
      ¬ ∃ text, parseConfig displayedReaders text "config.toml" =
        .ok (rackConfig "/run/a\n.sock") := by
  let _ : Unicode := .ascii
  have hget : ∀ socket name s, (rackConfig socket).devices.get name = some s →
      name = "rack" ∧ s.socket = some socket ∧ s.connect.index = none ∧
        s.metricsListen = some "127.0.0.1:9184" := by
    intro socket name s hs
    rw [rackConfig, DeviceMap.get_insert] at hs
    split at hs
    case isTrue hname =>
      cases hs
      exact ⟨hname, rfl, rfl, rfl⟩
    case isFalse => cases hs
  rw [parseConfig_ok_iff displayedReaders_displayed, parseConfig_ok_iff displayedReaders_displayed]
  constructor
  · refine ⟨⟨⟨⟨by simp [rackConfig], by simp [rackConfig], by simp [rackConfig]⟩, ?_⟩, ?_⟩, rfl⟩
    · intro name s hs
      obtain ⟨rfl, hsocket, hindex, hmetrics⟩ := hget _ name s hs
      refine ⟨by decide, by decide, ?_, ?_, ?_⟩
      · simp [hindex]
      · rw [hsocket]
        rintro path ⟨⟩
        decide
      · rw [hmetrics]
        rintro addr ⟨⟩
        exact ⟨rfl, by decide⟩
    · rintro name ⟨⟩
      simp [rackConfig, DeviceMap.get_insert]
  · rintro ⟨h, -⟩
    obtain ⟨s, hs⟩ := Option.isSome_iff_exists.mp (h.selected "rack" rfl)
    obtain ⟨-, hsocket, -⟩ := hget _ _ s hs
    exact (h.devices "rack" s hs).2.2.socket _ hsocket (by decide)

end Btwattch2
