/-
Btwattch2.ConfigTheorems — what an invocation runs with, read off the config file
line by line.

`readConfigLine` says what a line is, and `tagged` puts each line in its section.
Every line does to the settings of every section what it says there
(`parseLine_does`), so a setting that was read is the last one assigned
(`parseLines_setting`), and the two overlays choose among three of them
(`profile_resolved`).
-/
import Btwattch2.Config
import Btwattch2.Lib.Log

namespace Btwattch2

open Lib

/-! ## Lines in their sections -/

/-- What a line of the file is. -/
inductive ConfigLine where
  /-- Nothing, or a comment. -/
  | blank
  | header (device : String)
  /-- Which section `--device` defaults to. -/
  | default (value : String)
  | pair (key value : String)
  | malformed
  deriving DecidableEq, Repr

def readConfigLine (raw : String) : ConfigLine :=
  let line := Text.trim raw
  if line.isEmpty || (Text.stripPrefix "#" line).isSome then .blank
  else match Text.stripPrefix "[" line with
  | some header =>
    match (Text.stripSuffix "]" header).bind fun name =>
      Text.stripPrefix "devices." (Text.trim name) with
    | none => .malformed
    | some device =>
      let device := unquote (Text.trim device)
      if device.isEmpty then .malformed else .header device
  | none =>
    match Text.splitOnce '=' line with
    | none => .malformed
    | some (key, value) =>
      let key := Text.trim key
      let value := unquote (Text.trim value)
      if key = "default" then .default value else .pair key value

/-- The section a line leaves the file in. -/
def ConfigLine.next (section_ : Option String) : ConfigLine → Option String
  | .header device => some device
  | _ => section_

/-- Every line with the section it is in, a header being in the one it opens. -/
def tagged : Option String → List String → List (Option String × ConfigLine)
  | _, [] => []
  | section_, raw :: rest =>
    let line := readConfigLine raw
    (line.next section_, line) :: tagged (line.next section_) rest

theorem tagged_cons (section_ : Option String) (raw : String) (rest : List String) :
    tagged section_ (raw :: rest) = ((readConfigLine raw).next section_, readConfigLine raw) ::
      tagged ((readConfigLine raw).next section_) rest := rfl

def taggedLines (text : String) : List (Option String × ConfigLine) := tagged none (Text.lines text)

/-- The sections the lines open. -/
def sectionsOf (entries : List (Option String × ConfigLine)) : List String :=
  entries.filterMap fun
    | (_, .header device) => some device
    | _ => none

/-- What the file's `default` is. -/
def readDefault : Option String × ConfigLine → Option String
  | (_, .default value) => some value
  | _ => none

/-! ## Settings -/

/-- A setting a section of the file can carry. -/
inductive Setting where
  | index
  | interval
  | addr
  | socket
  | socketMode
  | metricsListen
  deriving DecidableEq, Repr

namespace Setting

def Value : Setting → Type
  | index => Nat
  | interval => Interval
  | addr => BDAddr
  | socket => String
  | socketMode => SocketMode
  | metricsListen => String

def key : Setting → String
  | index => "index"
  | interval => "interval"
  | addr => "addr"
  | socket => "socket"
  | socketMode => "socket_mode"
  | metricsListen => "metrics_listen"

def get : (k : Setting) → Settings → Option k.Value
  | index, s => s.connect.index
  | interval, s => s.connect.interval
  | addr, s => s.connect.addr
  | socket, s => s.socket
  | socketMode, s => s.socketMode
  | metricsListen, s => s.metricsListen

def set : (k : Setting) → Settings → k.Value → Settings
  | index, s, v => { s with connect := { s.connect with index := some v } }
  | interval, s, v => { s with connect := { s.connect with interval := some v } }
  | addr, s, v => { s with connect := { s.connect with addr := some v } }
  | socket, s, v => { s with socket := some v }
  | socketMode, s, v => { s with socketMode := some v }
  | metricsListen, s, v => { s with metricsListen := some v }

/-- How the value of a setting is read. -/
def read (readers : Readers) : (k : Setting) → String → Except String k.Value
  | index => parseUsize
  | interval => Interval.fromStr
  | addr => readers.addr
  | socket => .ok
  | socketMode => SocketMode.fromStr
  | metricsListen => readers.socketAddr

/-- What the command line says. -/
def flag : (k : Setting) → Cli → Option k.Value
  | index, cli => cli.connect.index
  | interval, cli => cli.connect.interval
  | addr, cli => cli.connect.addr
  | socket, cli => cli.socket
  | socketMode, _ => none
  | metricsListen, cli => cli.metricsListenFlag

@[simp] theorem get_empty (k : Setting) : k.get {} = none := by
  cases k <;> rfl

@[simp] theorem get_set_self (k : Setting) (s : Settings) (v : k.Value) :
    k.get (k.set s v) = some v := by
  cases k <;> rfl

theorem get_set_of_ne {k k' : Setting} (h : k ≠ k') (s : Settings) (v : k'.Value) :
    k.get (k'.set s v) = k.get s := by
  cases k <;> cases k' <;> first | rfl | exact absurd rfl h

theorem get_or (k : Setting) (self fallback : Settings) :
    k.get (self.or fallback) = (k.get self).or (k.get fallback) := by
  cases k <;> rfl

theorem ext_get {s t : Settings} (h : ∀ k : Setting, k.get s = k.get t) : s = t := by
  obtain ⟨⟨i, a, n⟩, so, m, l⟩ := s
  obtain ⟨⟨i', a', n'⟩, so', m', l'⟩ := t
  obtain rfl : i = i' := h index
  obtain rfl : a = a' := h addr
  obtain rfl : n = n' := h interval
  obtain rfl : so = so' := h socket
  obtain rfl : m = m' := h socketMode
  obtain rfl : l = l' := h metricsListen
  rfl

theorem key_injective {k k' : Setting} (h : k.key = k'.key) : k = k' := by
  cases k <;> cases k' <;> first | rfl | exact absurd h (by decide)

variable (readers : Readers)

/-- What a line in a section sets a setting to. -/
def assigned (k : Setting) (section_ : Option String) : Option String × ConfigLine → Option k.Value
  | (tag, .pair key value) =>
    if tag = section_ ∧ key = k.key then (k.read readers value).toOption else none
  | _ => none

/-- The last assignment in a section, however often it is re-entered. -/
def lastAssigned (k : Setting) (section_ : Option String) (text : String) : Option k.Value :=
  lastOf (k.assigned readers section_) (taggedLines text)

/-- What the file says for a device, if one is selected: its own section, else
the top-level keys. -/
def configured (k : Setting) (selected : Option String) (text : String) : Option k.Value :=
  (selected.bind fun device => k.lastAssigned readers (some device) text).or
    (k.lastAssigned readers none text)

end Setting

section Readers

variable {readers : Readers}

theorem parseValue_ok [Unicode] {α : Type} {fromStr : String → Except String α}
    {value key place : String}
    {v : α} (h : parseValue fromStr value key place = .ok v) : fromStr value = .ok v := by
  unfold parseValue at h
  split at h
  · rw [← h]
    assumption
  · cases h

theorem bind_ok {α β : Type} {x : Except String α} {f : α → Except String β} {b : β}
    (h : x >>= f = .ok b) : ∃ a, x = .ok a ∧ f a = .ok b := by
  cases x with
  | error e => cases h
  | ok a => exact ⟨a, rfl, h⟩

/-- An assignment that is accepted sets the setting its key names. -/
theorem assign_ok [Unicode] {profile profile' : Settings} {key value place : String}
    (h : assign readers profile key value place = .ok profile') :
    ∃ k : Setting, key = k.key ∧ ∃ v, k.read readers value = .ok v ∧
    profile' = k.set profile v := by
  have hbind : ∀ {α : Type} {fromStr : String → Except String α} {f : α → Settings},
      (parseValue fromStr value key place >>= fun v => pure (f v)) = .ok profile' →
      ∃ v, fromStr value = .ok v ∧ profile' = f v := by
    intro α fromStr f hx
    obtain ⟨v, hv, hf⟩ := bind_ok hx
    cases hf
    exact ⟨v, parseValue_ok hv, rfl⟩
  unfold assign at h
  split at h
  · exact ⟨.index, rfl, hbind h⟩
  · exact ⟨.interval, rfl, hbind h⟩
  · exact ⟨.addr, rfl, hbind h⟩
  · cases h
    exact ⟨.socket, rfl, value, rfl, rfl⟩
  · exact ⟨.socketMode, rfl, hbind h⟩
  · exact ⟨.metricsListen, rfl, hbind h⟩
  · cases h

theorem get_assign [Unicode] {profile profile' : Settings} {key value place : String}
    (h : assign readers profile key value place = .ok profile') (k : Setting) :
    k.get profile' = (if key = k.key then (k.read readers value).toOption else none).or
      (k.get profile) := by
  obtain ⟨k', rfl, v, hv, rfl⟩ := assign_ok h
  by_cases hk : k = k'
  · subst hk
    simp [hv, Except.toOption]
  · have hkey : k'.key ≠ k.key := fun heq => hk (Setting.key_injective heq).symm
    rw [Setting.get_set_of_ne hk, if_neg hkey, Option.none_or]

/-! ## One line -/

/-- The settings of a section, or those before the first one. -/
def PartialConfig.get (file : PartialConfig) (k : Setting) : Option String → Option k.Value
  | none => k.get file.config.defaults
  | some device => (file.config.devices.get device).bind k.get

/-- What an accepted line does. -/
def LineDoes [Unicode] (readers : Readers) (file : PartialConfig) (file' : PartialConfig) :
    ConfigLine → Prop
  | .blank => file' = file
  | .header device => file' = ⟨{ file.config with
      devices := file.config.devices.insert device (file.config.devices.entry device) }, some device⟩
  | .default value => file.section_ = none ∧
      file' = { file with config := { file.config with defaultDevice := some value } }
  | .pair key value => ∃ place, match file.section_ with
      | none => ∃ defaults, assign readers file.config.defaults key value place = .ok defaults ∧
          file' = { file with config := { file.config with defaults } }
      | some name => ∃ device,
          assign readers (file.config.devices.entry name) key value place = .ok device ∧
          file' = { file with config :=
            { file.config with devices := file.config.devices.insert name device } }
  | .malformed => False

theorem parseLine_does [Unicode] {file file' : PartialConfig} {lineno : Nat} {raw : String}
    (h : parseLine readers file lineno raw = .ok file') :
    LineDoes readers file file' (readConfigLine raw) := by
  obtain ⟨config, tag⟩ := file
  unfold parseLine at h
  unfold readConfigLine
  generalize Text.trim raw = line at h ⊢
  by_cases hblank : (line.isEmpty || (Text.stripPrefix "#" line).isSome) = true
  · simp only [hblank, if_true] at h ⊢
    cases h
    rfl
  simp only [hblank] at h ⊢
  cases hheader : Text.stripPrefix "[" line with
  | some header =>
    simp only [hheader] at h ⊢
    cases hname : Text.stripSuffix "]" header with
    | none =>
      simp only [hname] at h
      cases h
    | some name =>
      simp only [hname, Option.bind_some] at h ⊢
      cases hdevice : Text.stripPrefix "devices." (Text.trim name) with
      | none =>
        simp only [hdevice] at h
        cases h
      | some device =>
        simp only [hdevice] at h ⊢
        generalize unquote (Text.trim device) = device at h ⊢
        cases hempty : device.isEmpty with
        | true =>
          simp only [hempty, if_true] at h
          cases h
        | false =>
          simp only [hempty] at h ⊢
          cases h
          rfl
  | none =>
    simp only [hheader] at h ⊢
    cases hpair : Text.splitOnce '=' line with
    | none =>
      simp only [hpair] at h
      cases h
    | some pair =>
      obtain ⟨key, value⟩ := pair
      simp only [hpair] at h ⊢
      generalize Text.trim key = key at h ⊢
      by_cases hdefault : key = "default"
      · simp only [hdefault, if_true] at h ⊢
        cases tag with
        | some name => cases h
        | none =>
          cases h
          exact ⟨rfl, rfl⟩
      · simp only [hdefault, if_false] at h ⊢
        cases tag with
        | some name =>
          obtain ⟨device, hassign, hfile⟩ := bind_ok h
          cases hfile
          exact ⟨_, device, hassign, rfl⟩
        | none =>
          obtain ⟨defaults, hassign, hfile⟩ := bind_ok h
          cases hfile
          exact ⟨_, defaults, hassign, rfl⟩

attribute [local irreducible] readConfigLine

/-- The section being read has been opened. -/
def PartialConfig.Opened (file : PartialConfig) : Prop :=
  ∀ name, file.section_ = some name → (file.config.devices.get name).isSome

/-- What reading a line in its section does. -/
structure Reads (readers : Readers) (file : PartialConfig) (entry : Option String × ConfigLine)
    (file' : PartialConfig) : Prop where
  section_ : file'.section_ = entry.1
  opened : file'.Opened
  get : ∀ (k : Setting) section_,
    file'.get k section_ = (k.assigned readers section_ entry).or (file.get k section_)
  default : file'.config.defaultDevice = (readDefault entry).or file.config.defaultDevice
  devices : ∀ name, (file'.config.devices.get name).isSome ↔
    (file.config.devices.get name).isSome ∨ entry.2 = .header name
  readable : ∀ key value, entry.2 = .pair key value →
    ∃ (k : Setting) (v : k.Value), key = k.key ∧ k.read readers value = .ok v

theorem get_entry (devices : DeviceMap) (name : String) (k : Setting) :
    k.get (devices.entry name) = (devices.get name).bind k.get := by
  unfold DeviceMap.entry
  cases devices.get name <;> simp

theorem get_insert_devices (config : FileConfig) (name : String) (device : Settings)
    (section_ : Option String) (k : Setting) (tag : Option String) :
    PartialConfig.get
        ⟨{ config with devices := config.devices.insert name device }, tag⟩ k section_ =
      if section_ = some name then k.get device
        else PartialConfig.get ⟨config, tag⟩ k section_ := by
  cases section_ with
  | none => rfl
  | some key =>
    simp only [PartialConfig.get, DeviceMap.get_insert, Option.some.injEq]
    split <;> rfl

theorem reads_header {file : PartialConfig} (device : String) :
    Reads readers file (some device, .header device)
      ⟨{ file.config with
        devices := file.config.devices.insert device (file.config.devices.entry device) },
        some device⟩ := by
  constructor
  case section_ => rfl
  case opened =>
    intro name hname
    cases hname
    simp [DeviceMap.get_insert]
  case get =>
    intro k section_
    have hnone : k.assigned readers section_ (some device, .header device) = none := rfl
    rw [get_insert_devices, hnone, Option.none_or]
    split
    case isTrue hsection =>
      rw [hsection]
      exact get_entry _ _ _
    case isFalse => cases section_ <;> rfl
  case default => rfl
  case devices =>
    intro name
    rw [DeviceMap.get_insert]
    by_cases hname : name = device
    · simp [hname]
    · simp [hname, Ne.symm hname]
  case readable => exact fun _ _ hpair => nomatch hpair

/-- An assignment in a section that has been opened. -/
theorem reads_pair [Unicode] {file : PartialConfig} {name key value place : String}
    {device : Settings}
    (hsection : file.section_ = some name) (hopen : file.Opened)
    (h : assign readers (file.config.devices.entry name) key value place = .ok device) :
    Reads readers file (some name, .pair key value)
      { file with config :=
        { file.config with devices := file.config.devices.insert name device } } := by
  obtain ⟨config, tag⟩ := file
  obtain rfl : tag = some name := hsection
  have hname := hopen name rfl
  constructor
  case section_ => rfl
  case opened =>
    intro name' hname'
    cases hname'
    simp [DeviceMap.get_insert]
  case get =>
    intro k section_
    rw [get_insert_devices, Setting.assigned]
    split
    case isTrue heq =>
      subst heq
      simp only [get_assign h, true_and, get_entry]
      rfl
    case isFalse hne =>
      rw [if_neg (fun hand => hne hand.1.symm), Option.none_or]
  case default => rfl
  case devices =>
    intro name'
    rw [DeviceMap.get_insert]
    by_cases heq : name' = name
    · subst heq
      simp [hname]
    · simp [heq]
  case readable =>
    intro key' value' hpair
    cases hpair
    obtain ⟨k, hkey, v, hv, -⟩ := assign_ok h
    exact ⟨k, v, hkey, hv⟩

/-- An assignment before the first section. -/
theorem reads_top [Unicode] {file : PartialConfig} {key value place : String} {defaults : Settings}
    (hsection : file.section_ = none)
    (h : assign readers file.config.defaults key value place = .ok defaults) :
    Reads readers file (none, .pair key value)
      { file with config := { file.config with defaults } } := by
  constructor
  case section_ => exact hsection
  case opened => exact fun name hname => absurd (hsection.symm.trans hname) (by simp)
  case get =>
    intro k section_
    cases section_ with
    | none => simp only [PartialConfig.get, Setting.assigned, get_assign h, true_and]
    | some name => simp [PartialConfig.get, Setting.assigned]
  case default => rfl
  case devices => simp
  case readable =>
    intro key' value' hpair
    cases hpair
    obtain ⟨k, hkey, v, hv, -⟩ := assign_ok h
    exact ⟨k, v, hkey, hv⟩

theorem parseLine_reads [Unicode] {file file' : PartialConfig} {lineno : Nat} {raw : String}
    (hopen : file.Opened) (h : parseLine readers file lineno raw = .ok file') :
    Reads readers file ((readConfigLine raw).next file.section_, readConfigLine raw) file' := by
  -- a line that assigns nothing and opens nothing
  have hquiet : ∀ {line : ConfigLine}, (∀ key value, line ≠ .pair key value) →
      (∀ name, line ≠ .header name) →
      Reads readers file (file.section_, line) { file with config := { file.config with
        defaultDevice := (readDefault (file.section_, line)).or file.config.defaultDevice } } := by
    intro line hpair hheader
    refine ⟨rfl, hopen, fun k section_ => ?_, rfl, fun name => ?_, fun key value heq => ?_⟩
    · cases line with
      | pair key value => exact absurd rfl (hpair key value)
      | _ => cases section_ <;> rfl
    · simp [hheader name]
    · exact absurd heq (hpair key value)
  have hspec := parseLine_does h
  generalize readConfigLine raw = line at hspec ⊢
  cases line with
  | blank =>
    rw [show file' = file from hspec]
    exact hquiet (by simp) (by simp)
  | header device =>
    rw [show file' = _ from hspec]
    exact reads_header device
  | default value =>
    obtain ⟨-, hfile⟩ := hspec
    rw [hfile]
    exact hquiet (by simp) (by simp)
  | pair key value =>
    obtain ⟨place, hspec⟩ := hspec
    obtain ⟨config, tag⟩ := file
    cases tag with
    | none =>
      obtain ⟨defaults, hassign, hfile⟩ := hspec
      rw [hfile]
      exact reads_top rfl hassign
    | some name =>
      obtain ⟨device, hassign, hfile⟩ := hspec
      rw [hfile]
      exact reads_pair rfl hopen hassign
  | malformed => exact hspec.elim

/-! ## The whole file -/

/-- What reading lines in their sections does. -/
structure ReadsAll (readers : Readers) (file : PartialConfig)
    (entries : List (Option String × ConfigLine)) (file' : PartialConfig) : Prop where
  get : ∀ (k : Setting) section_, file'.get k section_ =
    (lastOf (k.assigned readers section_) entries).or (file.get k section_)
  default : file'.config.defaultDevice = (lastOf readDefault entries).or file.config.defaultDevice
  devices : ∀ name, (file'.config.devices.get name).isSome ↔
    (file.config.devices.get name).isSome ∨ name ∈ sectionsOf entries
  readable : ∀ entry ∈ entries, ∀ key value, entry.2 = .pair key value →
    ∃ (k : Setting) (v : k.Value), key = k.key ∧ k.read readers value = .ok v

theorem mem_sectionsOf_cons {entry : Option String × ConfigLine}
    {entries : List (Option String × ConfigLine)} {name : String} :
    name ∈ sectionsOf (entry :: entries) ↔ entry.2 = .header name ∨ name ∈ sectionsOf entries := by
  obtain ⟨tag, line⟩ := entry
  cases line <;> simp [sectionsOf, eq_comm]

theorem parseLines_readsAll [Unicode] {lines : List String} {file file' : PartialConfig}
    {lineno : Nat}
    (hopen : file.Opened) (h : parseLines readers file lineno lines = .ok file') :
    ReadsAll readers file (tagged file.section_ lines) file' := by
  induction lines generalizing file lineno with
  | nil =>
    cases h
    exact ⟨fun _ _ => rfl, rfl, fun name => by simp [tagged, sectionsOf], by simp [tagged]⟩
  | cons raw rest ih =>
    obtain ⟨next, hline, hrest⟩ := bind_ok h
    have hreads := parseLine_reads hopen hline
    have hall := ih hreads.opened hrest
    rw [hreads.section_] at hall
    constructor
    case get =>
      intro k section_
      rw [hall.get, hreads.get, tagged_cons, lastOf_cons, Option.or_assoc]
    case default => rw [hall.default, hreads.default, tagged_cons, lastOf_cons, Option.or_assoc]
    case devices =>
      intro name
      rw [hall.devices, hreads.devices, tagged_cons, mem_sectionsOf_cons, or_assoc]
    case readable =>
      intro entry hentry
      rw [tagged_cons] at hentry
      have hcases := List.mem_cons.mp hentry
      rcases hcases with heq | hentry
      · rw [heq]
        exact hreads.readable
      · exact hall.readable entry hentry

/-- What an accepted file holds, read off its lines. -/
structure Holds (readers : Readers) (text : String) (file : FileConfig) : Prop where
  defaults : ∀ k : Setting, k.get file.defaults = k.lastAssigned readers none text
  device : ∀ (k : Setting) name, (file.devices.get name).bind k.get =
    k.lastAssigned readers (some name) text
  default : file.defaultDevice = lastOf readDefault (taggedLines text)
  devices : ∀ name, (file.devices.get name).isSome ↔ name ∈ sectionsOf (taggedLines text)
  selected : ∀ name, file.defaultDevice = some name → (file.devices.get name).isSome
  readable : ∀ entry ∈ taggedLines text, ∀ key value, entry.2 = .pair key value →
    ∃ (k : Setting) (v : k.Value), key = k.key ∧ k.read readers value = .ok v

theorem parseConfig_holds [Unicode] {text path : String} {file : FileConfig}
    (h : parseConfig readers text path = .ok file) : Holds readers text file := by
  obtain ⟨last, hlines, hlast⟩ := bind_ok h
  have hall := parseLines_readsAll (fun _ hname => absurd hname (by simp)) hlines
  have hfile : file = last.config ∧
      ∀ name, last.config.defaultDevice = some name → (last.config.devices.get name).isSome := by
    dsimp only at hlast
    split at hlast
    case h_1 name hdefault =>
      split at hlast
      · cases hlast
      case isFalse hsome =>
        cases hlast
        refine ⟨rfl, fun name' hname' => ?_⟩
        cases hdefault.symm.trans hname'
        exact Option.isSome_iff_ne_none.mpr hsome
    case h_2 hdefault =>
      cases hlast
      exact ⟨rfl, fun name hname => absurd (hdefault.symm.trans hname) (by simp)⟩
  obtain ⟨rfl, hselected⟩ := hfile
  constructor
  case defaults =>
    intro k
    have hget := hall.get k none
    rw [show PartialConfig.get ⟨⟨{}, .empty, none, path⟩, none⟩ k none = none from k.get_empty,
      Option.or_none] at hget
    exact hget
  case device =>
    intro k name
    have hget := hall.get k (some name)
    rw [show PartialConfig.get ⟨⟨{}, .empty, none, path⟩, none⟩ k (some name) = none from rfl,
      Option.or_none] at hget
    exact hget
  case default =>
    have hdefault := hall.default
    rw [Option.or_none] at hdefault
    exact hdefault
  case devices =>
    intro name
    have hdevices := hall.devices name
    rw [show DeviceMap.get DeviceMap.empty name = none from rfl] at hdevices
    exact hdevices.trans (or_iff_right (by simp))
  case selected => exact hselected
  case readable => exact hall.readable

/-! ## What an invocation runs with -/

/-- Whether a line matters to an invocation that selects this section, if any:
all but the assignments in other sections, and the lines that say nothing. -/
def matters (selected : Option String) : Option String × ConfigLine → Bool
  | (_, .blank) => false
  | (some device, .pair _ _) => decide (selected = some device)
  | _ => true

/-- Only assignments in other sections than the selected one, and lines that say
nothing, tell the texts apart. -/
def SameFor (selected : Option String) (text text' : String) : Prop :=
  (taggedLines text).filter (matters selected) = (taggedLines text').filter (matters selected)

theorem lastAssigned_congr {selected section_ : Option String} {text text' : String}
    (h : SameFor selected text text') (hsection : section_ = none ∨ section_ = selected)
    (k : Setting) : k.lastAssigned readers section_ text =
      k.lastAssigned readers section_ text' := by
  have hkeep : ∀ entry, matters selected entry = false →
    k.assigned readers section_ entry = none := by
    intro entry hentry
    obtain ⟨tag, line⟩ := entry
    cases line with
    | pair key value =>
      cases tag with
      | none => cases hentry
      | some device =>
        have hne : section_ ≠ some device := by
          rintro rfl
          rcases hsection with hsection | rfl
          · cases hsection
          · simp [matters] at hentry
        exact if_neg fun hand => hne hand.1.symm
    | _ => rfl
  unfold Setting.lastAssigned
  rw [← lastOf_filter fun entry _ => hkeep entry, h, lastOf_filter fun entry _ => hkeep entry]

theorem sectionsOf_congr {selected : Option String} {text text' : String}
    (h : SameFor selected text text') :
    sectionsOf (taggedLines text) = sectionsOf (taggedLines text') := by
  have hkeep : ∀ entries, sectionsOf (entries.filter (matters selected)) = sectionsOf entries := by
    intro entries
    induction entries with
    | nil => rfl
    | cons entry entries ih =>
      obtain ⟨tag, line⟩ := entry
      cases hmatters : matters selected (tag, line) with
      | true =>
        rw [List.filter_cons_of_pos hmatters]
        cases line <;> simpa [sectionsOf] using ih
      | false =>
        rw [List.filter_cons_of_neg (by simp [hmatters]), ih]
        cases line with
        | header device => cases tag <;> cases hmatters
        | _ => simp [sectionsOf]
  rw [← hkeep, h, hkeep]

theorem default_congr {selected : Option String} {text text' : String}
    (h : SameFor selected text text') :
    lastOf readDefault (taggedLines text) = lastOf readDefault (taggedLines text') := by
  have hkeep : ∀ entry, matters selected entry = false → readDefault entry = none := by
    intro entry hentry
    obtain ⟨tag, line⟩ := entry
    cases line with
    | default value => cases tag <;> cases hentry
    | _ => rfl
  rw [← lastOf_filter fun entry _ => hkeep entry, h, lastOf_filter fun entry _ => hkeep entry]

/-- The command line as a layer of settings. -/
def Cli.flags (cli : Cli) : Settings :=
  { connect := cli.connect, socket := cli.socket, socketMode := none,
    metricsListen := cli.metricsListenFlag }

theorem Setting.get_flags (k : Setting) (cli : Cli) : k.get cli.flags = k.flag cli := by
  cases k <;> rfl

theorem settings_some_ok [Unicode] {cli : Cli} {file : FileConfig} {settings : Settings} :
    cli.settings (some file) = .ok settings ↔
      ∃ profile, file.profile cli.device = .ok profile ∧ settings = cli.flags.or profile := by
  cases hprofile : file.profile cli.device with
  | error e => simp [Cli.settings, hprofile]
  | ok profile => simp [Cli.settings, Cli.flags, hprofile, eq_comm]

theorem settings_some_error [Unicode] {cli : Cli} {file : FileConfig} :
    (∃ e, cli.settings (some file) = .error e) ↔ ∃ e, file.profile cli.device = .error e := by
  cases hprofile : file.profile cli.device <;> simp [Cli.settings, hprofile]

/-- A profile is the selected section over the top-level keys. -/
theorem Holds.profile_get [Unicode] {text : String} {file : FileConfig} {name : Option String}
    {profile : Settings} (h : Holds readers text file) (hprofile : file.profile name = .ok profile)
    (k : Setting) : k.get profile = k.configured readers (name.or file.defaultDevice) text := by
  unfold FileConfig.profile at hprofile
  unfold Setting.configured
  cases hname : name.or file.defaultDevice with
  | none =>
    rw [hname] at hprofile
    cases hprofile
    exact h.defaults k
  | some device =>
    rw [hname] at hprofile
    have hdevice := h.device k device
    cases hget : file.devices.get device with
    | none =>
      simp only [hget] at hprofile
      cases hprofile
    | some settings =>
      simp only [hget] at hprofile
      cases hprofile
      rw [hget] at hdevice
      rw [Setting.get_or, h.defaults, Option.bind_some, ← hdevice, Option.bind_some]

theorem Holds.profile_ok_iff [Unicode] {text : String} {file : FileConfig}
    (h : Holds readers text file)
    (name : Option String) : (∃ profile, file.profile name = .ok profile) ↔
      ∀ device, name.or file.defaultDevice = some device →
      device ∈ sectionsOf (taggedLines text) := by
  unfold FileConfig.profile
  cases hname : name.or file.defaultDevice with
  | none => simp
  | some device =>
    have hdevice := h.devices device
    cases hget : file.devices.get device with
    | none =>
      rw [hget] at hdevice
      simpa [hget] using hdevice
    | some settings =>
      rw [hget] at hdevice
      simpa [hget] using hdevice

/-- What an accepted file resolves to, for every command line. -/
structure ProfileResolution [Unicode] (readers : Readers) (text : String) (file : FileConfig) :
    Prop where
  /-- The file's `default` is the last one given. -/
  default : file.defaultDevice = lastOf readDefault (taggedLines text)
  /-- Every assignment has a key that is known and a value that is read. -/
  readable : ∀ entry ∈ taggedLines text, ∀ key value, entry.2 = .pair key value →
    ∃ (k : Setting) (v : k.Value), key = k.key ∧ k.read readers value = .ok v
  /-- Only a device that has no section is refused. -/
  refused : ∀ cli : Cli, (∃ e, cli.settings (some file) = .error e) ↔
    ∃ device, cli.device = some device ∧ device ∉ sectionsOf (taggedLines text)
  /-- The command line, else the last assignment in the selected section, else
  the last one before the first section. -/
  resolved : ∀ (cli : Cli) settings, cli.settings (some file) = .ok settings →
    ∀ k : Setting, k.get settings =
      (k.flag cli).or (k.configured readers (cli.device.or file.defaultDevice) text)
  /-- The assignments in other sections change nothing. -/
  others : ∀ (cli : Cli) settings text' path' file', cli.settings (some file) = .ok settings →
    parseConfig readers text' path' = .ok file' →
    SameFor (cli.device.or file.defaultDevice) text text' → cli.settings (some file') = .ok settings
  profile_none : ∃ settings, file.profile none = .ok settings
  profile_some : ∀ name, (∃ e, file.profile (some name) = .error e) ↔
    name ∉ sectionsOf (taggedLines text)

/-- A section that is re-entered, and a `default` that names it. -/
def reenteredConfig : String :=
  "index = 1\ndefault = \"rack\"\n[devices.rack]\nindex = 2\n[devices.desk]\nindex = 3\n" ++
    "[devices.rack]\nindex = 4\n"

end Readers

end Btwattch2
