/-
Btwattch2.Config — reading the config file (`parse_config` of `cli.rs`) and the
values in it.

A file is `key = value` lines, optionally grouped into `[devices.NAME]` sections
that may be re-entered. The readers of the two address types are not part of the
repository and come in as `Readers`.
-/
import Mathlib.Data.String.Basic
import Btwattch2.Cli
import Btwattch2.Decimal
import Btwattch2.Status

namespace Btwattch2

/-! ## Values -/

def parseUsize (s : String) : Except String Nat := Text.fromStrRadix 10 (2 ^ 64 - 1) s

/-- The nearest number of nanoseconds, a tie going to the even one. -/
def nearestNanos (seconds : ℚ) : Nat :=
  let scaled := seconds * nanosPerSec
  let below := scaled.floor.toNat
  let rest := scaled - below
  if 1 / 2 < rest ∨ (rest = 1 / 2 ∧ below % 2 = 1) then below + 1 else below

/-- `Duration::try_from_secs_f64`, in nanoseconds. -/
def tryFromSecsF64 : F64.Value → Except String Nat
  | .finite negative seconds =>
    if negative ∧ seconds ≠ 0 then
      .error "cannot convert float seconds to Duration: value is negative"
    else if 2 ^ 64 ≤ seconds then
      .error "cannot convert float seconds to Duration: value is either too big or NaN"
    else .ok (nearestNanos seconds)
  | .infinite true => .error "cannot convert float seconds to Duration: value is negative"
  | _ => .error "cannot convert float seconds to Duration: value is either too big or NaN"

/-- `seconds * scale` for a positive `scale`. -/
def F64.Value.scaled (seconds : F64.Value) (scale : ℚ) : F64.Value :=
  match seconds with
  | .finite negative magnitude => .finite negative (F64.mul magnitude scale)
  | seconds => seconds

/-- Seconds (`1`, `0.5`, `2s`) or milliseconds (`500ms`). -/
def Interval.fromStr (s : String) : Except String Interval :=
  let text := Text.trim s
  let (number, scale) : String × ℚ := match Text.stripSuffix "ms" text with
    | some number => (number, F64.round (1 / 1000))
    | none => ((Text.stripSuffix "s" text).getD text, 1)
  match F64.parse (Text.trim number) with
  | none => .error "expected a duration such as 0.5, 500ms, or 2s"
  | some seconds =>
    match tryFromSecsF64 (seconds.scaled scale) with
    | .error e => .error e
    | .ok nanos =>
      if hmin : nanos < minInterval then .error "shorter than the 10ms minimum"
      else if hmax : maxInterval < nanos then .error "longer than the 86400s maximum"
      else .ok ⟨nanos, Nat.le_of_not_lt hmin, Nat.le_of_not_lt hmax⟩

/-- Always octal, with or without the customary leading zero. -/
def SocketMode.fromStr (s : String) : Except String SocketMode :=
  match Text.fromStrRadix 8 (2 ^ 32 - 1) (Text.trim s) with
  | .error _ => .error "expected octal permission bits, e.g. 0600 or 0666"
  | .ok bits =>
    if h : 0o777 < bits then .error "sets bits beyond the 0o777 permission bits"
    else .ok ⟨bits, Nat.le_of_not_lt h⟩

/-- The readers of a device address and of a socket address, the latter kept as
it is displayed. -/
structure Readers where
  addr : String → Except String BDAddr
  socketAddr : String → Except String String

/-- Strip one matching pair of double quotes. -/
def unquote (value : String) : String :=
  ((Text.stripPrefix "\"" value).bind fun v => Text.stripSuffix "\"" v).getD value

/-- One value, an error naming the line, the key and the value. -/
def parseValue [Unicode] {α : Type} (fromStr : String → Except String α)
    (value key place : String) : Except String α :=
  match fromStr value with
  | .ok v => .ok v
  | .error e => .error s!"{place}: invalid {key} {debugString value}: {e}"

example : Interval.fromStr " 250 ms " = .ok ⟨250000000, by decide, by decide⟩ := by decide +kernel

/-! ## The sections -/

namespace DeviceMap

def insertEntry (name : String) (device : Settings) :
    List (String × Settings) → List (String × Settings)
  | [] => [(name, device)]
  | (key, value) :: rest =>
    if name < key then (name, device) :: (key, value) :: rest
    else if name = key then (name, device) :: rest
    else (key, value) :: insertEntry name device rest

theorem mem_insertEntry {name key : String} {device : Settings} :
    ∀ {entries : List (String × Settings)},
      key ∈ (insertEntry name device entries).map Prod.fst →
      key = name ∨ key ∈ entries.map Prod.fst
  | [], h => by simpa [insertEntry] using h
  | (k, v) :: rest, h => by
    unfold insertEntry at h
    split at h
    · simpa using h
    · split at h
      case isTrue hname =>
        rcases List.mem_cons.mp h with rfl | h
        · exact .inl rfl
        · exact .inr (List.mem_cons_of_mem _ h)
      · rcases List.mem_cons.mp h with rfl | h
        · exact .inr List.mem_cons_self
        · exact (mem_insertEntry h).imp_right (List.mem_cons_of_mem _)

theorem sorted_insertEntry (name : String) (device : Settings) :
    ∀ {entries : List (String × Settings)}, (entries.map Prod.fst).Pairwise (· < ·) →
      ((insertEntry name device entries).map Prod.fst).Pairwise (· < ·)
  | [], _ => by simp [insertEntry]
  | (k, v) :: rest, h => by
    obtain ⟨hk, hrest⟩ := List.pairwise_cons.mp h
    unfold insertEntry
    split
    case isTrue hlt =>
      refine List.pairwise_cons.mpr ⟨fun key hkey => ?_, h⟩
      rcases List.mem_cons.mp hkey with rfl | hkey
      · exact hlt
      · exact lt_trans hlt (hk key hkey)
    case isFalse hle =>
      split
      case isTrue heq =>
        subst heq
        exact List.pairwise_cons.mpr ⟨hk, hrest⟩
      case isFalse hne =>
        refine List.pairwise_cons.mpr ⟨fun key hkey => ?_, sorted_insertEntry name device hrest⟩
        rcases mem_insertEntry hkey with rfl | hkey
        · exact lt_of_le_of_ne (le_of_not_gt hle) (Ne.symm hne)
        · exact hk key hkey

theorem lookup_cons_eq (key k : String) (v : Settings) (rest : List (String × Settings)) :
    ((k, v) :: rest).lookup key = if key = k then some v else rest.lookup key := by
  by_cases hkey : key = k
  · simp [hkey]
  · rw [List.lookup_cons, beq_eq_false_iff_ne.mpr hkey, if_neg hkey]

theorem lookup_insertEntry {name key : String} {device : Settings} :
    ∀ entries : List (String × Settings), (insertEntry name device entries).lookup key =
      if key = name then some device else entries.lookup key
  | [] => lookup_cons_eq key name device []
  | (k, v) :: rest => by
    have ih : (insertEntry name device rest).lookup key =
        if key = name then some device else rest.lookup key := lookup_insertEntry rest
    unfold insertEntry
    split
    · exact lookup_cons_eq key name device _
    · split
      case isTrue heq =>
        subst heq
        rw [lookup_cons_eq, lookup_cons_eq]
        split <;> rfl
      case isFalse hne =>
        rw [lookup_cons_eq, lookup_cons_eq, ih]
        by_cases hkey : key = k
        · rw [if_pos hkey, if_pos hkey, if_neg (hkey ▸ Ne.symm hne)]
        · rw [if_neg hkey, if_neg hkey]

def empty : DeviceMap := ⟨[], .nil⟩

def insert (devices : DeviceMap) (name : String) (device : Settings) : DeviceMap :=
  ⟨insertEntry name device devices.entries, sorted_insertEntry name device devices.sorted⟩

theorem get_insert (devices : DeviceMap) (name key : String) (device : Settings) :
    (devices.insert name device).get key = if key = name then some device else devices.get key :=
  lookup_insertEntry devices.entries

/-- `entry(name).or_default()`: what is there, or a fresh section. -/
def entry (devices : DeviceMap) (name : String) : Settings := (devices.get name).getD {}

end DeviceMap

/-! ## The file -/

section File

variable (readers : Readers)

/-- Apply one `key = value` pair. Unknown keys are errors. -/
def assign [Unicode] (profile : Settings) (key value place : String) : Except String Settings :=
  match key with
  | "index" => do
    let index ← parseValue parseUsize value key place
    pure { profile with connect := { profile.connect with index := some index } }
  | "interval" => do
    let interval ← parseValue Interval.fromStr value key place
    pure { profile with connect := { profile.connect with interval := some interval } }
  | "addr" => do
    let addr ← parseValue readers.addr value key place
    pure { profile with connect := { profile.connect with addr := some addr } }
  | "socket" => pure { profile with socket := some value }
  | "socket_mode" => do
    let socketMode ← parseValue SocketMode.fromStr value key place
    pure { profile with socketMode := some socketMode }
  | "metrics_listen" => do
    let metricsListen ← parseValue readers.socketAddr value key place
    pure { profile with metricsListen := some metricsListen }
  | _ => .error s!"{place}: unknown key: {key}"

/-- What has been read so far, and which section the keys being read belong to. -/
structure PartialConfig where
  config : FileConfig
  section_ : Option String

/-- One line, its number counted from zero. -/
def parseLine [Unicode] (file : PartialConfig) (lineno : Nat) (raw : String) :
    Except String PartialConfig :=
  let config := file.config
  let line := Text.trim raw
  let place := s!"{config.path}:{lineno + 1}"
  if line.isEmpty || (Text.stripPrefix "#" line).isSome then .ok file
  else match Text.stripPrefix "[" line with
  | some header =>
    match Text.stripSuffix "]" header with
    | none => .error s!"{place}: unterminated section header: {line}"
    | some name =>
      let name := Text.trim name
      match Text.stripPrefix "devices." name with
      | none => .error s!"{place}: unknown section [{name}]; only [devices.<name>] is understood"
      | some device =>
        let device := unquote (Text.trim device)
        if device.isEmpty then .error s!"{place}: a [devices.<name>] section needs a name"
        else .ok ⟨{ config with devices := config.devices.insert device (config.devices.entry device) },
          some device⟩
  | none =>
    match Text.splitOnce '=' line with
    | none => .error s!"{place}: expected `key = value`, got: {line}"
    | some (key, value) =>
      let key := Text.trim key
      let value := unquote (Text.trim value)
      if key = "default" then
        match file.section_ with
        | some _ =>
          .error s!"{place}: `default` belongs before the first [devices.<name>] section"
        | none => .ok { file with config := { config with defaultDevice := some value } }
      else match file.section_ with
        | some name => do
          let device ← assign readers (config.devices.entry name) key value place
          pure { file with config := { config with devices := config.devices.insert name device } }
        | none => do
          let defaults ← assign readers config.defaults key value place
          pure { file with config := { config with defaults } }

def parseLines [Unicode] : PartialConfig → Nat → List String → Except String PartialConfig
  | file, _, [] => .ok file
  | file, lineno, raw :: rest => do
    let file ← parseLine readers file lineno raw
    parseLines file (lineno + 1) rest

/-- Parse a config file. A `default` that names no section is an error. -/
def parseConfig [Unicode] (text path : String) : Except String FileConfig := do
  let file ← parseLines readers ⟨⟨{}, .empty, none, path⟩, none⟩ 0 (Text.lines text)
  let config := file.config
  match config.defaultDevice with
  | some name =>
    if config.devices.get name = none then
      .error (s!"{path}: default = {debugString name} names no [devices.{name}] section; " ++
        config.deviceNames)
    else pure config
  | none => pure config

end File

end Btwattch2
