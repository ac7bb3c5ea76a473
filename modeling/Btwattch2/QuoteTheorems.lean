/-
Btwattch2.QuoteTheorems — quotes that are left in a value of the config file.

`unquote` leaves what is not one matching pair in place, for the reader of the
value to refuse. Every reader does, as no number, mode or address is written with
a quote (`read_quoted`); but a `socket` is any text, and a `default` is any text
that names a section.
-/
import Btwattch2.ConfigTheorems
import Btwattch2.TextTheorems

namespace Btwattch2

/-! ## No number is written with a quote -/

namespace Text

theorem readDigits_error {radix max : Nat} {c : Char} (hc : toDigit radix c = none) :
    ∀ {cs : List Char} {acc : Nat}, c ∈ cs → ∃ e, readDigits radix max cs acc = .error e
  | [], _, h => by simp at h
  | b :: cs, acc, h => by
    unfold readDigits
    cases hb : toDigit radix b with
    | none => exact ⟨_, rfl⟩
    | some d =>
      have hmem : c ∈ cs := by
        rcases List.mem_cons.mp h with rfl | h
        · rw [hc] at hb
          cases hb
        · exact h
      dsimp only
      split
      · exact ⟨_, rfl⟩
      · exact readDigits_error hc hmem

theorem toDigit_quote (radix : Nat) : toDigit radix '"' = none := by
  rw [toDigit, if_neg]
  rintro ⟨hlow, -⟩
  exact absurd hlow (by decide)

/-- An integer. -/
theorem fromStrRadix_quoted {radix max : Nat} {s : String} (h : '"' ∈ s.toList) :
    ∃ e, fromStrRadix radix max s = .error e := by
  have hdigits : ∀ {cs : List Char}, '"' ∈ cs → ∃ e, readDigits radix max cs 0 = .error e :=
    readDigits_error (toDigit_quote radix)
  unfold fromStrRadix
  split
  · exact ⟨_, rfl⟩
  · exact ⟨_, rfl⟩
  case h_3 heq =>
    rw [heq] at h
    exact hdigits (by simpa using h)
  · exact hdigits h

end Text

namespace F64

theorem mem_span_digits {cs : List Char} (h : '"' ∈ cs) : '"' ∈ (cs.span Char.isDigit).2 := by
  rw [List.span_eq_takeWhile_dropWhile]
  rw [← List.takeWhile_append_dropWhile (p := Char.isDigit) (l := cs)] at h
  rcases List.mem_append.mp h with h | h
  · exact absurd (List.mem_takeWhile_imp h) (by decide)
  · exact h

theorem parseExponent_quoted {cs : List Char} (h : '"' ∈ cs) : parseExponent cs = none := by
  have hall : ∀ {ds : List Char}, '"' ∈ ds → (ds.isEmpty || !ds.all Char.isDigit) = true := by
    intro ds hds
    have hnot : ds.all Char.isDigit = false := List.all_eq_false.mpr ⟨'"', hds, by decide⟩
    simp [hnot]
  unfold parseExponent
  split
  rename_i negative ds heq
  have hds : '"' ∈ ds := by
    split at heq <;> simp_all
  rw [if_pos (hall hds)]

theorem parseDecimal_quoted {cs : List Char} (h : '"' ∈ cs) : parseDecimal cs = none := by
  -- it is behind the digits, behind the digits of the fraction, and in the exponent
  unfold parseDecimal
  split
  rename_i whole rest hwhole
  have hrest : '"' ∈ rest := by
    have hspan := mem_span_digits h
    rwa [hwhole] at hspan
  split
  rename_i frac rest' hfrac
  have hrest' : '"' ∈ rest' := by
    split at hfrac
    · rename_i digits
      have hspan := mem_span_digits (by simpa using hrest : '"' ∈ digits)
      rwa [hfrac] at hspan
    · cases hfrac
      exact hrest
  dsimp only
  split
  · rfl
  · split
    · simp at hrest'
    · rename_i e exponent
      split
      · rename_i he
        have hexponent : '"' ∈ exponent := by
          rcases List.mem_cons.mp hrest' with rfl | hexponent
          · exact absurd he (by decide)
          · exact hexponent
        rw [parseExponent_quoted hexponent, Option.map_none]
      · rfl

/-- A decimal. -/
theorem parse_quoted {s : String} (h : '"' ∈ s.toList) : parse s = none := by
  unfold parse
  split
  rename_i negative cs hsign
  have hcs : '"' ∈ cs := by
    split at hsign <;> simp_all
  have hname : ∀ name : String, '"' ∉ name.toList → String.ofList (cs.map Char.toLower) ≠ name := by
    rintro name hquote rfl
    rw [String.toList_ofList] at hquote
    exact hquote (List.mem_map.mpr ⟨'"', hcs, by decide⟩)
  dsimp only
  rw [if_neg (hname "nan" (by decide)), if_neg, parseDecimal_quoted hcs, Option.map_none]
  rintro (heq | heq)
  · exact hname "inf" (by decide) heq
  · exact hname "infinity" (by decide) heq

end F64

/-- A quote is never white space, nor part of a unit. -/
theorem quote_mem_trim {s : String} (h : '"' ∈ s.toList) : '"' ∈ (Text.trim s).toList :=
  Text.mem_trim h (by decide)

theorem Interval.fromStr_quoted {s : String} (h : '"' ∈ s.toList) :
    ∃ e, Interval.fromStr s = .error e := by
  unfold Interval.fromStr
  extract_lets text
  have htext : '"' ∈ text.toList := quote_mem_trim h
  split
  rename_i number scale hunit
  have hnumber : '"' ∈ number.toList := by
    split at hunit
    · rename_i hms
      obtain ⟨rfl, -⟩ := Prod.mk.inj hunit
      exact Text.mem_stripSuffix hms htext (by decide)
    · obtain ⟨rfl, -⟩ := Prod.mk.inj hunit
      cases hsec : Text.stripSuffix "s" text with
      | none => exact htext
      | some number => exact Text.mem_stripSuffix hsec htext (by decide)
  rw [F64.parse_quoted (quote_mem_trim hnumber)]
  exact ⟨_, rfl⟩

theorem SocketMode.fromStr_quoted {s : String} (h : '"' ∈ s.toList) :
    ∃ e, SocketMode.fromStr s = .error e := by
  obtain ⟨e, he⟩ := @Text.fromStrRadix_quoted 8 (2 ^ 32 - 1) _ (quote_mem_trim h)
  unfold SocketMode.fromStr
  rw [he]
  exact ⟨_, rfl⟩

/-! ## No address either -/

def isHexChar (c : Char) : Bool := c.isDigit || ('a' ≤ c && c ≤ 'f') || ('A' ≤ c && c ≤ 'F')

/-- How the two addresses are written: `CB:DF:6B:12:34:56`, and `127.0.0.1:9184` or
`[fe80::1%2]:9184`. -/
structure Readers.Spelled (readers : Readers) : Prop where
  addr : ∀ s a, readers.addr s = .ok a →
    ∀ c ∈ s.toList, isHexChar c = true ∨ c = ':' ∨ c = '-' ∨ c = '+'
  socketAddr : ∀ s a, readers.socketAddr s = .ok a →
    ∀ c ∈ s.toList, isHexChar c = true ∨ c = ':' ∨ c = '.' ∨ c = '[' ∨ c = ']' ∨ c = '%'

variable {readers : Readers}

/-- **No value but a socket path is read with a quote in it.** -/
theorem Setting.read_quoted (h : readers.Spelled) {k : Setting} (hk : k ≠ .socket) {value : String}
    (hvalue : '"' ∈ value.toList) (v : k.Value) : k.read readers value ≠ .ok v := by
  intro hread
  cases k with
  | index =>
    obtain ⟨e, he⟩ : ∃ e, parseUsize value = .error e := Text.fromStrRadix_quoted hvalue
    exact nomatch he.symm.trans hread
  | interval =>
    obtain ⟨e, he⟩ := Interval.fromStr_quoted hvalue
    exact nomatch he.symm.trans hread
  | addr => exact absurd (h.addr value v hread '"' hvalue) (by decide)
  | socket => exact absurd rfl hk
  | socketMode =>
    obtain ⟨e, he⟩ := SocketMode.fromStr_quoted hvalue
    exact nomatch he.symm.trans hread
  | metricsListen => exact absurd (h.socketAddr value v hread '"' hvalue) (by decide)

/-! ## A line, before the first section -/

/-- What a line makes of a file that has no section yet. -/
def LineSays [Unicode] (readers : Readers) (config : FileConfig)
    (result : Except String PartialConfig) :
    ConfigLine → Prop
  | .header device => result = .ok
      ⟨{ config with devices := config.devices.insert device (config.devices.entry device) },
        some device⟩
  | .default value => result = .ok ⟨{ config with defaultDevice := some value }, none⟩
  | .pair key value => ∃ place, result =
      (assign readers config.defaults key value place).map fun defaults =>
        ⟨{ config with defaults }, none⟩
  | .blank | .malformed => True

theorem parseLine_before_sections [Unicode] {raw : String} {read : ConfigLine}
    (h : readConfigLine raw = read)
    (config : FileConfig) (lineno : Nat) :
    LineSays readers config (parseLine readers ⟨config, none⟩ lineno raw) read := by
  subst h
  unfold parseLine readConfigLine
  generalize Text.trim raw = line
  by_cases hblank : (line.isEmpty || (Text.stripPrefix "#" line).isSome) = true
  · simp only [hblank, if_true]
    trivial
  simp only [hblank]
  cases hheader : Text.stripPrefix "[" line with
  | some header =>
    dsimp only
    cases hname : Text.stripSuffix "]" header with
    | none => trivial
    | some name =>
      simp only [Option.bind_some]
      cases hdevice : Text.stripPrefix "devices." (Text.trim name) with
      | none => trivial
      | some device =>
        dsimp only
        generalize unquote (Text.trim device) = device
        cases hempty : device.isEmpty with
        | true => trivial
        | false => rfl
  | none =>
    dsimp only
    cases hpair : Text.splitOnce '=' line with
    | none => trivial
    | some pair =>
      obtain ⟨key, value⟩ := pair
      dsimp only
      generalize Text.trim key = key
      by_cases hdefault : key = "default"
      · simp only [hdefault, if_true]
        rfl
      · simp only [hdefault, if_false]
        exact ⟨_, rfl⟩

/-! ## Lines with quotes left in them -/

/-- A line that sets a key to a value with a quote left in it. -/
def Leftover (raw key : String) : Prop :=
  ∃ value, '"' ∈ value.toList ∧
    (readConfigLine raw = .pair key value ∨ readConfigLine raw = .default value ∧ key = "default")

/-- How a line that sets a key is read. -/
structure PairRead (raw : String) (line : ConfigLine) : Prop where
  /-- A value is unquoted, and nothing else happens to it. -/
  default : ∀ value, line = .default value → ∃ key written,
    Text.splitOnce '=' (Text.trim raw) = some (key, written) ∧ value = unquote (Text.trim written)
  /-- `default` is the file's, never a setting. -/
  pair : ∀ value, line ≠ .pair "default" value

theorem readConfigLine_pairRead (raw : String) : PairRead raw (readConfigLine raw) := by
  have hother : ∀ {line : ConfigLine}, (∀ value, line ≠ .default value) →
      (∀ value, line ≠ .pair "default" value) → PairRead raw line :=
    fun hdefault hpair => ⟨fun value h => absurd h (hdefault value), hpair⟩
  unfold readConfigLine
  dsimp only
  generalize hline : Text.trim raw = line
  by_cases hblank : (line.isEmpty || (Text.stripPrefix "#" line).isSome) = true
  · rw [if_pos hblank]
    exact hother (by simp) (by simp)
  rw [if_neg hblank]
  cases Text.stripPrefix "[" line with
  | some header =>
    dsimp only
    cases (Text.stripSuffix "]" header).bind
      fun name => Text.stripPrefix "devices." (Text.trim name) with
    | none => exact hother (by simp) (by simp)
    | some device =>
      dsimp only
      generalize unquote (Text.trim device) = device
      cases device.isEmpty with
      | true => exact hother (by simp) (by simp)
      | false => exact hother (by simp) (by simp)
  | none =>
    dsimp only
    cases hpair : Text.splitOnce '=' line with
    | none => exact hother (by simp) (by simp)
    | some pair =>
      obtain ⟨key, written⟩ := pair
      dsimp only
      by_cases hdefault : Text.trim key = "default"
      · rw [if_pos hdefault]
        constructor
        case default =>
          intro value hvalue
          exact ⟨key, written, hline ▸ hpair, (ConfigLine.default.inj hvalue).symm⟩
        case pair =>
          intro value
          simp
      · rw [if_neg hdefault]
        exact hother (by simp) fun value h => hdefault (ConfigLine.pair.inj h).1

theorem mem_unquote {c : Char} {s : String} (h : c ∈ (unquote s).toList) : c ∈ s.toList := by
  unfold unquote at h
  cases hbind : (Text.stripPrefix "\"" s).bind fun v => Text.stripSuffix "\"" v with
  | none =>
    rw [hbind, Option.getD_none] at h
    exact h
  | some inner =>
    rw [hbind, Option.getD_some] at h
    obtain ⟨v, hprefix, hsuffix⟩ := Option.bind_eq_some_iff.mp hbind
    exact Text.stripPrefix_subset hprefix (Text.stripSuffix_subset hsuffix h)

/-- A value is a piece of its line. -/
theorem default_subset {raw value : String} (h : readConfigLine raw = .default value) {c : Char}
    (hc : c ∈ value.toList) : c ∈ raw.toList := by
  obtain ⟨key, written, hsplit, hvalue⟩ := (readConfigLine_pairRead raw).default value h
  rw [hvalue] at hc
  exact Text.trim_subset (Text.splitOnce_subset hsplit (Text.trim_subset (mem_unquote hc)))

/-- Every line is read, in the section it stands in. -/
theorem mem_tagged {raw : String} : ∀ {lines : List String} {section_ : Option String},
    raw ∈ lines → ∃ tag, (tag, readConfigLine raw) ∈ tagged section_ lines
  | line :: lines, section_, h => by
    rw [tagged_cons]
    rcases List.mem_cons.mp h with rfl | h
    · exact ⟨_, List.mem_cons_self⟩
    · obtain ⟨tag, htag⟩ := mem_tagged h
      exact ⟨tag, List.mem_cons_of_mem _ htag⟩

def quoted (s : String) : String := "\"" ++ (s ++ "\"")

@[simp] theorem unquote_quoted (s : String) : unquote (quoted s) = s := by
  rw [unquote, quoted, Text.stripPrefix_append, Option.bind_some, Text.stripSuffix_append,
    Option.getD_some]

theorem trim_quoted (s : String) : Text.trim (quoted s) = quoted s :=
  Text.trim_eq_self (c := '"') (d := '"') (l := s.toList) (by simp [quoted]) (by decide) (by decide)

/-- A header whose name is in quotes. -/
def sectionHeader (device : String) : String := "[" ++ ("devices." ++ quoted device ++ "]")

theorem sectionHeader_toList (device : String) :
    (sectionHeader device).toList = '[' :: (("devices." ++ quoted device).toList ++ [']']) := by
  simp [sectionHeader]

theorem readConfigLine_sectionHeader {device : String} (h : device ≠ "") :
    readConfigLine (sectionHeader device) = .header device := by
  have hline : Text.trim (sectionHeader device) = sectionHeader device :=
    Text.trim_eq_self (sectionHeader_toList device) (by decide) (by decide)
  have hname : Text.trim ("devices." ++ quoted device) = "devices." ++ quoted device :=
    Text.trim_eq_self (c := 'd') (d := '"') (l := "evices.\"".toList ++ device.toList)
      (by simp [quoted]) (by decide) (by decide)
  have hfilled : ((sectionHeader device).isEmpty ||
    (Text.stripPrefix "#" (sectionHeader device)).isSome) =
      false := by
    have hempty : (sectionHeader device).isEmpty = false := by
      rw [Bool.eq_false_iff, ne_eq, String.isEmpty_iff]
      intro heq
      have htoList := sectionHeader_toList device
      rw [heq] at htoList
      cases htoList
    have hcomment : Text.stripPrefix "#" (sectionHeader device) = none := by
      rw [Text.stripPrefix, sectionHeader_toList]
      rfl
    rw [hempty, hcomment]
    rfl
  have hdevice : device.isEmpty = false := by
    rw [Bool.eq_false_iff, ne_eq, String.isEmpty_iff]
    exact h
  unfold readConfigLine
  rw [hline]
  dsimp only
  rw [hfilled]
  have hopen : Text.stripPrefix "[" (sectionHeader device) =
    some ("devices." ++ quoted device ++ "]") :=
    Text.stripPrefix_append _ _
  simp only [hopen, Text.stripSuffix_append, Option.bind_some, hname, Text.stripPrefix_append,
    trim_quoted, unquote_quoted, hdevice]
  rfl

/-! ## What is refused -/

/-- A setting whose value is read refuses the file. -/
theorem leftover_rejected [Unicode] (h : readers.Spelled) {raw key : String}
    (hleft : Leftover raw key)
    (hsocket : key ≠ "socket") (hdefault : key ≠ "default") {text path : String}
    (hraw : raw ∈ Text.lines text) : ∃ e, parseConfig readers text path = .error e := by
  obtain ⟨value, hvalue, hpair | ⟨-, hkey⟩⟩ := hleft
  · cases hparse : parseConfig readers text path with
    | error e => exact ⟨e, rfl⟩
    | ok file =>
      obtain ⟨tag, htag⟩ : ∃ tag, (tag, readConfigLine raw) ∈ taggedLines text := mem_tagged hraw
      rw [hpair] at htag
      obtain ⟨k, v, rfl, hread⟩ := (parseConfig_holds hparse).readable _ htag key value rfl
      refine absurd hread (Setting.read_quoted h ?_ hvalue v)
      rintro rfl
      exact hsocket rfl
  · exact absurd hkey hdefault

theorem ne_nil_of_read {raw : String} {line : ConfigLine} (h : readConfigLine raw = line)
    (hline : line ≠ .blank) : raw.toList ≠ [] := by
  intro hnil
  rw [String.toList_eq_nil_iff.mp hnil] at h
  exact hline (h.symm.trans rfl)

theorem lines_line {raw : String} (hraw : '\n' ∉ raw.toList) (hne : raw.toList ≠ []) :
    Text.lines raw = [raw] := by
  rw [Text.lines, Text.splitLines_line hraw hne, List.map_singleton, String.ofList_toList]

theorem parseLines_cons_ok [Unicode] {file file' : PartialConfig} {lineno : Nat} {raw : String}
    {rest : List String} (h : parseLine readers file lineno raw = .ok file') :
    parseLines readers file lineno (raw :: rest) = parseLines readers file' (lineno + 1) rest := by
  rw [parseLines, h]
  rfl

/-- A socket path is any text. -/
theorem socket_accepted [Unicode] {raw value : String} (hraw : '\n' ∉ raw.toList)
    (hread : readConfigLine raw = .pair "socket" value) (path : String) :
    raw ∈ Text.lines raw ∧ ∃ file, parseConfig readers raw path = .ok file := by
  have hlines := lines_line hraw (ne_nil_of_read hread nofun)
  obtain ⟨place, hline⟩ := @parseLine_before_sections readers _ _ _ hread ⟨{}, .empty, none, path⟩ 0
  constructor
  · simp [hlines]
  · refine ⟨⟨{ socket := some value }, .empty, none, path⟩, ?_⟩
    rw [parseConfig, hlines, parseLines_cons_ok hline]
    rfl

/-- The text of a `default`, and of the section it names. -/
def defaultConfig (raw device : String) : String :=
  String.ofList (raw.toList ++ '\r' :: '\n' :: (sectionHeader device).toList)

/-- What that text holds. -/
def named (device path : String) : FileConfig :=
  ⟨{}, DeviceMap.empty.insert device (DeviceMap.empty.entry device), some device, path⟩

theorem lines_defaultConfig {raw device : String} (hraw : '\n' ∉ raw.toList)
    (hdevice : '\n' ∉ device.toList) :
    Text.lines (defaultConfig raw device) = [raw, sectionHeader device] := by
  have hheader : '\n' ∉ (sectionHeader device).toList := by
    simp [sectionHeader, quoted, hdevice]
  rw [Text.lines, defaultConfig, String.toList_ofList, Text.splitLines_append_crlf _ hraw,
    Text.splitLines_line hheader (by simp [sectionHeader_toList])]
  simp

/-- And so is the name of a section. -/
theorem default_accepted [Unicode] {raw value : String} (hraw : '\n' ∉ raw.toList)
    (hvalue : value ≠ "")
    (hread : readConfigLine raw = .default value) (path : String) :
    raw ∈ Text.lines (defaultConfig raw value) ∧
      ∃ file, parseConfig readers (defaultConfig raw value) path = .ok file := by
  have hlines := lines_defaultConfig hraw fun hmem => hraw (default_subset hread hmem)
  have hdefault : parseLine readers ⟨⟨{}, .empty, none, path⟩, none⟩ 0 raw =
      .ok ⟨⟨{}, .empty, some value, path⟩, none⟩ := parseLine_before_sections hread _ 0
  have hheader : parseLine readers ⟨⟨{}, .empty, some value, path⟩, none⟩ 1 (sectionHeader value) =
      .ok ⟨named value path, some value⟩ :=
        parseLine_before_sections (readConfigLine_sectionHeader hvalue) _ 1
  have hall : parseLines readers ⟨⟨{}, .empty, none, path⟩, none⟩ 0 [raw, sectionHeader value] =
      .ok ⟨named value path, some value⟩ := by
    rw [parseLines_cons_ok hdefault, parseLines_cons_ok hheader, parseLines]
  constructor
  · simp [hlines]
  · refine ⟨named value path, ?_⟩
    have hget : (named value path).devices.get value ≠ none := by
      simp [named, DeviceMap.get_insert]
    rw [parseConfig, hlines, hall]
    exact if_neg hget

/-- **Leftover quotes.** A line with a quote left in its value has every file it
stands in refused, unless it sets a socket path or names a section. -/
theorem leftover_rejected_iff [Unicode] (h : readers.Spelled) {raw key : String}
    (hraw : '\n' ∉ raw.toList)
    (hleft : Leftover raw key) :
    (∀ text path, raw ∈ Text.lines text → ∃ e, parseConfig readers text path = .error e) ↔
      key ≠ "socket" ∧ key ≠ "default" := by
  constructor
  · intro hrejected
    have hnot : ∀ {text path : String}, raw ∈ Text.lines text →
        ¬ ∃ file, parseConfig readers text path = .ok file := by
      rintro text path hmem ⟨file, hok⟩
      obtain ⟨e, he⟩ := hrejected text path hmem
      exact nomatch he.symm.trans hok
    obtain ⟨value, hvalue, hread⟩ := hleft
    constructor
    · rintro rfl
      rcases hread with hread | ⟨-, hkey⟩
      · obtain ⟨hmem, hok⟩ := socket_accepted hraw hread "config.toml"
        exact hnot hmem hok
      · exact absurd hkey (by decide)
    · rintro rfl
      rcases hread with hread | ⟨hread, -⟩
      · exact (readConfigLine_pairRead raw).pair value hread
      · have hne : value ≠ "" := by
          rintro rfl
          simp at hvalue
        obtain ⟨hmem, hok⟩ := default_accepted hraw hne hread "config.toml"
        exact hnot hmem hok
  · rintro ⟨hsocket, hdefault⟩ text path hmem
    exact leftover_rejected h hleft hsocket hdefault hmem

/-- Readers that know one address each. -/
def benchReaders : Readers where
  addr s := if s = "CB:DF:6B:00:00:0B" then .ok 0xCBDF6B00000B#48 else .error "invalid digit"
  socketAddr s := if s = "127.0.0.1:9184" then .ok s else .error "invalid socket address syntax"

theorem benchReaders_spelled : benchReaders.Spelled := by
  constructor
  case addr =>
    intro s a hread
    have hs : s = "CB:DF:6B:00:00:0B" := by
      by_contra hne
      simp [benchReaders, hne] at hread
    have hall : s.toList.all (fun c => isHexChar c || c == ':') = true := by
      rw [hs]
      decide
    intro c hc
    have hchar := List.all_eq_true.mp hall c hc
    rw [Bool.or_eq_true, beq_iff_eq] at hchar
    exact hchar.imp_right .inl
  case socketAddr =>
    intro s a hread
    have hs : s = "127.0.0.1:9184" := by
      by_contra hne
      simp [benchReaders, hne] at hread
    have hall : s.toList.all (fun c => isHexChar c || (c == ':' || c == '.')) = true := by
      rw [hs]
      decide
    intro c hc
    have hchar := List.all_eq_true.mp hall c hc
    rw [Bool.or_eq_true, Bool.or_eq_true, beq_iff_eq, beq_iff_eq] at hchar
    exact hchar.imp_right fun h => h.imp_right .inl

/-- A comment behind an address is refused, whatever the file holds. -/
theorem leftover_rejected_iff_addr : letI : Unicode := .ascii
    Leftover "addr = \"CB:DF:6B:00:00:0B\" # rack" "addr" ∧
      ∀ text path, "addr = \"CB:DF:6B:00:00:0B\" # rack" ∈ Text.lines text →
        ∃ e, parseConfig benchReaders text path = .error e := by
  let _ : Unicode := .ascii
  have hleft : Leftover "addr = \"CB:DF:6B:00:00:0B\" # rack" "addr" :=
    ⟨"\"CB:DF:6B:00:00:0B\" # rack", by decide, .inl (by decide +kernel)⟩
  exact ⟨hleft, (leftover_rejected_iff benchReaders_spelled (by decide) hleft).mpr (by decide)⟩

/-- One behind a socket path becomes part of the path. -/
theorem not_leftover_rejected : letI : Unicode := .ascii
    Leftover "socket = \"/run/a.sock\" # note" "socket" ∧
      "socket = \"/run/a.sock\" # note" ∈ Text.lines "socket = \"/run/a.sock\" # note" ∧
      (parseConfig benchReaders "socket = \"/run/a.sock\" # note" "config.toml").toOption.bind
        (·.defaults.socket) = some "\"/run/a.sock\" # note" := by
  have hleft : Leftover "socket = \"/run/a.sock\" # note" "socket" :=
    ⟨"\"/run/a.sock\" # note", by decide, .inl (by decide +kernel)⟩
  let _ : Unicode := .ascii
  exact ⟨hleft, by decide +kernel, by decide +kernel⟩

end Btwattch2
