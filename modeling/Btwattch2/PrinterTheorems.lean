/-
Btwattch2.PrinterTheorems — no metric name forges output.

What a run prints is lines, each with its newline (`printAll_eq`): a head, once, and
the lines of every sample. As no character that a format splits at can stand in a
name or a number, the lines are told apart again, and so are the fields on each
(`printed_documented`).
-/
import Btwattch2.MetricsTheorems
import Btwattch2.Printer
import Btwattch2.TextTheorems

namespace Btwattch2.Output

open Text (split unlines)

variable {F : Type}

/-! ## What is documented -/

/-- The characters that fields and lines are told apart by. -/
def isSeparator (c : Char) : Bool := c == '\t' || c == '\n' || c == ',' || c == ':' || c == ' '

/-- A number is written without any of them. -/
structure Floats.Plain (floats : Floats F) : Prop where
  display : ∀ x, ∀ c ∈ (floats.display x).toList, isSeparator c = false
  fixed : ∀ places x, ∀ c ∈ (floats.fixed places x).toList, isSeparator c = false
  json : ∀ x, ∀ c ∈ (floats.json x).toList, isSeparator c = false

/-- `[A-Za-z_:][A-Za-z0-9_:]*`. -/
def isMetricName (s : String) : Bool :=
  match s.toList with
  | [] => false
  | c :: cs => (c.isAlpha || c == '_' || c == ':') && cs.all fun c =>
    c.isAlphanum || c == '_' || c == ':'

/-- What is between the braces of a JSON object. -/
def inBraces (s : String) : String :=
  ((Text.stripPrefix "\x7b" s).bind fun v => Text.stripSuffix "\x7d" v).getD s

section Documented

variable (floats : Floats F) (name : String) (samples : List (Measurement F × F))
    (lines : List String)

def epoch (m : Measurement F) : String := toString m.timestamp.timestamp

/-- The fields of a sample as they are displayed, in output order. -/
def displayed (m : Measurement F) (energyWh : F) : List (String × String) :=
  (fields m energyWh).map fun (field, value) => (field, floats.display value)

structure PlainLines : Prop where
  rows : lines.map (split ',') = samples.map fun (m, energyWh) =>
    ["V = " ++ floats.display m.voltage, " A = " ++ floats.display m.ampere,
      " W = " ++ floats.display m.wattage, " PF = " ++ floats.fixed 4 m.powerFactor,
      " Wh = " ++ floats.fixed 3 energyWh]

/-- Four lines for every sample, of three fields each: all but the energy. -/
structure MackerelLines : Prop where
  rows : lines.map (split '\t') = samples.flatMap fun (m, energyWh) =>
    ((displayed floats m energyWh).take 4).map fun (field, value) =>
      [name ++ "." ++ field, value, epoch m]
  four : lines.length = 4 * samples.length
  three : ∀ line ∈ lines, (split '\t' line).length = 3

/-- A header, and a row for every sample with as many columns. -/
structure CsvLines : Prop where
  rows : lines.map (split ',') = ("time" :: fieldNames) :: samples.map fun (m, energyWh) =>
    epoch m :: (displayed floats m energyWh).map Prod.snd
  columns : ∀ line ∈ lines, (split ',' line).length = ("time" :: fieldNames).length

structure LtsvLines : Prop where
  rows : lines.map (fun line => (split '\t' line).map (split ':')) =
    samples.map fun (m, energyWh) => ["time", epoch m] ::
      (displayed floats m energyWh).map fun (field, value) => [field, value]

/-- An object for every sample. -/
structure JsonLines : Prop where
  braces : ∀ line ∈ lines, line = "\x7b" ++ inBraces line ++ "\x7d"
  entries : lines.map (fun line => (split ',' (inBraces line)).map (split ':')) =
    samples.map fun (m, energyWh) => ["\"time\"", epoch m] ::
      (fields m energyWh).map fun (field, value) => ["\"" ++ field ++ "\"", floats.json value]

/-- Two lines for every field, once, and then five for every sample. -/
structure PrometheusLines : Prop where
  rows : ∃ readings, lines = (fieldSpecs.flatMap fun (field, help) =>
      ["# HELP " ++ name ++ "_" ++ field ++ " " ++ help, "# TYPE " ++ name ++ "_" ++ field ++
        " gauge"]) ++
        readings ∧
    (readings.map (split ' ') = samples.flatMap fun (m, energyWh) =>
      (displayed floats m energyWh).map fun (field, value) =>
        [name ++ "_" ++ field, value, toString m.timestamp.timestampMillis]) ∧
    readings.length = 5 * samples.length ∧
    ∀ reading ∈ readings, (split ' ' reading).head?.any isMetricName = true
  names : ∀ field ∈ fieldNames, isMetricName (name ++ "_" ++ field) = true

def Documented : OutputFormat → Prop
  | .plain => PlainLines floats samples lines
  | .mackerel => MackerelLines floats name samples lines
  | .csv => CsvLines floats samples lines
  | .ltsv => LtsvLines floats samples lines
  | .json => JsonLines floats samples lines
  | .prometheus => PrometheusLines floats name samples lines

end Documented

/-! ## The lines of a run -/

theorem fields_names (m : Measurement F) (energyWh : F) :
    (fields m energyWh).map Prod.fst = fieldNames := rfl

theorem displayed_names (floats : Floats F) (m : Measurement F) (energyWh : F) :
    (displayed floats m energyWh).map Prod.fst = fieldNames := rfl

/-- What is printed before the first sample. -/
def headLines (format : OutputFormat) (name : String) : List String :=
  match format with
  | .csv => [",".intercalate ("time" :: fieldNames)]
  | .prometheus => fieldSpecs.flatMap fun (field, help) =>
      ["# HELP " ++ name ++ "_" ++ field ++ " " ++ help, "# TYPE " ++ name ++ "_" ++
        field ++ " gauge"]
  | _ => []

/-- What is printed for a sample. -/
def sampleLines (floats : Floats F) (format : OutputFormat) (name : String) (m : Measurement F)
    (energyWh : F) : List String :=
  match format with
  | .plain => [",".intercalate ["V = " ++ floats.display m.voltage,
    " A = " ++ floats.display m.ampere,
      " W = " ++ floats.display m.wattage, " PF = " ++ floats.fixed 4 m.powerFactor,
      " Wh = " ++ floats.fixed 3 energyWh]]
  | .mackerel => ((displayed floats m energyWh).take 4).map fun (field, value) =>
      "\t".intercalate [name ++ "." ++ field, value, epoch m]
  | .csv => [",".intercalate (epoch m :: (displayed floats m energyWh).map Prod.snd)]
  | .ltsv => ["\t".intercalate (("time:" ++ epoch m) ::
      (displayed floats m energyWh).map fun (field, value) => field ++ ":" ++ value)]
  | .json => [jsonLine floats m energyWh]
  | .prometheus => (displayed floats m energyWh).map fun (field, value) =>
      " ".intercalate [name ++ "_" ++ field, value, toString m.timestamp.timestampMillis]

/-- What is still to print before the next sample. -/
def Printer.head (printer : Printer) : List String :=
  if printer.headerPrinted then [] else headLines printer.format printer.metricPrefix

theorem unlines_singleton (line : String) : unlines [line] = println line := by
  simp [unlines, println]

theorem join_println {α : Type} (l : List α) (line : α → String) :
    String.join (l.map fun x => println (line x)) = unlines (l.map line) := by
  rw [unlines, List.map_map]
  rfl

theorem join_println_pair {α : Type} (l : List α) (line line' : α → String) :
    String.join (l.map fun x => println (line x) ++ println (line' x)) =
      unlines (l.flatMap fun x => [line x, line' x]) := by
  induction l with
  | nil => rfl
  | cons x l ih =>
    rw [List.map_cons, String.join_cons, ih, List.flatMap_cons, Text.unlines_append]
    simp [unlines, println]

theorem displayed_channels (floats : Floats F) (m : Measurement F) (energyWh : F) :
    (displayed floats m energyWh).take 4 =
      channelsOf.map fun channel => (channel.1.name, floats.display (channel.2 m)) := rfl

theorem head_eq_nil {printer : Printer} (h : headLines printer.format printer.metricPrefix = []) :
    printer.head = [] := by
  rw [Printer.head, h, ite_self]

/-! ### The lines of each format, as they are printed -/

theorem plain_line (floats : Floats F) (name : String) (m : Measurement F) (energyWh : F) :
    sampleLines floats .plain name m energyWh = ["V = " ++ floats.display m.voltage ++
      ", A = " ++ floats.display m.ampere ++ ", W = " ++ floats.display m.wattage ++ ", PF = " ++
      floats.fixed 4 m.powerFactor ++ ", Wh = " ++ floats.fixed 3 energyWh] := by
  rw [sampleLines, List.cons.injEq, ← String.toList_inj]
  simp

theorem mackerel_lines (floats : Floats F) (name : String) (m : Measurement F) (energyWh : F) :
    sampleLines floats .mackerel name m energyWh = channelsOf.map fun channel =>
      name ++ "." ++ channel.1.name ++ "\t" ++ floats.display (channel.2 m) ++ "\t" ++ epoch m := by
  simp [sampleLines, displayed_channels, String.append_assoc]

theorem csv_line (floats : Floats F) (name : String) (m : Measurement F) (energyWh : F) :
    sampleLines floats .csv name m energyWh = [epoch m ++ "," ++
      ",".intercalate ((fields m energyWh).map fun field => floats.display field.2)] := by
  rw [sampleLines, String.intercalate_cons_of_ne_nil (by simp [displayed, fields]), displayed,
    List.map_map]
  rfl

theorem csv_head (name : String) : headLines .csv name =
    ["time," ++ ",".intercalate fieldNames] := by
  rw [headLines, String.intercalate_cons_of_ne_nil (by simp [fieldNames, fieldSpecs])]
  rfl

theorem ltsv_line (floats : Floats F) (name : String) (m : Measurement F) (energyWh : F) :
    sampleLines floats .ltsv name m energyWh = ["time:" ++ epoch m ++ "\t" ++
      "\t".intercalate ((fields m energyWh).map fun field =>
        field.1 ++ ":" ++ floats.display field.2)] := by
  rw [sampleLines, String.intercalate_cons_of_ne_nil (by simp [displayed, fields]), displayed,
    List.map_map]
  rfl

theorem prometheus_lines (floats : Floats F) (name : String) (m : Measurement F) (energyWh : F) :
    sampleLines floats .prometheus name m energyWh = (fields m energyWh).map fun field =>
      name ++ "_" ++ field.1 ++ " " ++ floats.display field.2 ++ " " ++
        toString m.timestamp.timestampMillis := by
  simp [sampleLines, displayed, String.append_assoc]

/-- **One sample**: its lines are printed, with the head in front if that is still to print. -/
theorem print_text (floats : Floats F) (printer : Printer) (m : Measurement F) (energyWh : F) :
    (printer.print floats m energyWh).1 = unlines
      (printer.head ++ sampleLines floats printer.format printer.metricPrefix m energyWh) := by
  obtain ⟨format, name, headerPrinted⟩ := printer
  rw [Text.unlines_append]
  cases format with
  | plain =>
    rw [@head_eq_nil ⟨.plain, name, headerPrinted⟩ rfl, plain_line, unlines_singleton]
    rfl
  | mackerel =>
    rw [@head_eq_nil ⟨.mackerel, name, headerPrinted⟩ rfl, mackerel_lines, ← join_println]
    rfl
  | csv =>
    rw [Printer.head, csv_head, csv_line, unlines_singleton]
    cases headerPrinted with
    | true => rfl
    | false =>
      rw [if_neg Bool.false_ne_true, unlines_singleton]
      rfl
  | ltsv =>
    rw [@head_eq_nil ⟨.ltsv, name, headerPrinted⟩ rfl, ltsv_line, unlines_singleton]
    rfl
  | json =>
    rw [@head_eq_nil ⟨.json, name, headerPrinted⟩ rfl, sampleLines, unlines_singleton]
    rfl
  | prometheus =>
    rw [Printer.head, prometheus_lines, ← join_println]
    cases headerPrinted with
    | true => rfl
    | false =>
      rw [if_neg Bool.false_ne_true, headLines]
      show _ = unlines (fieldSpecs.flatMap fun spec =>
        ["# HELP " ++ name ++ "_" ++ spec.1 ++ " " ++ spec.2,
          "# TYPE " ++ name ++ "_" ++ spec.1 ++ " gauge"]) ++ _
      rw [← join_println_pair]
      rfl

/-- The printer after a sample, to which the head is no longer to print. -/
structure Next (printer next : Printer) : Prop where
  format : next.format = printer.format
  metricPrefix : next.metricPrefix = printer.metricPrefix
  head : next.head = []

theorem print_next (floats : Floats F) (printer : Printer) (m : Measurement F) (energyWh : F) :
    Next printer (printer.print floats m energyWh).2 := by
  obtain ⟨format, name, headerPrinted⟩ := printer
  cases format with
  | csv => exact ⟨rfl, rfl, rfl⟩
  | prometheus => exact ⟨rfl, rfl, rfl⟩
  | plain => exact ⟨rfl, rfl, head_eq_nil rfl⟩
  | mackerel => exact ⟨rfl, rfl, head_eq_nil rfl⟩
  | ltsv => exact ⟨rfl, rfl, head_eq_nil rfl⟩
  | json => exact ⟨rfl, rfl, head_eq_nil rfl⟩

/-- The lines of the samples of a run. -/
def runLines (floats : Floats F) (format : OutputFormat) (name : String)
    (samples : List (Measurement F × F)) : List String :=
  samples.flatMap fun sample => sampleLines floats format name sample.1 sample.2

theorem printAll_cons (floats : Floats F) (printer : Printer) (sample : Measurement F × F)
    (rest : List (Measurement F × F)) :
    printer.printAll floats (sample :: rest) = (printer.print floats sample.1 sample.2).1 ++
      (printer.print floats sample.1 sample.2).2.printAll floats rest := rfl

/-- Once the head is printed, it is not printed again. -/
theorem printAll_of_head (floats : Floats F) (samples : List (Measurement F × F)) :
    ∀ printer : Printer, printer.head = [] → printer.printAll floats samples =
      unlines (runLines floats printer.format printer.metricPrefix samples) := by
  induction samples with
  | nil => exact fun _ _ => rfl
  | cons sample rest ih =>
    intro printer hhead
    have hnext := print_next floats printer sample.1 sample.2
    rw [printAll_cons, print_text, ih _ hnext.head, hnext.format, hnext.metricPrefix,
      ← Text.unlines_append, hhead]
    rfl

/-- **A whole run**: the head, and then the lines of every sample. -/
theorem printAll_eq (floats : Floats F) (format : OutputFormat) (name : String)
    {samples : List (Measurement F × F)} (h : samples ≠ []) :
    Printer.printAll floats (.new format name) samples =
      unlines (headLines format name ++ runLines floats format name samples) := by
  cases samples with
  | nil => exact absurd rfl h
  | cons sample rest =>
    have hnext := print_next floats (.new format name) sample.1 sample.2
    rw [printAll_cons, print_text, printAll_of_head floats rest _ hnext.head, hnext.format,
      hnext.metricPrefix, ← Text.unlines_append, List.append_assoc]
    rfl

/-! ## Characters -/

/-- A piece of text that no format takes apart. -/
def Clear (s : String) : Prop := ∀ c ∈ s.toList, isSeparator c = false

theorem Clear.not_mem {c : Char} {s : String} (h : Clear s) (hc : isSeparator c = true) :
    c ∉ s.toList := by
  intro hmem
  rw [h c hmem] at hc
  cases hc

theorem clear_of_isDecimalChar {s : String} (h : ∀ c ∈ s.toList, F64.isDecimalChar c = true) :
    Clear s := by
  intro c hc
  have hdecimal := h c hc
  cases hsep : isSeparator c with
  | false => rfl
  | true =>
    simp only [isSeparator, Bool.or_eq_true, beq_iff_eq] at hsep
    rcases hsep with (((rfl | rfl) | rfl) | rfl) | rfl <;> exact absurd hdecimal (by decide)

theorem clear_int (i : Int) : Clear (toString i) := clear_of_isDecimalChar (isDecimalChar_int i)

theorem clear_fieldNames : ∀ field ∈ fieldNames, Clear field := by
  have hall : fieldNames.all (fun field => field.toList.all fun c => !isSeparator c) = true := by
    decide
  intro field hfield c hc
  simpa using List.all_eq_true.mp (List.all_eq_true.mp hall field hfield) c hc

/-- A metric name may have a colon in it, but nothing else that text is split at. -/
structure NameClear (name : String) : Prop where
  tab : '\t' ∉ name.toList
  newline : '\n' ∉ name.toList
  comma : ',' ∉ name.toList
  space : ' ' ∉ name.toList

theorem parseMetricName_ok [Unicode] {s name : String} (h : parseMetricName s = .ok name) :
    s = name ∧
    ∃ c cs, name.toList = c :: cs ∧ prometheusChar c = true ∧ c.isDigit = false ∧
      ∀ d ∈ cs, prometheusChar d = true ∨ d = '.' ∨ d = '-' := by
  unfold parseMetricName at h
  dsimp only at h
  split at h
  · cases h
  · rename_i hname
    cases h
    refine ⟨rfl, ?_⟩
    cases hs : s.toList with
    | nil => simp [hs] at hname
    | cons c cs =>
      simp only [hs, List.head?_cons, Option.any_some, List.tail_cons, Bool.or_eq_true,
        Bool.not_eq_true', not_or, Bool.not_eq_false, Bool.and_eq_true, List.all_eq_true,
        beq_iff_eq] at hname
      obtain ⟨⟨hc, hdigit⟩, hcs⟩ := hname
      exact ⟨c, cs, rfl, hc, hdigit, fun d hd => by simpa [or_assoc] using hcs d hd⟩

theorem nameClear [Unicode] {s name : String} (h : parseMetricName s = .ok name) :
    NameClear name := by
  obtain ⟨-, c, cs, hname, hc, -, hcs⟩ := parseMetricName_ok h
  have hall : ∀ d ∈ name.toList, prometheusChar d = true ∨ d = '.' ∨ d = '-' := by
    intro d hd
    rw [hname] at hd
    rcases List.mem_cons.mp hd with rfl | hd
    · exact .inl hc
    · exact hcs d hd
  constructor
  all_goals
    intro hmem
    exact absurd (hall _ hmem) (by decide)

theorem validatePrefix_prometheus [Unicode] {name : String}
    (h : OutputFormat.validatePrefix .prometheus name = .ok ()) :
    ∀ c ∈ name.toList, prometheusChar c = true := by
  unfold OutputFormat.validatePrefix at h
  rw [if_pos rfl] at h
  cases hbad : name.toList.find? fun c => !prometheusChar c with
  | some bad =>
    rw [hbad] at h
    cases h
  | none => simpa using List.find?_eq_none.mp hbad

/-- A name that Prometheus takes, with a field behind it. -/
theorem isMetricName_field [Unicode] {s name : String} (h : parseMetricName s = .ok name)
    (hformat : OutputFormat.validatePrefix .prometheus name = .ok ()) :
    ∀ field ∈ fieldNames, isMetricName (name ++ "_" ++ field) = true := by
  obtain ⟨-, c, cs, hname, hc, hdigit, -⟩ := parseMetricName_ok h
  have hchars := validatePrefix_prometheus hformat
  have hfields : fieldNames.all (fun field => field.toList.all prometheusChar) = true := by decide
  intro field hfield
  have hfield' : ∀ d ∈ field.toList, prometheusChar d = true :=
    List.all_eq_true.mp (List.all_eq_true.mp hfields field hfield)
  have hlist : (name ++ "_" ++ field).toList = c :: (cs ++ '_' :: field.toList) := by
    simp [hname]
  have hhead : (c.isAlpha || c == '_' || c == ':') = true := by
    simpa [prometheusChar, Char.isAlphanum, hdigit] using hc
  have htail : (cs ++ '_' :: field.toList).all prometheusChar = true := by
    rw [List.all_append, List.all_cons, Bool.and_eq_true, List.all_eq_true]
    rw [hname] at hchars
    exact ⟨fun d hd => hchars d (List.mem_cons_of_mem c hd),
      Bool.and_eq_true_iff.mpr ⟨by decide, List.all_eq_true.mpr hfield'⟩⟩
  unfold isMetricName
  rw [hlist]
  exact Bool.and_eq_true_iff.mpr ⟨hhead, htail⟩

/-! ## What is on a line -/

section Lines

variable {floats : Floats F} {name : String}

theorem clear_fields {m : Measurement F} {energyWh : F} {p : String × F}
    (hp : p ∈ fields m energyWh) : Clear p.1 := by
  refine clear_fieldNames p.1 ?_
  rw [← fields_names m energyWh]
  exact List.mem_map_of_mem hp

theorem clear_displayed (h : floats.Plain) {m : Measurement F} {energyWh : F} {p : String × String}
    (hp : p ∈ displayed floats m energyWh) : Clear p.1 ∧ Clear p.2 := by
  obtain ⟨⟨field, value⟩, hfield, rfl⟩ := List.mem_map.mp hp
  exact ⟨@clear_fields F m energyWh _ hfield, h.display value⟩

theorem map_runLines {β : Type} {format : OutputFormat} {read : String → β}
    {rows : Measurement F → F → List β}
    (h : ∀ m energyWh, (sampleLines floats format name m energyWh).map read = rows m energyWh)
    (samples : List (Measurement F × F)) :
    (runLines floats format name samples).map read = samples.flatMap fun (m, energyWh) =>
    rows m energyWh := by
  rw [runLines, List.map_flatMap]
  simp only [h]

theorem map_runLines_one {β : Type} {format : OutputFormat} {read : String → β}
    {row : Measurement F → F → β}
    (h : ∀ m energyWh, (sampleLines floats format name m energyWh).map read = [row m energyWh])
    (samples : List (Measurement F × F)) :
    (runLines floats format name samples).map read = samples.map fun (m, energyWh) =>
    row m energyWh := by
  rw [map_runLines h, List.map_eq_flatMap]

theorem length_runLines {format : OutputFormat} {k : Nat}
    (h : ∀ m energyWh, (sampleLines floats format name m energyWh).length = k)
    (samples : List (Measurement F × F)) :
    (runLines floats format name samples).length = k * samples.length := by
  induction samples with
  | nil => rfl
  | cons sample rest ih =>
    rw [runLines, List.flatMap_cons, List.length_append, h]
    rw [runLines] at ih
    rw [ih, List.length_cons, Nat.mul_succ, Nat.add_comm]

theorem mem_runLines {format : OutputFormat} {line : String} {samples : List (Measurement F × F)}
    (h : line ∈ runLines floats format name samples) :
    ∃ m energyWh, line ∈ sampleLines floats format name m energyWh := by
  obtain ⟨⟨m, energyWh⟩, -, hline⟩ := List.mem_flatMap.mp h
  exact ⟨m, energyWh, hline⟩

theorem clear_epoch (m : Measurement F) : Clear (epoch m) := clear_int _

/-- The cells of a line are told apart. -/
theorem mackerel_rows (h : floats.Plain) (hname : NameClear name) (m : Measurement F)
    (energyWh : F) :
    (sampleLines floats .mackerel name m energyWh).map (split '\t') =
      ((displayed floats m energyWh).take 4).map fun (field, value) =>
        [name ++ "." ++ field, value, epoch m] := by
  rw [sampleLines, List.map_map]
  refine List.map_congr_left fun p hp => ?_
  obtain ⟨hfield, hvalue⟩ := clear_displayed h (List.mem_of_mem_take hp)
  refine Text.split_intercalate rfl (by simp) ?_
  simp [hname.tab, hfield.not_mem (c := '\t') rfl, hvalue.not_mem (c := '\t') rfl,
    (clear_epoch m).not_mem (c := '\t') rfl]

theorem plain_rows (h : floats.Plain) (m : Measurement F) (energyWh : F) :
    (sampleLines floats .plain name m energyWh).map (split ',') =
      [["V = " ++ floats.display m.voltage, " A = " ++ floats.display m.ampere,
        " W = " ++ floats.display m.wattage, " PF = " ++ floats.fixed 4 m.powerFactor,
        " Wh = " ++ floats.fixed 3 energyWh]] := by
  have hdisplay : ∀ x, ',' ∉ (floats.display x).toList := fun x =>
    Clear.not_mem (h.display x) rfl
  have hfixed : ∀ places x, ',' ∉ (floats.fixed places x).toList := fun places x =>
    Clear.not_mem (h.fixed places x) rfl
  rw [sampleLines, List.map_singleton, Text.split_intercalate rfl (by simp)]
  simp [hdisplay, hfixed]

theorem csv_rows (h : floats.Plain) (m : Measurement F) (energyWh : F) :
    (sampleLines floats .csv name m energyWh).map (split ',') =
      [epoch m :: (displayed floats m energyWh).map Prod.snd] := by
  have hvalues : ∀ cell ∈ epoch m :: (displayed floats m energyWh).map Prod.snd,
    ',' ∉ cell.toList := by
    intro cell hcell
    rcases List.mem_cons.mp hcell with rfl | hcell
    · exact (clear_epoch m).not_mem rfl
    · obtain ⟨p, hp, rfl⟩ := List.mem_map.mp hcell
      exact (clear_displayed h hp).2.not_mem rfl
  rw [sampleLines, List.map_singleton, Text.split_intercalate rfl (by simp) hvalues]

theorem csv_header : split ',' (",".intercalate ("time" :: fieldNames)) = "time" :: fieldNames :=
  Text.split_intercalate rfl (by simp) (by decide)

theorem split_label {label value : String} (hlabel : Clear label) (hvalue : Clear value) :
    split ':' (label ++ ":" ++ value) = [label, value] := by
  have hcells : label ++ ":" ++ value = ":".intercalate [label, value] := by simp
  rw [hcells, Text.split_intercalate rfl (by simp)]
  simp [hlabel.not_mem (c := ':') rfl, hvalue.not_mem (c := ':') rfl]

theorem ltsv_rows (h : floats.Plain) (m : Measurement F) (energyWh : F) :
    (sampleLines floats .ltsv name m energyWh).map (fun line => (split '\t' line).map (split ':')) =
      [["time", epoch m] :: (displayed floats m energyWh).map fun (field, value) =>
      [field, value]] := by
  have hcells : ∀ cell ∈ ("time:" ++ epoch m) ::
      (displayed floats m energyWh).map (fun (field, value) => field ++ ":" ++ value),
      '\t' ∉ cell.toList := by
    intro cell hcell
    rcases List.mem_cons.mp hcell with rfl | hcell
    · simp [(clear_epoch m).not_mem (c := '\t') rfl]
    · obtain ⟨p, hp, rfl⟩ := List.mem_map.mp hcell
      obtain ⟨hfield, hvalue⟩ := clear_displayed h hp
      simp [hfield.not_mem (c := '\t') rfl, hvalue.not_mem (c := '\t') rfl]
  have htime : split ':' ("time:" ++ epoch m) = ["time", epoch m] :=
    @split_label "time" _ (by simp [Clear, isSeparator]) (clear_epoch m)
  rw [sampleLines, List.map_singleton, Text.split_intercalate rfl (by simp) hcells, List.map_cons,
    htime, List.map_map]
  congr 2
  refine List.map_congr_left fun p hp => ?_
  obtain ⟨hfield, hvalue⟩ := clear_displayed h hp
  exact split_label hfield hvalue

theorem prometheus_rows (h : floats.Plain) (hname : NameClear name) (m : Measurement F)
    (energyWh : F) :
    (sampleLines floats .prometheus name m energyWh).map (split ' ') =
      (displayed floats m energyWh).map fun (field, value) =>
        [name ++ "_" ++ field, value, toString m.timestamp.timestampMillis] := by
  have hepoch : Clear (toString m.timestamp.timestampMillis) := clear_int _
  rw [sampleLines, List.map_map]
  refine List.map_congr_left fun p hp => ?_
  obtain ⟨hfield, hvalue⟩ := clear_displayed h hp
  refine Text.split_intercalate rfl (by simp) ?_
  simp only [List.mem_cons, List.not_mem_nil, or_false, forall_eq_or_imp, forall_eq]
  refine ⟨?_, hvalue.not_mem rfl, hepoch.not_mem rfl⟩
  simp [hname.space, hfield.not_mem (c := ' ') rfl]

/-- The entries of a JSON record. -/
def jsonEntries (floats : Floats F) (m : Measurement F) (energyWh : F) : List String :=
  ("\"time\"" ++ ":" ++ epoch m) ::
    (fields m energyWh).map fun (field, value) => "\"" ++ field ++ "\"" ++ ":" ++ floats.json value

theorem jsonLine_eq (floats : Floats F) (m : Measurement F) (energyWh : F) :
    jsonLine floats m energyWh = "\x7b" ++
      (",".intercalate (jsonEntries floats m energyWh) ++ "\x7d") := by
  have hentry : ∀ key value : String, "\"" ++ key ++ "\":" ++ value =
      "\"" ++ key ++ "\"" ++ ":" ++ value := by
    intro key value
    rw [← String.toList_inj]
    simp
  rw [jsonLine, jsonEntries, String.append_assoc]
  simp only [hentry]
  rfl

theorem inBraces_braces (s : String) : inBraces ("\x7b" ++ (s ++ "\x7d")) = s := by
  rw [inBraces, Text.stripPrefix_append, Option.bind_some, Text.stripSuffix_append,
    Option.getD_some]

theorem clear_quoted {field : String} (h : Clear field) : Clear ("\"" ++ field ++ "\"") := by
  intro c hc
  simp only [String.toList_append, List.mem_append] at hc
  rcases hc with (hc | hc) | hc
  · rw [List.mem_singleton.mp hc]
    rfl
  · exact h c hc
  · rw [List.mem_singleton.mp hc]
    rfl

/-- A record has its entries at the commas, and each its key and its value at the colon. -/
theorem json_entries (h : floats.Plain) (m : Measurement F) (energyWh : F) :
    (split ',' (",".intercalate (jsonEntries floats m energyWh))).map (split ':') =
      ["\"time\"", epoch m] ::
        (fields m energyWh).map fun (field, value) =>
        ["\"" ++ field ++ "\"", floats.json value] := by
  have hkey : ∀ p ∈ fields m energyWh, Clear ("\"" ++ p.1 ++ "\"") := fun p hp =>
    clear_quoted (clear_fields hp)
  have htime : Clear "\"time\"" := by simp [Clear, isSeparator]
  have hentries : ∀ entry ∈ jsonEntries floats m energyWh, ',' ∉ entry.toList := by
    have hentry : ∀ {key value : String}, Clear key → Clear value →
        ',' ∉ (key ++ ":" ++ value).toList := by
      intro key value hk hv
      simp [hk.not_mem (c := ',') rfl, hv.not_mem (c := ',') rfl]
    intro entry hmem
    rcases List.mem_cons.mp hmem with rfl | hmem
    · exact hentry htime (clear_epoch m)
    · obtain ⟨p, hp, rfl⟩ := List.mem_map.mp hmem
      exact hentry (hkey p hp) (h.json p.2)
  rw [Text.split_intercalate rfl (by simp [jsonEntries]) hentries, jsonEntries, List.map_cons,
    split_label htime (clear_epoch m), List.map_map]
  congr 1
  exact List.map_congr_left fun p hp => split_label (hkey p hp) (h.json p.2)

theorem json_rows (h : floats.Plain) (m : Measurement F) (energyWh : F) :
    (sampleLines floats .json name m energyWh).map
        (fun line => (split ',' (inBraces line)).map (split ':')) =
      [["\"time\"", epoch m] ::
        (fields m energyWh).map fun (field, value) =>
        ["\"" ++ field ++ "\"", floats.json value]] := by
  rw [sampleLines, List.map_singleton, jsonLine_eq, inBraces_braces, json_entries h]

/-! ## Every line is one line -/

theorem newline_sampleLines (h : floats.Plain) (hname : NameClear name) (format : OutputFormat)
    (m : Measurement F) (energyWh : F) :
    ∀ line ∈ sampleLines floats format name m energyWh, '\n' ∉ line.toList := by
  have hn : ∀ {s : String}, Clear s → '\n' ∉ s.toList := fun hs => hs.not_mem rfl
  have hdisplayed : ∀ p ∈ displayed floats m energyWh, '\n' ∉ p.1.toList ∧ '\n' ∉ p.2.toList :=
    fun p hp => (clear_displayed h hp).imp hn hn
  have hepoch : '\n' ∉ (epoch m).toList := hn (clear_epoch m)
  intro line hline
  cases format with
  | plain =>
    have hdisplay : ∀ x, '\n' ∉ (floats.display x).toList := fun x => hn (h.display x)
    have hfixed : ∀ places x, '\n' ∉ (floats.fixed places x).toList := fun places x =>
      hn (h.fixed places x)
    rw [List.mem_singleton.mp hline]
    simp [hdisplay, hfixed]
  | mackerel =>
    obtain ⟨p, hp, rfl⟩ := List.mem_map.mp hline
    obtain ⟨hfield, hvalue⟩ := hdisplayed p (List.mem_of_mem_take hp)
    simp [hname.newline, hfield, hvalue, hepoch]
  | csv =>
    rw [List.mem_singleton.mp hline]
    refine Text.not_mem_intercalate (by decide) fun cell hcell => ?_
    rcases List.mem_cons.mp hcell with rfl | hcell
    · exact hepoch
    · obtain ⟨p, hp, rfl⟩ := List.mem_map.mp hcell
      exact (hdisplayed p hp).2
  | ltsv =>
    rw [List.mem_singleton.mp hline]
    refine Text.not_mem_intercalate (by decide) fun cell hcell => ?_
    rcases List.mem_cons.mp hcell with rfl | hcell
    · simp [hepoch]
    · obtain ⟨p, hp, rfl⟩ := List.mem_map.mp hcell
      obtain ⟨hfield, hvalue⟩ := hdisplayed p hp
      simp [hfield, hvalue]
  | json =>
    have hentries : '\n' ∉ (",".intercalate (jsonEntries floats m energyWh)).toList := by
      refine Text.not_mem_intercalate (by decide) fun cell hcell => ?_
      rcases List.mem_cons.mp hcell with rfl | hcell
      · simp [hepoch]
      · obtain ⟨p, hp, rfl⟩ := List.mem_map.mp hcell
        have hfield : '\n' ∉ p.1.toList := hn (clear_fields hp)
        have hvalue : '\n' ∉ (floats.json p.2).toList := hn (h.json p.2)
        simp [hfield, hvalue]
    rw [List.mem_singleton.mp hline, jsonLine_eq, String.toList_append, String.toList_append]
    simp only [List.mem_append, not_or]
    exact ⟨by decide, hentries, by decide⟩
  | prometheus =>
    obtain ⟨p, hp, rfl⟩ := List.mem_map.mp hline
    obtain ⟨hfield, hvalue⟩ := hdisplayed p hp
    have hepochMs : '\n' ∉ (toString m.timestamp.timestampMillis).toList := hn (clear_int _)
    refine Text.not_mem_intercalate (by decide) ?_
    simp only [List.mem_cons, List.not_mem_nil, or_false, forall_eq_or_imp, forall_eq]
    exact ⟨by simp [hname.newline, hfield], hvalue, hepochMs⟩

theorem newline_headLines (hname : NameClear name) (format : OutputFormat) :
    ∀ line ∈ headLines format name, '\n' ∉ line.toList := by
  intro line hline
  cases format with
  | csv =>
    rw [List.mem_singleton.mp hline]
    decide
  | prometheus =>
    have hspecs : fieldSpecs.all (fun spec => !spec.1.toList.contains '\n' &&
        !spec.2.toList.contains '\n') = true := by decide
    obtain ⟨spec, hspec, hline⟩ := List.mem_flatMap.mp hline
    have hfield : '\n' ∉ spec.1.toList ∧ '\n' ∉ spec.2.toList := by
      simpa using List.all_eq_true.mp hspecs spec hspec
    simp only [List.mem_cons, List.not_mem_nil, or_false] at hline
    rcases hline with rfl | rfl
    · simp [hname.newline, hfield]
    · simp [hname.newline, hfield]
  | plain => cases hline
  | mackerel => cases hline
  | ltsv => cases hline
  | json => cases hline

end Lines

/-! ## Whole runs -/

theorem read_mem_rows {β : Type} {lines : List String} {read : String → β} {rows : List β}
    (h : lines.map read = rows) {line : String} (hline : line ∈ lines) : read line ∈ rows := by
  rw [← h]
  exact List.mem_map_of_mem hline

section Runs

variable {floats : Floats F} {name : String} (samples : List (Measurement F × F))

theorem mackerelLines (h : floats.Plain) (hname : NameClear name) :
    MackerelLines floats name samples (runLines floats .mackerel name samples) := by
  have hrows := map_runLines (mackerel_rows h hname) samples
  constructor
  case rows => exact hrows
  case four => exact length_runLines (k := 4) (fun _ _ => rfl) samples
  case three =>
    intro line hline
    obtain ⟨sample, -, hcells⟩ := List.mem_flatMap.mp (read_mem_rows hrows hline)
    obtain ⟨p, -, hcells⟩ := List.mem_map.mp hcells
    rw [← hcells]
    rfl

theorem csvLines (h : floats.Plain) :
    CsvLines floats samples (headLines .csv name ++ runLines floats .csv name samples) := by
  have hrows : (headLines .csv name ++ runLines floats .csv name samples).map (split ',') =
      ("time" :: fieldNames) :: samples.map fun (m, energyWh) =>
        epoch m :: (displayed floats m energyWh).map Prod.snd := by
    rw [List.map_append, map_runLines_one (csv_rows h) samples, headLines, List.map_singleton,
      csv_header]
    rfl
  constructor
  case rows => exact hrows
  case columns =>
    intro line hline
    rcases List.mem_cons.mp (read_mem_rows hrows hline) with hcells | hcells
    · rw [hcells]
    · obtain ⟨sample, -, hcells⟩ := List.mem_map.mp hcells
      rw [← hcells]
      rfl

theorem jsonLines (h : floats.Plain) :
    JsonLines floats samples (runLines floats .json name samples) := by
  constructor
  case braces =>
    intro line hline
    obtain ⟨m, energyWh, hline⟩ := mem_runLines hline
    rw [List.mem_singleton.mp hline, jsonLine_eq, inBraces_braces, String.append_assoc]
  case entries => exact map_runLines_one (json_rows h) samples

theorem prometheusLines (h : floats.Plain) (hname : NameClear name)
    (hmetric : ∀ field ∈ fieldNames, isMetricName (name ++ "_" ++ field) = true) :
    PrometheusLines floats name samples
      (headLines .prometheus name ++ runLines floats .prometheus name samples) := by
  have hrows := map_runLines (prometheus_rows h hname) samples
  constructor
  case rows =>
    refine ⟨_, rfl, hrows, length_runLines (k := 5) (fun _ _ => rfl) samples, ?_⟩
    intro reading hreading
    obtain ⟨sample, -, hcells⟩ := List.mem_flatMap.mp (read_mem_rows hrows hreading)
    obtain ⟨p, hp, hcells⟩ := List.mem_map.mp hcells
    have hfield : p.1 ∈ fieldNames := by
      rw [← displayed_names floats sample.1 sample.2]
      exact List.mem_map_of_mem hp
    rw [← hcells]
    exact hmetric p.1 hfield
  case names => exact hmetric

theorem documented [Unicode] (h : floats.Plain) {s : String} (hname : parseMetricName s = .ok name)
    {format : OutputFormat} (hformat : format.validatePrefix name = .ok ()) :
    Documented floats name samples (headLines format name ++ runLines floats format name samples)
      format := by
  have hclear := nameClear hname
  cases format with
  | plain => exact ⟨map_runLines_one (plain_rows h) samples⟩
  | mackerel => exact mackerelLines samples h hclear
  | csv => exact csvLines samples h
  | ltsv => exact ⟨map_runLines_one (ltsv_rows h) samples⟩
  | json => exact jsonLines samples h
  | prometheus => exact prometheusLines samples h hclear (isMetricName_field hname hformat)

end Runs

/-- **No metric name forges output**: what a run prints is split into the lines that
are documented, each taken apart into its fields, in one order in every format. -/
theorem printed_documented [Unicode] {floats : Floats F} (h : floats.Plain) {s name : String}
    (hname : parseMetricName s = .ok name) {format : OutputFormat}
    (hformat : format.validatePrefix name = .ok ()) {samples : List (Measurement F × F)}
    (hsamples : samples ≠ []) :
    ∃ lines, split '\n' (Printer.printAll floats (.new format name) samples) = lines ++ [""] ∧
      Documented floats name samples lines format ∧
      ∀ m energyWh, (displayed floats m energyWh).map Prod.fst = fieldNames := by
  have hnewline : ∀ line ∈ headLines format name ++ runLines floats format name samples,
      '\n' ∉ line.toList := by
    intro line hline
    rcases List.mem_append.mp hline with hline | hline
    · exact newline_headLines (nameClear hname) format line hline
    · obtain ⟨m, energyWh, hline⟩ := mem_runLines hline
      exact newline_sampleLines h (nameClear hname) format m energyWh line hline
  refine ⟨_, ?_, documented samples h hname hformat, displayed_names floats⟩
  rw [printAll_eq floats format name hsamples, Text.split_unlines hnewline]

/-- A rational to the nearest decimal of so many places, a tie going to the even one. -/
def displayFixed (places : Nat) (q : ℚ) : String :=
  let scaled := |q| * 10 ^ places
  let below := scaled.floor.toNat
  let rest := scaled - below
  let d := if 1 / 2 < rest ∨ (rest = 1 / 2 ∧ below % 2 = 1) then below + 1 else below
  String.ofList <| if q < 0 then '-' :: F64.positional d (-places) else F64.positional d (-places)

/-- How the readings of a meter are written, neither huge nor whole. -/
def ratFloats : Floats ℚ := ⟨F64.display, displayFixed, F64.display⟩

theorem ratFloats_plain : ratFloats.Plain := by
  have hdisplay : ∀ q, Clear (F64.display q) := fun q =>
    clear_of_isDecimalChar (F64.isDecimalChar_display q)
  constructor
  case display => exact hdisplay
  case json => exact hdisplay
  case fixed =>
    intro places q
    refine clear_of_isDecimalChar fun c hc => ?_
    change c ∈ (displayFixed places q).toList at hc
    rw [displayFixed, String.toList_ofList] at hc
    split at hc
    · rcases List.mem_cons.mp hc with rfl | hc
      · rfl
      · exact F64.isDecimalChar_positional _ _ c hc
    · exact F64.isDecimalChar_positional _ _ c hc

/-- Two samples of one run. -/
def benchSamples : List (Measurement ℚ × ℚ) :=
  [(⟨209 / 2, 9 / 8, 401 / 4, 7 / 8, ⟨1609304963, 0⟩⟩, 1 / 32),
    (⟨211 / 2, 5 / 8, 257 / 4, 15 / 16, ⟨1609304964, 500000000⟩⟩, 3 / 64)]

theorem printed_documented_wattchecker1 :
    ∃ lines, split '\n' (Printer.printAll ratFloats (.new .prometheus "wattchecker1") benchSamples) =
        lines ++ [""] ∧
      Documented ratFloats "wattchecker1" benchSamples lines .prometheus ∧
      ∀ m energyWh, (displayed ratFloats m energyWh).map Prod.fst = fieldNames :=
  @printed_documented ℚ .ascii ratFloats ratFloats_plain "wattchecker1" "wattchecker1"
    (by decide +kernel)
    .prometheus (by decide +kernel) benchSamples (by simp [benchSamples])

example : Printer.printAll ratFloats (.new .mackerel "wattchecker1") (benchSamples.take 1) =
    "wattchecker1.voltage\t104.5\t1609304963\nwattchecker1.ampere\t1.125\t1609304963\n" ++
      "wattchecker1.wattage\t100.25\t1609304963\nwattchecker1.power_factor\t0.875\t1609304963\n" := by
  decide +kernel

end Btwattch2.Output
