/-
Btwattch2.ReadBackTheorems — the formats for machines lose nothing.

What a run prints is read back the way a consumer of its format does, line by line, and
gives the very floats that went in (`printed_exact`). Only the plain format rounds.
-/
import Btwattch2.FloatCodec
import Btwattch2.Lib.JsonTheorems
import Btwattch2.RendererTheorems

namespace Btwattch2.Output

open Lib Text

/-- A reading as a consumer has it. -/
structure Reading where
  name : String
  value : Option ℚ
  stamp : String
  deriving DecidableEq

/-! ## The consumers -/

def number (cell : String) : Option ℚ := F64.readFloat cell.toList

/-- A name, a value and a timestamp. -/
def readCells : List String → List Reading
  | [name, value, stamp] => [⟨name, number value, stamp⟩]
  | _ => []

/-- A timestamp, and a value under each label. -/
def readLabelled : List (List String) → List Reading
  | [_, stamp] :: cells => cells.flatMap fun
    | [name, value] => [⟨name, number value, stamp⟩]
    | _ => []
  | _ => []

/-- A timestamp, and a value in each column. -/
def readColumns : List String → List Reading
  | stamp :: values => (fieldNames.zip values).map fun (name, value) => ⟨name, number value, stamp⟩
  | [] => []

/-- A record: its timestamp, and its other members. -/
def readRecord : Option (Json ℚ) → List Reading
  | some (.obj ((_, .int stamp) :: members)) => members.map fun
    | (name, .float x) => ⟨name, some x, toString stamp⟩
    | (name, _) => ⟨name, none, toString stamp⟩
  | _ => []

variable (codec : Json.FloatCodec ℚ)

def readLine (format : OutputFormat) (line : String) : List Reading :=
  match format with
  | .plain => []
  | .mackerel => readCells (split '\t' line)
  | .csv => readColumns (split ',' line)
  | .ltsv => readLabelled ((split '\t' line).map (split ':'))
  | .json => readRecord (Json.parse codec line.toList)
  | .prometheus => readCells (split ' ' line)

/-- How many lines are skipped: the header, or the declarations of the metrics. -/
def skipped (format : OutputFormat) : Nat :=
  match format with
  | .csv => 1
  | .prometheus => 2 * fieldNames.length
  | _ => 0

def readAll (format : OutputFormat) (text : String) : List Reading :=
  ((split '\n' text).dropLast.drop (skipped format)).flatMap (readLine codec format)

/-- The readings of a sample, as exact as they are. -/
def readings (format : OutputFormat) (name : String) (m : Measurement ℚ) (energyWh : ℚ) :
    List Reading :=
  match format with
  | .plain => []
  | .mackerel => ((fields m energyWh).take 4).map fun (field, value) =>
    ⟨name ++ "." ++ field, some value, epoch m⟩
  | .csv | .ltsv | .json => (fields m energyWh).map fun (field, value) =>
    ⟨field, some value, epoch m⟩
  | .prometheus => (fields m energyWh).map fun (field, value) =>
    ⟨name ++ "_" ++ field, some value, toString m.timestamp.timestampMillis⟩

/-! ## One sample -/

section Sample

/-- A sample whose values are floats that the library reads back; the timestamp of its
instant has 64 bits. -/
structure Exact (codec : Json.FloatCodec ℚ) (m : Measurement ℚ) (energyWh : ℚ) : Prop where
  isFloat : ∀ p ∈ fields m energyWh, F64.IsFloat p.2
  read : ∀ p ∈ fields m energyWh, codec.read (codec.write p.2) = some p.2
  fits : -2 ^ 63 ≤ m.timestamp.timestamp ∧ m.timestamp.timestamp < 2 ^ 63

theorem number_display {x : ℚ} (h : F64.IsFloat x) : number (F64.display x) = some x := by
  rw [number, F64.readFloat, String.ofList_toList, F64.parse_display h]
  rfl

variable {codec} {floats : Floats ℚ} {name : String} {m : Measurement ℚ} {energyWh : ℚ}

/-- How the values are written, in JSON as a library writes them. -/
structure Faithful (codec : Json.FloatCodec ℚ) (floats : Floats ℚ) : Prop where
  plain : floats.Plain
  display : ∀ x, F64.IsFloat x → floats.display x = F64.display x
  json : ∀ x, F64.IsFloat x → floats.json x = String.ofList (codec.write x)

theorem Faithful.number (h : Faithful codec floats) {x : ℚ} (hx : F64.IsFloat x) :
    number (floats.display x) = some x := by
  rw [h.display x hx, number_display hx]

/-! ### Records -/

def jsonRecord (m : Measurement ℚ) (energyWh : ℚ) : Json ℚ :=
  .obj (("time", .int m.timestamp.timestamp) ::
    (fields m energyWh).map fun (field, value) => (field, .float value))

theorem toList_toString_int (n : Int) : (toString n).toList = Json.printInt n := by
  cases n with
  | ofNat n =>
    show n.repr.toList = _
    rw [Nat.toList_repr]
    rfl
  | negSucc n =>
    have hneg : (Int.negSucc n < 0) = True := by simp
    show ("-" ++ (n + 1).repr).toList = _
    rw [String.toList_append, Nat.toList_repr, Json.printInt]
    simp [hneg, Json.signText]

/-- A name of a field needs no escapes. -/
theorem printStr_fieldName {field : String} (h : field ∈ "time" :: fieldNames) :
    Json.printStr field = ("\"" ++ field ++ "\"").toList := by
  have hnames : ("time" :: fieldNames).all (fun field =>
      decide (field.toList.flatMap Json.escape = field.toList)) = true := by decide
  have hname := of_decide_eq_true (List.all_eq_true.mp hnames field h)
  rw [Json.printStr, hname]
  simp

/-- A record is what a JSON library prints of it. -/
theorem toList_jsonLine (h : Faithful codec floats) (hexact : Exact codec m energyWh) :
    (jsonLine floats m energyWh).toList = Json.print codec (jsonRecord m energyWh) := by
  have htime : ("\"time\"" ++ ":" ++ epoch m).toList =
      Json.printMember codec ("time", .int m.timestamp.timestamp) := by
    rw [Json.printMember, printStr_fieldName List.mem_cons_self, Json.print,
      ← toList_toString_int]
    simp [epoch]
  have hfields : ∀ p ∈ fields m energyWh, ("\"" ++ p.1 ++ "\"" ++ ":" ++ floats.json p.2).toList =
      Json.printMember codec (p.1, .float p.2) := by
    intro p hp
    have hname : p.1 ∈ "time" :: fieldNames :=
      List.mem_cons_of_mem _ (fields_names m energyWh ▸ List.mem_map_of_mem hp)
    rw [Json.printMember, printStr_fieldName hname, h.json _ (hexact.isFloat p hp)]
    simp [Json.print]
  have hentries : (jsonEntries floats m energyWh).map String.toList =
      (("time", Json.int m.timestamp.timestamp) ::
        (fields m energyWh).map fun (field, value) => (field, Json.float value)).map
          (Json.printMember codec) := by
    rw [jsonEntries, List.map_cons, List.map_cons, htime, List.map_map, List.map_map]
    exact congrArg _ (List.map_congr_left fun p hp => hfields p hp)
  rw [jsonLine_eq, jsonRecord, Json.print, Json.printMembers_eq, ← hentries]
  simp [String.toList_intercalate]

theorem carries_jsonRecord (hexact : Exact codec m energyWh) :
    Json.Carries codec id Json.maxDepth (jsonRecord m energyWh) := by
  refine .obj ?_
  rw [List.forall_mem_cons]
  refine ⟨.int ⟨hexact.fits.1, by have := hexact.fits.2; omega⟩, ?_⟩
  intro member hmember
  obtain ⟨p, hp, rfl⟩ := List.mem_map.mp hmember
  exact .float (hexact.read p hp)

/-! ### Lines -/

theorem readCells_rows (hdisplay : ∀ p ∈ fields m energyWh, number (floats.display p.2) = some p.2)
    {ps : List (String × ℚ)} (hps : ∀ p ∈ ps, p ∈ fields m energyWh) (label : String → String)
    (stamp : String) :
    (ps.map fun (field, value) => [label field, floats.display value, stamp]).flatMap readCells =
      ps.map fun (field, value) => ⟨label field, some value, stamp⟩ := by
  rw [List.flatMap_map, List.map_eq_flatMap]
  refine List.flatMap_congr fun p hp => ?_
  rw [readCells, hdisplay p (hps p hp)]

/-- Each sample is read back as it was. -/
theorem flatMap_readLine (h : Faithful codec floats) (hname : NameClear name)
    (hexact : Exact codec m energyWh) (format : OutputFormat) :
    (sampleLines floats format name m energyWh).flatMap (readLine codec format) =
      readings format name m energyWh := by
  have hdisplay : ∀ p ∈ fields m energyWh, number (floats.display p.2) = some p.2 := fun p hp =>
    h.number (hexact.isFloat p hp)
  cases format with
  | plain => rfl
  | mackerel =>
    have hrows := mackerel_rows h.plain hname m energyWh
    have hflat : (sampleLines floats .mackerel name m energyWh).flatMap (readLine codec .mackerel) =
        ((sampleLines floats .mackerel name m energyWh).map (split '\t')).flatMap readCells := by
      rw [List.flatMap_map]
      rfl
    rw [hflat, hrows, displayed, ← List.map_take, List.map_map]
    exact readCells_rows hdisplay (fun p hp => List.mem_of_mem_take hp) (name ++ "." ++ ·) (epoch m)
  | csv =>
    have hrows := @csv_rows ℚ floats name h.plain m energyWh
    have hflat : (sampleLines floats .csv name m energyWh).flatMap (readLine codec .csv) =
        ((sampleLines floats .csv name m energyWh).map (split ',')).flatMap readColumns := by
      rw [List.flatMap_map]
      rfl
    rw [hflat, hrows, List.flatMap_singleton, readColumns, ← fields_names m energyWh, displayed,
      List.map_map, List.zip_map', List.map_map]
    show _ = (fields m energyWh).map fun p => (⟨p.1, some p.2, epoch m⟩ : Reading)
    exact List.map_congr_left fun p hp => by simp [hdisplay p hp]
  | ltsv =>
    have hrows := @ltsv_rows ℚ floats name h.plain m energyWh
    have hflat : (sampleLines floats .ltsv name m energyWh).flatMap (readLine codec .ltsv) =
        ((sampleLines floats .ltsv name m energyWh).map fun line =>
          (split '\t' line).map (split ':')).flatMap readLabelled := by
      rw [List.flatMap_map]
      rfl
    rw [hflat, hrows, List.flatMap_singleton, readLabelled, displayed, List.map_map,
      List.flatMap_map]
    show _ = (fields m energyWh).map fun p => (⟨p.1, some p.2, epoch m⟩ : Reading)
    rw [List.map_eq_flatMap]
    refine List.flatMap_congr fun p hp => ?_
    simp [hdisplay p hp]
  | json =>
    have hparse := Json.parse_print (carries_jsonRecord hexact)
    rw [← toList_jsonLine h hexact] at hparse
    simp [sampleLines, readLine, hparse, jsonRecord, Json.mapFloats, Json.mapMembers_eq,
      readRecord, readings, epoch, Function.comp_def]
  | prometheus =>
    have hrows := prometheus_rows h.plain hname m energyWh
    have hflat : (sampleLines floats .prometheus name m energyWh).flatMap
        (readLine codec .prometheus) =
          ((sampleLines floats .prometheus name m energyWh).map (split ' ')).flatMap readCells := by
      rw [List.flatMap_map]
      rfl
    rw [hflat, hrows, displayed, List.map_map]
    exact readCells_rows hdisplay (fun _ hp => hp) (name ++ "_" ++ ·)
      (toString m.timestamp.timestampMillis)

end Sample

/-! ## A run -/

section Run

variable {codec} {floats : Floats ℚ} {name : String}

theorem length_headLines (format : OutputFormat) (name : String) :
    (headLines format name).length = skipped format := by
  cases format <;> rfl

/-- What is printed of exact samples is read back. -/
theorem readAll_printAll (h : Faithful codec floats) (hname : NameClear name)
    (format : OutputFormat) {samples : List (Measurement ℚ × ℚ)}
    (hexact : ∀ sample ∈ samples, Exact codec sample.1 sample.2) :
    readAll codec format (Printer.printAll floats (.new format name) samples) =
      samples.flatMap fun (m, energyWh) => readings format name m energyWh := by
  by_cases hne : samples = []
  · subst hne
    cases format <;> rfl
  have hnewline : ∀ line ∈ headLines format name ++ runLines floats format name samples,
      '\n' ∉ line.toList := by
    intro line hline
    rcases List.mem_append.mp hline with hline | hline
    · exact newline_headLines hname format line hline
    · obtain ⟨m, energyWh, hline⟩ := mem_runLines hline
      exact newline_sampleLines h.plain hname format m energyWh line hline
  rw [readAll, printAll_eq floats format name hne, split_unlines hnewline,
    List.dropLast_concat, ← length_headLines format name, List.drop_left, runLines,
    List.flatMap_assoc]
  exact List.flatMap_congr fun sample hsample => flatMap_readLine h hname (hexact sample hsample)
    format

theorem mem_of_mem_sampled {α : Type} {count : Option Nat} {ms : List α} {m : α}
    (h : m ∈ sampled count ms) : m ∈ ms := by
  cases count with
  | none => exact h
  | some c => exact List.mem_of_mem_take h

theorem Reported.isFloat {chrono : Chrono} {m : Measurement ℚ} (h : Reported chrono m) {e : ℚ}
    (he : F64.IsFloat e) : ∀ p ∈ fields m e, F64.IsFloat p.2 := by
  obtain ⟨frame, reading, hread, rfl⟩ := h
  have hfloat := isFloat_of_readMeasure hread
  intro p hp
  simp only [fields, channelsOf, channels, List.zip_cons_cons, List.zip_nil_right, List.map_cons,
    List.map_nil, List.cons_append, List.nil_append, List.mem_cons, List.not_mem_nil,
    or_false] at hp
  rcases hp with rfl | rfl | rfl | rfl | rfl
  · exact hfloat.voltage
  · exact hfloat.ampere
  · exact hfloat.wattage
  · exact hfloat.powerFactor
  · exact he

/-- A sample of a run is one that was taken, with a session energy that is a float. -/
theorem mem_sessions {count : Option Nat} {samples : List (Measurement ℚ × Nat)}
    {sample : Measurement ℚ × ℚ} (h : sample ∈ sessions {} (sampled count samples)) :
    ∃ taken ∈ samples, taken.1 = sample.1 ∧ F64.IsFloat sample.2 := by
  have htaken : sample.1 ∈ (sampled count samples).map Prod.fst :=
    sessions_map_fst {} (sampled count samples) ▸ List.mem_map_of_mem h
  obtain ⟨taken, htaken, htime⟩ := List.mem_map.mp htaken
  have henergy := (sessions_ascend F64.isFloat_zero (sampled count samples)).1 sample.2
    (List.mem_map_of_mem h)
  exact ⟨taken, mem_of_mem_sampled htaken, htime, henergy.2⟩

/-- **The formats for machines lose nothing**: of what a run prints of what the device has
reported, in any of them, its consumer reads the floats of every sample, the session energy
among them where the format has it, each under its name and with its timestamp. -/
theorem printed_exact [Unicode] {chrono : Chrono} (h : Faithful codec floats) {s : String}
    (hname : parseMetricName s = .ok name) (format : OutputFormat) (count : Option Nat)
    (level : LogLevel) {samples : List (Measurement ℚ × Nat)}
    (hreported : ∀ sample ∈ samples, Reported chrono sample.1)
    (hfits : ∀ sample ∈ samples,
      -2 ^ 63 ≤ sample.1.timestamp.timestamp ∧ sample.1.timestamp.timestamp < 2 ^ 63)
    (hread : ∀ sample ∈ sessions {} (sampled count samples), ∀ p ∈ fields sample.1 sample.2,
      codec.read (codec.write p.2) = some p.2) :
    readAll codec format
        ((StreamRenderer.new format name count level).follow floats samples).1 =
      (sessions {} (sampled count samples)).flatMap fun (m, energyWh) =>
        readings format name m energyWh := by
  rw [(follow_start floats format name count level samples).1]
  refine readAll_printAll h (nameClear hname) format fun sample hsample => ?_
  obtain ⟨taken, htaken, htime, henergy⟩ := mem_sessions hsample
  exact ⟨htime ▸ (hreported taken htaken).isFloat henergy, hread sample hsample,
    htime ▸ hfits taken htaken⟩

end Run

/-- How the readings of a meter are written, JSON numbers with a point. -/
def pointFloats : Floats ℚ :=
  { ratFloats with json := fun x => String.ofList (F64.codec.write x) }

theorem faithful_pointFloats : Faithful F64.codec pointFloats where
  plain := by
    refine ⟨ratFloats_plain.display, ratFloats_plain.fixed, fun x => ?_⟩
    refine clear_of_isDecimalChar fun c hc => ?_
    have hdigits := F64.allDigits_pointed (F64.digitsOf x).1 (F64.digitsOf x).2
    change c ∈ (String.ofList (F64.numberText x).text).toList at hc
    simp only [String.toList_ofList, Json.NumberText.text, F64.numberText, Json.exponentText,
      List.append_nil, List.mem_append] at hc
    rcases hc with hc | hc | hc
    · unfold Json.signText at hc
      split at hc
      · rw [List.mem_singleton.mp hc]
        rfl
      · cases hc
    · exact F64.isDecimalChar_of_isDigit (hdigits.1 c hc)
    · obtain ⟨d, ds, hfraction⟩ := List.exists_cons_of_ne_nil
        (F64.pointed_ne_nil (F64.digitsOf x).1 (F64.digitsOf x).2).2
      rw [hfraction] at hdigits hc
      rcases List.mem_cons.mp hc with rfl | hc
      · rfl
      · exact F64.isDecimalChar_of_isDigit (hdigits.2 c hc)
  display _ _ := rfl
  json _ _ := rfl

theorem printed_exact_load :
    readAll F64.codec .json
        ((StreamRenderer.new .json "wattchecker1" (some 2) .off).follow pointFloats loadHour).1 =
      (sessions {} (sampled (some 2) loadHour)).flatMap fun (m, energyWh) =>
        readings .json "wattchecker1" m energyWh := by
  refine @printed_exact F64.codec pointFloats "wattchecker1" .ascii (.utc .error)
    faithful_pointFloats "wattchecker1" (by decide +kernel) .json (some 2) .off loadHour
    reported_loadHour ?_ ?_
  · simp only [loadHour, List.forall_mem_cons, List.not_mem_nil, false_imp_iff, implies_true,
      and_true, and_self]
    decide
  · have hrange : ∀ sample ∈ sessions {} (sampled (some 2) loadHour),
        ∀ p ∈ fields sample.1 sample.2, p.2 < 2 ^ 1024 := by decide +kernel
    intro sample hsample p hp
    obtain ⟨taken, htaken, htime, henergy⟩ := mem_sessions hsample
    have hfloat := (reported_loadHour taken htaken).isFloat henergy p (htime ▸ hp)
    exact F64.read_write hfloat (hrange sample hsample p hp)

end Btwattch2.Output
