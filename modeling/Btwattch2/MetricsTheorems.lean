/-
Btwattch2.MetricsTheorems — the metrics endpoint never shows a stale reading as
live.

A body is read the way a scraper reads it: line by line, by the name a line
begins with (`exposed`). It is put together from gauges, and reading one off it
is looking it up among them (`exposed_expose`); which gauges there are follows
from the latest sample and the last flag in the history of the statistics
(`scrape_tells`).
-/
import Btwattch2.Cli
import Btwattch2.Lib.Log
import Btwattch2.Metrics

namespace Btwattch2

open Lib

/-! ## Reading a body -/

/-- The value a scraper reads for a metric. -/
def exposed (body name : String) : Option String :=
  (Text.lines body).findSome? (Text.stripPrefix (Metrics.metricPrefix ++ "_" ++ name ++ " "))

/-- A gauge: its name, what it means, and its value. -/
structure Gauge where
  name : String
  help : String
  value : String

namespace Gauge

variable (g : Gauge)

def lines (metricPrefix : String) : List (List Char) :=
  let name := metricPrefix.toList ++ '_' :: g.name.toList
  ["# HELP ".toList ++ (name ++ ' ' :: g.help.toList),
    "# TYPE ".toList ++ (name ++ " gauge".toList),
    name ++ ' ' :: g.value.toList]

theorem toList_gauge (metricPrefix : String) :
    (gauge metricPrefix g.name g.help g.value).toList =
      (g.lines metricPrefix).flatMap fun line => line ++ ['\n'] := by
  have hgauge : " gauge\n".toList = " gauge".toList ++ ['\n'] := rfl
  have hname : "_".toList = ['_'] := rfl
  have hspace : " ".toList = [' '] := rfl
  have hend : "\n".toList = ['\n'] := rfl
  unfold gauge
  simp only [String.toList_append, hgauge, hname, hspace, hend]
  simp only [lines, List.flatMap_cons, List.flatMap_nil, List.append_assoc, List.cons_append,
    List.nil_append, List.append_nil]

/-- The gauge is on lines of its own, and its name is one word. -/
structure Plain : Prop where
  name : ∀ c ∈ g.name.toList, c ≠ '\n' ∧ c ≠ '\r' ∧ c ≠ ' '
  help : ∀ c ∈ g.help.toList, c ≠ '\n' ∧ c ≠ '\r'
  value : ∀ c ∈ g.value.toList, c ≠ '\n' ∧ c ≠ '\r'

theorem Plain.lines {g : Gauge} (h : g.Plain) :
    ∀ line ∈ g.lines Metrics.metricPrefix, '\n' ∉ line ∧ '\r' ∉ line := by
  have hpre : ∀ c ∈ Metrics.metricPrefix.toList, c ≠ '\n' ∧ c ≠ '\r' := by
    simp [Metrics.metricPrefix]
  have hhead : ∀ c ∈ "# HELP ".toList ++ "# TYPE ".toList ++ " gauge".toList, c ≠ '\n' ∧
    c ≠ '\r' := by
    simp
  have hline : ∀ line ∈ g.lines Metrics.metricPrefix, ∀ c ∈ line, c ≠ '\n' ∧ c ≠ '\r' := by
    have hname := h.name
    have hhelp := h.help
    have hvalue := h.value
    intro line hline c hc
    simp only [Gauge.lines, List.mem_cons, List.not_mem_nil, or_false] at hline
    simp only [List.mem_append] at hhead
    rcases hline with rfl | rfl | rfl <;> simp only [List.mem_append, List.mem_cons] at hc <;> grind
  exact fun line hmem => ⟨fun hc => (hline line hmem _ hc).1 rfl, fun hc =>
    (hline line hmem _ hc).2 rfl⟩

end Gauge

/-- The gauges one after the other. -/
def expose (gauges : List Gauge) : String :=
  String.join (gauges.map fun g => gauge Metrics.metricPrefix g.name g.help g.value)

theorem lines_expose {gauges : List Gauge} (h : ∀ g ∈ gauges, g.Plain) :
    Text.lines (expose gauges) =
      (gauges.flatMap fun g => g.lines Metrics.metricPrefix).map String.ofList := by
  have hlist : (expose gauges).toList =
      (gauges.flatMap fun g => g.lines Metrics.metricPrefix).flatMap fun line =>
        line ++ ['\n'] := by
    simp only [expose, String.toList_join, List.flatMap_map, Gauge.toList_gauge, List.flatMap_assoc]
  rw [Text.lines, hlist, Text.splitLines_flatMap]
  intro line hline
  obtain ⟨g, hg, hline⟩ := List.mem_flatMap.mp hline
  obtain ⟨hnewline, hreturn⟩ := (h g hg).lines line hline
  exact ⟨hnewline, fun hlast => hreturn (List.mem_of_getLast? hlast)⟩

/-- A word and what follows it. -/
theorem isPrefixOf?_word : ∀ {a b : List Char} (rest : List Char), ' ' ∉ a → ' ' ∉ b →
    (a ++ [' ']).isPrefixOf? (b ++ ' ' :: rest) = if a = b then some rest else none
  | [], [], rest, _, _ => by simp [List.isPrefixOf?]
  | [], d :: b, rest, _, hb => by
    have hd : ' ' ≠ d := by
      rintro rfl
      simp at hb
    simp [List.isPrefixOf?, hd]
  | c :: a, [], rest, ha, _ => by
    have hc : c ≠ ' ' := by
      rintro rfl
      simp at ha
    simp [List.isPrefixOf?, hc]
  | c :: a, d :: b, rest, ha, hb => by
    have ih := isPrefixOf?_word (a := a) (b := b) rest (by simp_all) (by simp_all)
    by_cases hcd : c = d
    · simp [List.isPrefixOf?, hcd, ih]
    · simp [List.isPrefixOf?, hcd]

theorem findSome?_lines {g : Gauge} (h : g.Plain) {name : String} (hname : ' ' ∉ name.toList) :
    ((g.lines Metrics.metricPrefix).map String.ofList).findSome?
      (Text.stripPrefix (Metrics.metricPrefix ++ "_" ++ name ++ " ")) =
      if name = g.name then some g.value else none := by
  have hpre : (Metrics.metricPrefix ++ "_" ++ name ++ " ").toList =
      (Metrics.metricPrefix.toList ++ '_' :: name.toList) ++ [' '] := by
    simp only [String.toList_append]
    rw [List.append_assoc Metrics.metricPrefix.toList]
    rfl
  have hstrip : ∀ line : List Char,
      Text.stripPrefix (Metrics.metricPrefix ++ "_" ++ name ++ " ") (String.ofList line) =
        (((Metrics.metricPrefix.toList ++ '_' :: name.toList) ++ [' ']).isPrefixOf? line).map
          String.ofList := by
    intro line
    rw [Text.stripPrefix, hpre, String.toList_ofList]
  -- a comment begins with another character
  have hcomment : ∀ line : List Char,
      ((Metrics.metricPrefix.toList ++ '_' :: name.toList) ++ [' ']).isPrefixOf?
        ('#' :: line) = none :=
    fun _ => rfl
  have hsub : ∀ s : String, ' ' ∉ s.toList →
    ' ' ∉ Metrics.metricPrefix.toList ++ '_' :: s.toList := by
    intro s hs
    have hp : ' ' ∉ Metrics.metricPrefix.toList := by decide +kernel
    simp [hp, hs]
  have hword := isPrefixOf?_word g.value.toList (hsub name hname)
    (hsub g.name fun hmem => (h.name _ hmem).2.2 rfl)
  have hsame : Metrics.metricPrefix.toList ++ '_' :: name.toList =
      Metrics.metricPrefix.toList ++ '_' :: g.name.toList ↔ name = g.name := by
    simp [String.toList_inj]
  simp only [Gauge.lines, List.map_cons, List.map_nil, List.findSome?_cons, hstrip]
  rw [show "# HELP ".toList = '#' :: " HELP ".toList from rfl,
    show "# TYPE ".toList = '#' :: " TYPE ".toList from rfl, List.cons_append, List.cons_append,
    hcomment, hcomment, hword, Option.map_none]
  by_cases hn : name = g.name
  · simp [hn]
  · simp [hsame, hn]

/-- Reading a metric off a body is looking its gauge up. -/
theorem exposed_expose {gauges : List Gauge} (h : ∀ g ∈ gauges, g.Plain) {name : String}
    (hname : ' ' ∉ name.toList) :
    exposed (expose gauges) name =
      gauges.findSome? fun g => if name = g.name then some g.value else none := by
  rw [exposed, lines_expose h]
  induction gauges with
  | nil => rfl
  | cons g gauges ih =>
    have hg := findSome?_lines (h g List.mem_cons_self) hname
    have hrest := ih fun x hx => h x (List.mem_cons_of_mem g hx)
    rw [List.flatMap_cons, List.map_append, List.findSome?_append, hg, hrest, List.findSome?_cons]
    split <;> simp_all

/-! ## The exposition -/

/-- The gauges of an exposition. -/
def gaugesOf (sample : Option Measurement) (up : Bool) : List Gauge :=
  (match sample.filter fun _ => up with
    | some m => channels.map fun c => ⟨c.name, c.help, F64.display (c.value m)⟩
    | none => []) ++
  (match sample with
    | some m => [⟨"last_sample_timestamp_seconds", "Device clock of the most recent measurement",
        toString m.timestamp.timestamp⟩]
    | none => []) ++
  [⟨"up", "Whether the agent currently has fresh measurements from the device",
    if up then "1" else "0"⟩]

theorem filter_up {α : Type} (up : Bool) (a : α) :
    (some a).filter (fun _ => up) = if up then some a else none := by
  cases up <;> rfl

theorem metricsExposition_eq (sample : Option Measurement) (up : Bool) :
    metricsExposition Metrics.metricPrefix sample up = expose (gaugesOf sample up) := by
  cases sample with
  | none => simp [metricsExposition, expose, gaugesOf]
  | some m =>
    unfold metricsExposition gaugesOf
    rw [filter_up]
    cases up <;> simp [expose, channels, String.append_assoc]

theorem plain_of_words {name help value : String}
    (hname : name.toList.all fun c => c != '\n' && c != '\r' && c != ' ')
    (hhelp : help.toList.all fun c => c != '\n' && c != '\r')
    (hvalue : ∀ c ∈ value.toList, F64.isDecimalChar c = true) :
    (⟨name, help, value⟩ : Gauge).Plain := by
  refine ⟨fun c hc => ?_, fun c hc => ?_, fun c hc => ?_⟩
  · simpa [and_assoc] using List.all_eq_true.mp hname c hc
  · simpa using List.all_eq_true.mp hhelp c hc
  · have hdecimal := hvalue c hc
    constructor
    all_goals
      rintro rfl
      exact absurd hdecimal (by decide)

theorem isDecimalChar_int (i : Int) : ∀ c ∈ (toString i).toList, F64.isDecimalChar c = true := by
  have hdigits : ∀ n : Nat, ∀ c ∈ n.repr.toList, F64.isDecimalChar c = true := by
    intro n c hc
    rw [Nat.toList_repr] at hc
    exact F64.isDecimalChar_of_isDigit (Nat.isDigit_of_mem_toDigits (by decide) (by decide) hc)
  intro c hc
  cases i with
  | ofNat n => exact hdigits n c hc
  | negSucc n =>
    have hneg : (toString (Int.negSucc n)).toList = '-' :: (n + 1).repr.toList := by
      show ("-" ++ (n + 1).repr).toList = _
      rw [String.toList_append]
      rfl
    rw [hneg] at hc
    rcases List.mem_cons.mp hc with rfl | hc
    · rfl
    · exact hdigits _ c hc

theorem plain_gaugesOf (sample : Option Measurement) (up : Bool) :
    ∀ g ∈ gaugesOf sample up, g.Plain := by
  have hchannel : ∀ m, ∀ c ∈ channels,
    (⟨c.name, c.help, F64.display (c.value m)⟩ : Gauge).Plain := by
    intro m c hc
    have hdisplay := F64.isDecimalChar_display (c.value m)
    simp only [channels, List.mem_cons, List.not_mem_nil, or_false] at hc
    rcases hc with rfl | rfl | rfl | rfl
    all_goals exact plain_of_words (by simp) (by simp) hdisplay
  have hup : ∀ value ∈ ["1", "0"], (⟨"up",
      "Whether the agent currently has fresh measurements from the device",
        value⟩ : Gauge).Plain := by
    intro value hvalue
    refine plain_of_words (by simp) (by simp) ?_
    simp only [List.mem_cons, List.not_mem_nil, or_false] at hvalue
    rcases hvalue with rfl | rfl <;> simp [F64.isDecimalChar]
  intro g hg
  unfold gaugesOf at hg
  rcases List.mem_append.mp hg with hg | hg
  · rcases List.mem_append.mp hg with hg | hg
    · split at hg
      · obtain ⟨c, hc, rfl⟩ := List.mem_map.mp hg
        exact hchannel _ c hc
      · cases hg
    · split at hg
      · rw [List.mem_singleton.mp hg]
        exact plain_of_words (by simp) (by simp) (isDecimalChar_int _)
      · cases hg
  · rw [List.mem_singleton.mp hg]
    cases up
    · exact hup _ (by simp)
    · exact hup _ (by simp)

/-- What a scraper reads off an exposition. -/
theorem exposed_exposition (sample : Option Measurement) (up : Bool) :
    let body := metricsExposition Metrics.metricPrefix sample up
    exposed body "up" = some (if up then "1" else "0") ∧
    exposed body "last_sample_timestamp_seconds" =
      sample.map (fun m => toString m.timestamp.timestamp) ∧
    ∀ c ∈ channels, exposed body c.name =
      (sample.filter fun _ => up).map fun m => F64.display (c.value m) := by
  have hread : ∀ name : String, ' ' ∉ name.toList →
      exposed (metricsExposition Metrics.metricPrefix sample up) name =
        (gaugesOf sample up).findSome? fun g => if name = g.name then some g.value else none := by
    intro name hname
    rw [metricsExposition_eq, exposed_expose (plain_gaugesOf sample up) hname]
  refine ⟨?_, ?_, fun c hc => ?_⟩
  · rw [hread "up" (by decide +kernel)]
    cases sample with
    | none => simp [gaugesOf]
    | some m => cases up <;> simp [gaugesOf, channels, filter_up]
  · rw [hread "last_sample_timestamp_seconds" (by decide +kernel)]
    cases sample with
    | none => simp [gaugesOf]
    | some m => cases up <;> simp [gaugesOf, channels, filter_up]
  · simp only [channels, List.mem_cons, List.not_mem_nil, or_false] at hc
    rcases hc with rfl | rfl | rfl | rfl
    all_goals
      rw [hread _ (by decide +kernel)]
      cases sample with
      | none => simp [gaugesOf]
      | some m => cases up <;> simp [gaugesOf, channels, filter_up]

/-! ## The statistics -/

/-- What the actor reports to the statistics. -/
inductive StatsOp where
  | recordSample (m : Measurement)
  | setConnected (connected : Bool)
  | recordReconnect

/-- One report, at the instant it is made. -/
def AgentStats.report (stats : AgentStats) : StatsOp × Nat → AgentStats
  | (.recordSample m, now) => stats.recordSample now m
  | (.setConnected connected, _) => stats.setConnected connected
  | (.recordReconnect, _) => stats.recordReconnect

/-- The sample a report carries. -/
def sampleOf : StatsOp × Nat → Option Sample
  | (.recordSample m, now) => some ⟨m, now⟩
  | _ => none

/-- The flag a report writes. -/
def flagOf : StatsOp × Nat → Option Bool
  | (.recordSample _, _) => some true
  | (.setConnected connected, _) => some connected
  | (.recordReconnect, _) => some true

theorem report_history (history : List (StatsOp × Nat)) (stats : AgentStats) :
    (history.foldl AgentStats.report stats).latest = (lastOf sampleOf history).or stats.latest ∧
    (history.foldl AgentStats.report stats).connected =
      (lastOf flagOf history).getD stats.connected ∧
    (history.foldl AgentStats.report stats).interval = stats.interval := by
  refine ⟨?_, ?_, ?_⟩
  · refine get_foldl AgentStats.latest (fun s o => ?_) history stats
    obtain ⟨op, now⟩ := o
    cases op <;> rfl
  · have hstep : ∀ s o, some (AgentStats.report s o).connected =
      (flagOf o).or (some s.connected) := by
      rintro s ⟨op, now⟩
      cases op <;> rfl
    have hflag := get_foldl (fun s : AgentStats => some s.connected) hstep history stats
    cases hlast : lastOf flagOf history <;> rw [hlast] at hflag <;> simpa using hflag
  · induction history generalizing stats with
    | nil => rfl
    | cons o history ih =>
      rw [List.foldl_cons, ih]
      obtain ⟨op, now⟩ := o
      cases op <;> rfl

/-! ## A scrape -/

/-- What the body of a scrape at `now` says of an agent with this interval and
this history. -/
structure ScrapeTells (interval : Interval) (history : List (StatsOp × Nat)) (now : Nat)
    (body : String) : Prop where
  /-- The channels are all there or all missing, as the body says. -/
  channels_iff : exposed body "up" = some "1" ↔ ∀ c ∈ channels, (exposed body c.name).isSome
  down : exposed body "up" ≠ some "1" →
    exposed body "up" = some "0" ∧ ∀ c ∈ channels, exposed body c.name = none
  /-- It says so of a sample that is recent enough, on a link that is up. -/
  up_iff : exposed body "up" = some "1" ↔
    ∃ sample, lastOf sampleOf history = some sample ∧ lastOf flagOf history = some true ∧
      now - sample.arrived ≤ max (3 * interval.nanos) (5 * nanosPerSec)
  /-- The values are those of the latest sample. -/
  values : ∀ c ∈ channels, ∀ value, exposed body c.name = some value →
    ∃ sample, lastOf sampleOf history = some sample ∧ value = F64.display (c.value sample.measurement)
  clock : (exposed body "last_sample_timestamp_seconds").isSome ↔
    ∃ report ∈ history, (sampleOf report).isSome
  /-- The window does not overflow. -/
  window : checkedMul interval.nanos staleAfterIntervals = some (3 * interval.nanos)

theorem checkedMul_interval (interval : Interval) :
    checkedMul interval.nanos staleAfterIntervals = some (3 * interval.nanos) := by
  have hmax := interval.le_max
  have hfits : interval.nanos * staleAfterIntervals ≤ durationMax := by
    simp only [maxInterval] at hmax
    simp only [staleAfterIntervals, durationMax, nanosPerSec]
    omega
  rw [checkedMul, if_pos hfits, staleAfterIntervals, Nat.mul_comm]

/-- A scrape is answered with the exposition of the present reading. -/
theorem handle_metrics {line : String} (h : Metrics.route line = some .metrics) (stats : AgentStats)
    (now : Nat) : Metrics.handle line stats now =
      some (Metrics.response "200 OK" Metrics.expositionType "" (metricsExposition
        Metrics.metricPrefix (stats.reading now).measurement (stats.reading now).fresh)) := by
  have hline : line.isEmpty = false := by
    by_contra hne
    obtain rfl : line = "" := String.isEmpty_iff.mp (by simpa using hne)
    exact absurd h (by decide +kernel)
  simp only [Metrics.handle, hline, h]
  rfl

/-- What the present reading is after a history of reports. -/
theorem reading_history (interval : Interval) (started : Nat) (metricsListen : Option String)
    (history : List (StatsOp × Nat)) (now : Nat) :
    let reading := (history.foldl AgentStats.report
      (.new started interval.nanos metricsListen)).reading now
    reading.measurement = (lastOf sampleOf history).map Sample.measurement ∧
      (reading.fresh = true ↔ ∃ sample, lastOf sampleOf history = some sample ∧
        lastOf flagOf history = some true ∧
        now - sample.arrived ≤ max (3 * interval.nanos) (5 * nanosPerSec)) := by
  obtain ⟨hlatest, hconnected, hinterval⟩ :=
    report_history history (.new started interval.nanos metricsListen)
  generalize history.foldl AgentStats.report
    (.new started interval.nanos metricsListen) = stats at *
  have hwindow : stats.staleAfter = max (3 * interval.nanos) (5 * nanosPerSec) := by
    rw [AgentStats.staleAfter, hinterval, minFreshness, staleAfterIntervals, Nat.mul_comm]
    rfl
  rw [show (AgentStats.new started interval.nanos metricsListen).latest = none from rfl,
    Option.or_none] at hlatest
  rw [show (AgentStats.new started interval.nanos metricsListen).connected = false from rfl]
    at hconnected
  simp only [AgentStats.reading, hlatest, hconnected, hwindow, true_and]
  cases lastOf sampleOf history with
  | none => simp
  | some sample => cases lastOf flagOf history <;> simp

/-- **The endpoint never shows a stale reading as live**, over every interval
and every history of reports. -/
theorem scrape_tells {line : String} (hroute : Metrics.route line = some .metrics)
    (interval : Interval) (started : Nat) (metricsListen : Option String)
    (history : List (StatsOp × Nat)) (now : Nat) :
    ∃ body, Metrics.handle line
        (history.foldl AgentStats.report (.new started interval.nanos metricsListen)) now =
          some (Metrics.response "200 OK" Metrics.expositionType "" body) ∧
      ScrapeTells interval history now body := by
  refine ⟨_, handle_metrics hroute _ now, ?_⟩
  obtain ⟨hmeasurement, hfresh⟩ := reading_history interval started metricsListen history now
  generalize (history.foldl AgentStats.report
    (.new started interval.nanos metricsListen)).reading now = reading at hmeasurement hfresh ⊢
  obtain ⟨measurement, fresh⟩ := reading
  obtain rfl : measurement = _ := hmeasurement
  obtain ⟨hup, hclock, hchannels⟩ :=
    exposed_exposition ((lastOf sampleOf history).map Sample.measurement) fresh
  have hone : exposed (metricsExposition Metrics.metricPrefix
      ((lastOf sampleOf history).map Sample.measurement) fresh) "up" = some "1" ↔ fresh = true := by
    rw [hup]
    cases fresh <;> simp
  constructor
  case channels_iff =>
    rw [hone]
    constructor
    · intro htrue c hc
      obtain ⟨sample, hsample, -⟩ := hfresh.mp htrue
      rw [hchannels c hc, hsample, htrue]
      rfl
    · intro hall
      have hc : (⟨"voltage", "Instantaneous voltage in volts", Measurement.voltage⟩ : ChannelSpec) ∈
          channels := by simp [channels]
      have hvoltage := hall _ hc
      rw [hchannels _ hc] at hvoltage
      cases fresh with
      | true => rfl
      | false =>
        cases hlast : lastOf sampleOf history with
        | none => simp [hlast] at hvoltage
        | some sample => simp [hlast] at hvoltage
  case down =>
    intro hdown
    have hfalse : fresh = false := by simpa using mt hone.mpr hdown
    refine ⟨by rw [hup, hfalse]; rfl, fun c hc => ?_⟩
    rw [hchannels c hc, hfalse]
    cases lastOf sampleOf history <;> rfl
  case up_iff => exact hone.trans hfresh
  case values =>
    intro c hc value hvalue
    rw [hchannels c hc] at hvalue
    cases hlast : lastOf sampleOf history with
    | none =>
      rw [hlast] at hvalue
      cases hvalue
    | some sample =>
      rw [hlast] at hvalue
      cases fresh with
      | false => cases hvalue
      | true =>
        cases hvalue
        exact ⟨sample, rfl, rfl⟩
  case clock =>
    rw [hclock, Option.isSome_map, Option.isSome_map]
    exact lastOf_isSome
  case window => exact checkedMul_interval interval

/-- A poll every two seconds. -/
def everyTwoSeconds : Interval := ⟨2000000000, by decide, by decide⟩

/-- A sample, and then the link is lost and found. -/
def lostAndFound : List (StatsOp × Nat) :=
  [(.recordSample ⟨100, 1, 42, 1, ⟨1609304963, 0⟩⟩, 7000000000), (.setConnected false, 8000000000),
    (.recordReconnect, 9000000000)]

theorem scrape_tells_found :
    ∃ body, Metrics.handle "GET /metrics HTTP/1.1\r\n" (lostAndFound.foldl AgentStats.report
        (.new 0 everyTwoSeconds.nanos none)) 13000000000 =
          some (Metrics.response "200 OK" Metrics.expositionType "" body) ∧
      ScrapeTells everyTwoSeconds lostAndFound 13000000000 body :=
  scrape_tells (by decide +kernel) everyTwoSeconds 0 none lostAndFound 13000000000

end Btwattch2
