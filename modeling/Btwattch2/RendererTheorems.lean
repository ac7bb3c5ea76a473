/-
Btwattch2.RendererTheorems — what a streaming run prints and what it sums up.

The run is its samples up to the one that breaks (`follow_new`). The smallest and the
largest value of a channel are exact; sums, averages and the session energy are off by
one rounding for each sample and a few more (`session_statistics`).
-/
import Btwattch2.FloatTheorems
import Btwattch2.Lib.Drift
import Btwattch2.Renderer
import Btwattch2.PrinterTheorems
import Btwattch2.RenderTheorems
import Btwattch2.SpellingTheorems
import Mathlib.Algebra.BigOperators.Group.List.Basic
import Mathlib.Algebra.Order.BigOperators.Group.List

namespace Btwattch2

open Lib

/-! ## Readings of the device -/

theorem u48Le_lt (payload : List UInt8) : u48Le payload < 2 ^ 48 := by
  have hfold : ∀ bytes : List UInt8,
      bytes.foldr (fun byte acc => byte.toNat + 256 * acc) 0 < 256 ^ bytes.length := by
    intro bytes
    induction bytes with
    | nil => decide
    | cons byte bytes ih =>
      have hbyte := byte.toNat_lt
      rw [List.foldr_cons, List.length_cons, pow_succ]
      omega
  refine (hfold (payload.take 6)).trans_le ?_
  calc 256 ^ (payload.take 6).length ≤ 256 ^ 6 :=
        Nat.pow_le_pow_right (by decide) (List.length_take_le 6 payload)
    _ = 2 ^ 48 := by decide

/-- The readings of a measurement are floats. -/
structure Measurement.IsFloat (m : Measurement) : Prop where
  voltage : F64.IsFloat m.voltage
  ampere : F64.IsFloat m.ampere
  wattage : F64.IsFloat m.wattage
  powerFactor : F64.IsFloat m.powerFactor

theorem isFloat_powerFactor (voltage ampere wattage : ℚ) :
    F64.IsFloat (powerFactor voltage ampere wattage) := by
  unfold powerFactor
  split
  · exact F64.isFloat_round _
  · exact F64.isFloat_zero

/-- What the device reports is exact but for the power factor, which is rounded. -/
theorem isFloat_of_readMeasure {chrono : Chrono} {frame : List UInt8} {m : Measurement}
    (h : readMeasure chrono frame = .ok m) : m.IsFloat := by
  have hscaled : ∀ (payload : List UInt8) (k : ℕ), F64.IsFloat (u48Le payload / 2 ^ k) :=
    fun payload k => F64.isFloat_div_pow ((u48Le_lt payload).trans (by decide)) k
  unfold readMeasure at h
  split at h
  case isTrue => cases h
  case isFalse =>
    split at h
    case h_1 => cases h
    case h_2 timestamp _ =>
      cases h
      exact ⟨hscaled _ 24, hscaled _ 30, hscaled _ 24, isFloat_powerFactor _ _ _⟩

namespace Output

/-! ## The run -/

section Run

variable (floats : Floats ℚ)

/-- The samples of a run, each with the session energy it is printed with. -/
def sessions : Stats → List (Measurement ℚ × Nat) → List (Measurement ℚ × ℚ)
  | _, [] => []
  | stats, (m, now) :: rest =>
    (m, (stats.record m now).energyWh) :: sessions (stats.record m now) rest

theorem sessions_map_fst (stats : Stats) (samples : List (Measurement ℚ × Nat)) :
    (sessions stats samples).map Prod.fst = samples.map Prod.fst := by
  induction samples generalizing stats with
  | nil => rfl
  | cons sample rest ih => simp [sessions, ih]

def recordAll (stats : Stats) (samples : List (Measurement ℚ × Nat)) : Stats :=
  samples.foldl (fun stats sample => stats.record sample.1 sample.2) stats

theorem sampled_cons_of_break {count : Option Nat} {had : Nat}
    (h : (count.any fun c => c ≤ had + 1) = true) (sample : Measurement ℚ × Nat)
    (rest : List (Measurement ℚ × Nat)) :
    sampled (count.map fun c => c - had) (sample :: rest) = [sample] := by
  cases count with
  | none => simp at h
  | some c =>
    have hle : c ≤ had + 1 := by simpa using h
    have hmax : max (c - had) 1 = 1 := by omega
    simp [sampled, hmax]

theorem sampled_cons_of_continue {count : Option Nat} {had : Nat}
    (h : (count.any fun c => c ≤ had + 1) = false) (sample : Measurement ℚ × Nat)
    (rest : List (Measurement ℚ × Nat)) :
    sampled (count.map fun c => c - had) (sample :: rest) =
      sample :: sampled (count.map fun c => c - (had + 1)) rest := by
  cases count with
  | none => rfl
  | some c =>
    have hlt : had + 1 < c := by simpa using h
    have hmax : max (c - had) 1 = max (c - (had + 1)) 1 + 1 := by omega
    simp [sampled, hmax]

/-- A run from here on: it takes the samples it still lacks. -/
theorem follow_eq (r : StreamRenderer) (samples : List (Measurement ℚ × Nat)) :
    let run := sampled (r.count.map fun c => c - r.samples) samples
    (r.follow floats samples).1 = Printer.printAll floats r.printer (sessions r.stats run) ∧
      (r.follow floats samples).2.stats = recordAll r.stats run ∧
      (r.follow floats samples).2.summary = r.summary := by
  induction samples generalizing r with
  | nil =>
    have hnil : sampled (r.count.map fun c => c - r.samples)
        ([] : List (Measurement ℚ × Nat)) = [] :=
      sampled_of_not_enough (not_enough_zero _)
    simp only [hnil]
    exact ⟨rfl, rfl, rfl⟩
  | cons sample rest ih =>
    obtain ⟨m, now⟩ := sample
    cases hbreak : r.count.any fun c => c ≤ r.samples + 1 with
    | true =>
      simp only [sampled_cons_of_break hbreak, StreamRenderer.follow, StreamRenderer.record, hbreak]
      exact ⟨by simp [sessions, Printer.printAll], rfl, trivial⟩
    | false =>
      obtain ⟨htext, hstats, hsummary⟩ := ih
        { r with
          printer := (r.printer.print floats m (r.stats.record m now).energyWh).2
          stats := r.stats.record m now
          samples := r.samples + 1 }
      simp only [sampled_cons_of_continue hbreak, StreamRenderer.follow, StreamRenderer.record,
        hbreak]
      simp only at htext hstats hsummary
      refine ⟨?_, hstats, hsummary⟩
      rw [htext, sessions, Printer.printAll]

/-- A run from its start. -/
theorem follow_start (format : OutputFormat) (metricPrefix : String) (count : Option Nat)
    (level : LogLevel) (samples : List (Measurement ℚ × Nat)) :
    let r := (StreamRenderer.new format metricPrefix count level).follow floats samples
    r.1 = Printer.printAll floats (.new format metricPrefix)
        (sessions {} (sampled count samples)) ∧
      r.2.stats = recordAll {} (sampled count samples) ∧ r.2.summary = (level == .info) := by
  have hsub : (count.map fun c => c - 0) = count := by simp
  have hrun := follow_eq floats (StreamRenderer.new format metricPrefix count level) samples
  simp only [StreamRenderer.new, hsub] at hrun
  exact hrun

/-- **A streaming run**: of the measurements it is handed it takes as many as were
asked for, prints each with the session energy up to it, under one head, and sums up
just these where the log level asks for it. -/
theorem follow_new (format : OutputFormat) (metricPrefix : String) (count : Option Nat)
    (level : LogLevel) (samples : List (Measurement ℚ × Nat)) :
    let run := sampled count samples
    let r := (StreamRenderer.new format metricPrefix count level).follow floats samples
    r.1 = Printer.printAll floats (.new format metricPrefix) (sessions {} run) ∧
      (sessions {} run).map Prod.fst = run.map Prod.fst ∧
      r.2.drop floats = if level = .info then (recordAll {} run).summary floats else [] := by
  obtain ⟨htext, hstats, hsummary⟩ := follow_start floats format metricPrefix count level samples
  refine ⟨htext, sessions_map_fst _ _, ?_⟩
  rw [StreamRenderer.drop, hsummary, hstats]
  simp

end Run

/-- The relative error of one rounding. -/
def unitError : ℚ := 1 / 2 ^ 53

theorem unitError_nonneg : 0 ≤ unitError := by norm_num [unitError]

theorem unitError_le_one : unitError ≤ 1 := by norm_num [unitError]

/-- A value that is rounded has one more rounding in it. -/
theorem drift_round {n : ℕ} {a x : ℚ} (h : Drift unitError n a x) (hx : 0 ≤ x) :
    Drift unitError (n + 1) (F64.round a) x := by
  refine h.round unitError_nonneg unitError_le_one ?_
  have hle := F64.abs_round_sub_le (h.nonneg unitError_le_one hx)
  rwa [unitError, mul_one_div]

/-! ## The channels -/

/-- What a channel says about the values it has recorded. -/
structure Channel.Of (c : Channel) (values : List ℚ) : Prop where
  min : c.min = values.minimum
  max : c.max = values.maximum
  sum : (∀ v ∈ values, 0 ≤ v) → Drift unitError values.length c.sum values.sum

theorem Channel.of_new : Channel.Of {} [] :=
  ⟨List.minimum_nil.symm, List.maximum_nil.symm, fun _ => Drift.refl _ _⟩

theorem Channel.Of.record {c : Channel} {values : List ℚ} (h : c.Of values) (value : ℚ) :
    (c.record value).Of (values ++ [value]) := by
  constructor
  case min => rw [List.minimum_concat, Channel.record, h.min]
  case max => rw [List.maximum_concat, Channel.record, h.max]
  case sum =>
    intro hall
    have hvalues : ∀ v ∈ values, 0 ≤ v := fun v hv => hall v (List.mem_append_left _ hv)
    have hvalue : 0 ≤ value := hall value (by simp)
    have hsum : Drift unitError values.length (c.sum + value) (values.sum + value) :=
      (h.sum hvalues).add ((Drift.refl _ _).mono unitError_nonneg unitError_le_one hvalue
        (Nat.zero_le _))
    rw [List.length_append, List.sum_append, List.length_singleton, List.sum_singleton]
    exact drift_round hsum (add_nonneg (List.sum_nonneg hvalues) hvalue)

theorem Channel.of_recordAll (values : List ℚ) : (values.foldl Channel.record {}).Of values := by
  induction values using List.reverseRecOn with
  | nil => exact Channel.of_new
  | append_singleton values value ih =>
    rw [List.foldl_append]
    exact ih.record value

/-- The average of the values, as it is summed up. -/
theorem Channel.Of.average {c : Channel} {values : List ℚ} (h : c.Of values)
    (hall : ∀ v ∈ values, 0 ≤ v) (hlength : values.length < 2 ^ 53) :
    Drift unitError (values.length + 1) (F64.div c.sum (F64.round values.length))
      (values.sum / values.length) := by
  rw [(F64.isFloat_natCast hlength).round_eq]
  exact drift_round ((h.sum hall).div_const (Nat.cast_nonneg _))
    (div_nonneg (List.sum_nonneg hall) (Nat.cast_nonneg _))

/-! ## The session -/

/-- The energy between two samples: the power at the later one, over the time between. -/
def exactGain (m : Measurement ℚ) (nanos : Nat) : ℚ := m.wattage * (nanos / nanosPerSec) / 3600

/-- The energy of a session. -/
def exactEnergy : List (Measurement ℚ × Nat) → ℚ
  | [] => 0
  | [_] => 0
  | first :: next :: rest => exactGain next.1 (next.2 - first.2) + exactEnergy (next :: rest)

theorem exactEnergy_concat (samples : List (Measurement ℚ × Nat))
    (last sample : Measurement ℚ × Nat) :
    exactEnergy (samples ++ [last, sample]) =
      exactEnergy (samples ++ [last]) + exactGain sample.1 (sample.2 - last.2) := by
  induction samples with
  | nil => simp [exactEnergy]
  | cons first samples ih =>
    cases samples with
    | nil => simp [exactEnergy]
    | cons next rest =>
      simp only [List.cons_append, exactEnergy] at ih ⊢
      rw [ih, add_assoc]

theorem drift_asSecsF64 (nanos : Nat) :
    Drift unitError 2 (asSecsF64 nanos) (nanos / nanosPerSec : ℚ) := by
  have hns : (0 : ℚ) ≤ nanosPerSec := Nat.cast_nonneg _
  have hsplit : ((nanos / nanosPerSec : ℕ) : ℚ) + (nanos % nanosPerSec : ℕ) / (nanosPerSec : ℚ) =
      nanos / nanosPerSec := by
    rw [show (nanosPerSec : ℚ) = 10 ^ 9 by norm_num [nanosPerSec]]
    exact split_decimal nanos 9
  have hpart : (0 : ℚ) ≤ (nanos % nanosPerSec : ℕ) / nanosPerSec :=
    div_nonneg (Nat.cast_nonneg _) hns
  have hwhole : (0 : ℚ) ≤ (nanos / nanosPerSec : ℕ) := Nat.cast_nonneg _
  have hsum := ((Drift.refl unitError _).mono unitError_nonneg unitError_le_one hwhole
    (Nat.zero_le 1)).add (drift_round (Drift.refl _ _) hpart)
  rw [hsplit] at hsum
  exact drift_round hsum (div_nonneg (Nat.cast_nonneg _) hns)

theorem drift_gain {m : Measurement ℚ} (h : 0 ≤ m.wattage) (nanos : Nat) :
    Drift unitError 4 (Stats.gain m nanos) (exactGain m nanos) := by
  have hsecs : (0 : ℚ) ≤ nanos / nanosPerSec := div_nonneg (Nat.cast_nonneg _) (Nat.cast_nonneg _)
  have hprod := (Drift.refl unitError m.wattage).mul unitError_nonneg unitError_le_one h hsecs
    (drift_asSecsF64 nanos)
  have hprod0 := mul_nonneg h hsecs
  exact drift_round ((drift_round hprod hprod0).div_const (by norm_num))
    (div_nonneg hprod0 (by norm_num))

/-- What the statistics say about the samples they have recorded. -/
structure Stats.Of (stats : Stats) (samples : List (Measurement ℚ × Nat)) : Prop where
  count : stats.count = samples.length
  channels : stats.channels = channelsOf.map fun p =>
    (samples.map fun sample => p.2 sample.1).foldl Channel.record {}
  last : stats.lastSample = samples.getLast?.map Prod.snd
  energy : (∀ sample ∈ samples, 0 ≤ sample.1.wattage) →
    0 ≤ exactEnergy samples ∧
      Drift unitError (samples.length + 3) stats.energyWh (exactEnergy samples)
  isFloat : F64.IsFloat stats.energyWh

theorem Stats.of_new : Stats.Of {} [] where
  count := rfl
  channels := rfl
  last := rfl
  energy _ := ⟨le_rfl, (Drift.refl unitError 0).mono unitError_nonneg unitError_le_one le_rfl
    (Nat.zero_le _)⟩
  isFloat := F64.isFloat_zero

theorem Stats.Of.record {stats : Stats} {samples : List (Measurement ℚ × Nat)}
    (h : stats.Of samples) (m : Measurement ℚ) (now : Nat) :
    (stats.record m now).Of (samples ++ [(m, now)]) := by
  constructor
  case count => simp [Stats.record, h.count]
  case channels =>
    simp only [Stats.record, h.channels, List.map_append, List.foldl_append]
    rw [← List.map_prod_left_eq_zip, List.map_map]
    rfl
  case last => simp [Stats.record]
  case energy =>
    intro hall
    have hm : 0 ≤ m.wattage := hall (m, now) (by simp)
    obtain ⟨hexact, hdrift⟩ := h.energy fun x hx => hall x (List.mem_append_left _ hx)
    rcases List.eq_nil_or_concat' samples with rfl | ⟨before, last, rfl⟩
    · have hlast : stats.lastSample = none := h.last
      refine ⟨le_rfl, ?_⟩
      simp only [Stats.record, hlast]
      exact hdrift.mono unitError_nonneg unitError_le_one hexact (by simp)
    · have hlast : stats.lastSample = some last.2 := by simp [h.last]
      have hgain := drift_gain hm (now - last.2)
      have hgain0 : 0 ≤ exactGain m (now - last.2) := by
        unfold exactGain
        positivity
      have hsum := hdrift.add (hgain.mono unitError_nonneg unitError_le_one hgain0
        (m := (before ++ [last]).length + 3) (by simp))
      have henergy : exactEnergy (before ++ [last] ++ [(m, now)]) =
          exactEnergy (before ++ [last]) + exactGain m (now - last.2) := by
        rw [List.append_assoc]
        exact exactEnergy_concat before last (m, now)
      rw [henergy]
      refine ⟨add_nonneg hexact hgain0, ?_⟩
      simp only [Stats.record, hlast]
      have hround := drift_round hsum (add_nonneg hexact hgain0)
      rwa [show (before ++ [last]).length + 3 + 1 =
        (before ++ [last] ++ [(m, now)]).length + 3 by simp] at hround
  case isFloat =>
    unfold Stats.record
    dsimp only
    split
    · exact F64.isFloat_round _
    · exact h.isFloat

theorem Stats.of_recordAll (samples : List (Measurement ℚ × Nat)) :
    (recordAll {} samples).Of samples := by
  induction samples using List.reverseRecOn with
  | nil => exact Stats.of_new
  | append_singleton samples sample ih =>
    rw [recordAll, List.foldl_append]
    exact ih.record sample.1 sample.2

/-- A sample adds to the session energy. -/
theorem Stats.record_energy {stats : Stats} (h : F64.IsFloat stats.energyWh) (m : Measurement ℚ)
    (now : Nat) :
    stats.energyWh ≤ (stats.record m now).energyWh ∧
      F64.IsFloat (stats.record m now).energyWh := by
  unfold Stats.record
  dsimp only
  split
  next last _ =>
    have hgain : 0 ≤ Stats.gain m (now - last) := F64.round_nonneg _
    refine ⟨?_, F64.isFloat_round _⟩
    calc stats.energyWh = F64.round stats.energyWh := h.round_eq.symm
      _ ≤ F64.add stats.energyWh (Stats.gain m (now - last)) :=
        F64.round_mono (le_add_of_nonneg_right hgain)
  next => exact ⟨le_rfl, h⟩

/-- The session energy starts where the statistics stand and never falls. -/
theorem sessions_ascend {stats : Stats} (h : F64.IsFloat stats.energyWh)
    (samples : List (Measurement ℚ × Nat)) :
    (∀ e ∈ (sessions stats samples).map Prod.snd, stats.energyWh ≤ e ∧ F64.IsFloat e) ∧
      ((sessions stats samples).map Prod.snd).Pairwise (· ≤ ·) := by
  induction samples generalizing stats with
  | nil => simp [sessions]
  | cons sample rest ih =>
    obtain ⟨m, now⟩ := sample
    obtain ⟨hle, hfloat⟩ := Stats.record_energy h m now
    obtain ⟨hlow, hpairs⟩ := ih hfloat
    rw [sessions, List.map_cons, List.forall_mem_cons, List.pairwise_cons]
    exact ⟨⟨⟨hle, hfloat⟩, fun e he => ⟨hle.trans (hlow e he).1, (hlow e he).2⟩⟩,
      fun e he => (hlow e he).1, hpairs⟩

/-- A measurement the device has reported. -/
def Reported (chrono : Chrono) (m : Measurement ℚ) : Prop :=
  ∃ frame reading, readMeasure chrono frame = .ok reading ∧ m = ofDevice reading

theorem Reported.nonneg {chrono : Chrono} {m : Measurement ℚ} (h : Reported chrono m)
    {p : ChannelSpec × (Measurement ℚ → ℚ)} (hp : p ∈ channelsOf) : 0 ≤ p.2 m := by
  obtain ⟨frame, reading, hread, rfl⟩ := h
  have hfloat := isFloat_of_readMeasure hread
  simp only [channelsOf, channels, List.zip_cons_cons, List.zip_nil_right, List.mem_cons,
    List.not_mem_nil, or_false] at hp
  rcases hp with rfl | rfl | rfl | rfl
  · exact hfloat.voltage.1
  · exact hfloat.ampere.1
  · exact hfloat.wattage.1
  · exact hfloat.powerFactor.1

theorem Reported.wattage {chrono : Chrono} {m : Measurement ℚ} (h : Reported chrono m) :
    0 ≤ m.wattage := by
  obtain ⟨frame, reading, hread, rfl⟩ := h
  exact (isFloat_of_readMeasure hread).wattage.1

/-- **What a session sums up**: the extremes of each channel are exact, the averages and
the energy are the exact ones but for a rounding a sample and a few more, and the energy
that is printed with the samples starts at zero and never falls. -/
theorem session_statistics {chrono : Chrono} {samples : List (Measurement ℚ × Nat)}
    (h : ∀ sample ∈ samples, Reported chrono sample.1) (hlength : samples.length < 2 ^ 53) :
    (∀ p c, (p, c) ∈ channelsOf.zip (recordAll {} samples).channels →
      c.min = (samples.map fun sample => p.2 sample.1).minimum ∧
      c.max = (samples.map fun sample => p.2 sample.1).maximum ∧
      Drift unitError (samples.length + 1)
        (F64.div c.sum (F64.round (recordAll {} samples).count))
        ((samples.map fun sample => p.2 sample.1).sum / samples.length)) ∧
    Drift unitError (samples.length + 3) (recordAll {} samples).energyWh (exactEnergy samples) ∧
    ((sessions {} samples).map Prod.snd).Pairwise (· ≤ ·) ∧
    ∀ e ∈ ((sessions {} samples).map Prod.snd).head?, e = 0 := by
  have hof := Stats.of_recordAll samples
  have hwattage : ∀ sample ∈ samples, 0 ≤ sample.1.wattage := fun sample hs => (h sample hs).wattage
  refine ⟨?_, (hof.energy hwattage).2, (sessions_ascend F64.isFloat_zero samples).2, ?_⟩
  · intro p c hmem
    rw [hof.channels, ← List.map_prod_left_eq_zip, List.mem_map] at hmem
    obtain ⟨q, hq, heq⟩ := hmem
    obtain ⟨rfl, rfl⟩ := Prod.mk.inj heq
    have hchannel := Channel.of_recordAll (samples.map fun sample => q.2 sample.1)
    have hall : ∀ v ∈ samples.map fun sample => q.2 sample.1, 0 ≤ v := by
      rw [List.forall_mem_map]
      exact fun sample hs => (h sample hs).nonneg hq
    have haverage := hchannel.average hall (by simpa using hlength)
    rw [List.length_map, ← hof.count] at haverage
    rw [hof.count] at haverage ⊢
    exact ⟨hchannel.min, hchannel.max, haverage⟩
  · cases samples with
    | nil => simp [sessions]
    | cons sample rest =>
      intro e he
      exact (Option.some.inj he).symm

/-- A frame that carries a load of 50 W. -/
def loadFrame : List UInt8 :=
  [0xAA, 0, 26, 8, 0, 0, 0, 0, 100, 0, 0, 0, 0, 0, 32, 0, 0, 0, 0, 0, 50, 0, 0, 23, 9, 5, 1, 0, 121,
    0]

def load : Btwattch2.Measurement := ⟨100, 1 / 2, 50, 1, ⟨1609477763, 0⟩⟩

theorem readMeasure_loadFrame : readMeasure (.utc .error) loadFrame = .ok load := by
  decide +kernel

/-- The load, reported twice, an hour apart. -/
def loadHour : List (Measurement ℚ × Nat) :=
  [(ofDevice load, 7), (ofDevice load, 7 + 3600 * nanosPerSec)]

theorem reported_loadHour : ∀ sample ∈ loadHour, Reported (.utc .error) sample.1 := by
  simp only [loadHour, List.forall_mem_cons, List.not_mem_nil, false_imp_iff, implies_true,
    and_true, and_self]
  exact ⟨loadFrame, load, readMeasure_loadFrame, rfl⟩

theorem session_statistics_load :
    Drift unitError 5 (recordAll {} loadHour).energyWh 50 ∧
      ((sessions {} loadHour).map Prod.snd).Pairwise (· ≤ ·) := by
  obtain ⟨-, henergy, hpairs, -⟩ := session_statistics reported_loadHour (by decide)
  have hexact : exactEnergy loadHour = 50 := by
    norm_num [exactEnergy, exactGain, loadHour, ofDevice, load, nanosPerSec]
  rw [hexact] at henergy
  exact ⟨henergy, hpairs⟩

end Output

end Btwattch2
