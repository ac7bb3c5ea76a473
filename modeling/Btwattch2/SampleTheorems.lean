/-
Btwattch2.SampleTheorems — which of the frames that carry a measurement the
agent counts.

The frames taken out of the assembler are in the log, whoever took them. Those
that are forwarded are recorded (`Recorded`, a stable invariant); the one that
answers a `GetRtc` is read for its timestamp and not recorded, so that the
counter falls behind with each of them.
-/
import Btwattch2.LinkTheorems
import Btwattch2.StreamTheorems

namespace Btwattch2

open Lib

section Zone

variable (chrono : Chrono)

/-! ## Reading the log -/

/-- The measurement in a frame that was taken, whoever took it. -/
def Obs.sample : Obs → Option Measurement
  | .took frame _ => tryMeasurement chrono frame
  | _ => none

/-- The same, passing over the frame that answers a `GetRtc`. -/
def Obs.recorded : Obs → Option Measurement
  | .took _ (.reply .measurement) => none
  | o => o.sample chrono

/-- The measurements the actor has consumed. -/
def samplesOf (log : List Obs) : List Measurement := log.filterMap (Obs.sample chrono)

/-- The counter is the number of measurements consumed, and the latest sample the
last of them. -/
structure Accounted (log : List Obs) (a : Actor) : Prop where
  count : a.clients.stats.samples = (samplesOf chrono log).length
  latest : a.clients.stats.latest.map Sample.measurement = (samplesOf chrono log).getLast?

/-- No `GetRtc` has been answered by a frame that `read_measure` accepts. -/
def NoneUnrecorded (log : List Obs) : Prop :=
  ∀ frame, .took frame (.reply .measurement) ∈ log → tryMeasurement chrono frame = none

/-- What the actor keeps of the measurements it consumes. -/
structure Recorded (log : List Obs) (a : Actor) : Prop where
  count : a.clients.stats.samples = (log.filterMap (Obs.recorded chrono)).length
  latest : a.clients.stats.latest.map Sample.measurement =
    (log.filterMap (Obs.recorded chrono)).getLast?

variable {chrono}

theorem recorded_or (o : Obs) : o.recorded chrono = none ∨ o.recorded chrono = o.sample chrono := by
  unfold Obs.recorded
  split
  · exact .inl rfl
  · exact .inr rfl

theorem recorded_took {taker : Taker} (htaker : taker ≠ .reply .measurement) (frame : List UInt8) :
    (Obs.took frame taker).recorded chrono = tryMeasurement chrono frame := by
  cases taker with
  | reply kind =>
    cases kind with
    | measurement => exact absurd rfl htaker
    | command => rfl
  | _ => rfl

/-- Only an accepted answer to a `GetRtc` is passed over. -/
theorem recorded_eq_iff (log : List Obs) :
    (∀ o ∈ log, o.recorded chrono = o.sample chrono) ↔ NoneUnrecorded chrono log := by
  constructor
  · intro h frame hframe
    exact (h _ hframe).symm
  · intro h o ho
    unfold Obs.recorded
    split
    case h_1 frame => exact (h frame ho).symm
    case h_2 => rfl

/-- What is recorded is what was consumed exactly where no answer to a `GetRtc` was
a measurement. -/
theorem Recorded.accounted {log : List Obs} {a : Actor} (h : Recorded chrono log a) :
    Accounted chrono log a ↔ NoneUnrecorded chrono log := by
  rw [← recorded_eq_iff, ← (length_filterMap_iff recorded_or log).2]
  constructor
  · intro haccounted
    exact h.count.symm.trans haccounted.count
  · intro hlength
    have hall := (length_filterMap_iff recorded_or log).2.mp hlength
    have hsame : log.filterMap (Obs.recorded chrono) = samplesOf chrono log :=
      List.filterMap_congr hall
    exact ⟨hsame ▸ h.count, hsame ▸ h.latest⟩

/-! ## What is recorded, step by step -/

namespace Recorded

variable {log : List Obs} {a a' : Actor}

/-- A change that leaves both cells as they are. -/
theorem congr (h : Recorded chrono log a)
    (hsamples : a'.clients.stats.samples = a.clients.stats.samples)
    (hlatest : a'.clients.stats.latest = a.clients.stats.latest) : Recorded chrono log a' :=
  ⟨hsamples.trans h.count, by rw [hlatest, h.latest]⟩

/-- Observations of no measurement. -/
theorem skip (h : Recorded chrono log a) {obs : List Obs}
    (hobs : ∀ o ∈ obs, o.recorded chrono = none) : Recorded chrono (log ++ obs) a := by
  have hnil : obs.filterMap (Obs.recorded chrono) = [] := List.filterMap_eq_nil_iff.mpr hobs
  exact ⟨by simp [h.count, hnil], by simp [h.latest, hnil]⟩

theorem elapse (h : Recorded chrono log a) (acts : List (ClientId × ClientAct)) (elapsed : Nat) :
    Recorded chrono (log ++ [.meanwhile acts]) (a.elapse acts elapsed) := by
  have hstats : (a.elapse acts elapsed).clients.stats = a.clients.stats :=
    stats_run_act acts a.clients
  exact (h.skip (by simp [Obs.recorded, Obs.sample])).congr (by rw [hstats]) (by rw [hstats])

/-- An operation on the clients publishes their count, and no more. -/
theorem applyOp (h : Recorded chrono log a) (op : ClientOp) :
    Recorded chrono (log ++ [.clients op]) (a.applyOp op) := by
  obtain ⟨n, hstats⟩ := stats_apply a.clients op
  have hstats' : (a.applyOp op).clients.stats = a.clients.stats.setClients n := hstats
  exact (h.skip (by simp [Obs.recorded, Obs.sample])).congr (by rw [hstats']; rfl)
    (by rw [hstats']; rfl)

/-- One frame taken and forwarded. -/
theorem take (h : Recorded chrono log a) {taker : Taker} (htaker : taker ≠ .reply .measurement)
    (frame : List UInt8) :
    Recorded chrono (log ++ takeObs chrono taker frame) (a.forwarded chrono frame) := by
  have htook : (Obs.took frame taker).recorded chrono = tryMeasurement chrono frame :=
    recorded_took htaker frame
  unfold takeObs forwardObs Actor.forwarded
  cases hm : tryMeasurement chrono frame with
  | none =>
    refine h.skip fun o ho => ?_
    rw [List.mem_singleton.mp ho, htook, hm]
  | some m =>
    have hsample : Recorded chrono (log ++ [.took frame taker])
        (a.withStats fun stats => stats.recordSample a.now m) := by
      refine ⟨?_, ?_⟩
      · have hcount := h.count
        simp [Actor.withStats, AgentStats.recordSample, List.filterMap_append, htook, hm, hcount]
      · simp [Actor.withStats, AgentStats.recordSample, List.filterMap_append, htook, hm]
    have hbroadcast := hsample.applyOp (.broadcast (.fromMeasurement m))
    rwa [List.append_assoc] at hbroadcast

/-- Frames taken one after the other. -/
theorem takeAll {taker : Taker} (htaker : taker ≠ .reply .measurement) :
    ∀ (frames : List (List UInt8)) {log : List Obs} {a : Actor}, Recorded chrono log a →
      Recorded chrono (log ++ frames.flatMap (takeObs chrono taker))
        (frames.foldl (Actor.forwarded chrono) a)
  | [], log, a, h => by simpa using h
  | frame :: frames, log, a, h => by
    have hrest := takeAll htaker frames (h.take htaker frame)
    simpa using hrest

theorem fed (h : Recorded chrono log a) (stop : List UInt8 → Bool) {taker : Taker}
    (htaker : taker ≠ .reply .measurement) (value : List UInt8) :
    Recorded chrono (log ++ feedObs chrono a stop taker value) (a.fed chrono stop value) := by
  have hrx : Recorded chrono (log ++ [.rx value])
      { a with assembler := (a.pulled stop value).2.2 } :=
    (h.skip (by simp [Obs.recorded, Obs.sample])).congr rfl rfl
  have hall := hrx.takeAll htaker (a.pulled stop value).1
  rwa [List.append_assoc] at hall

/-- The frame that ends a wait: a command reply carries no measurement, and the
answer to a `GetRtc` is passed over. -/
theorem reply (h : Recorded chrono log a) {kind : FrameKind} {frame : List UInt8}
    (hfits : kind.matches frame = true) :
    Recorded chrono (log ++ [.took frame (.reply kind)]) a := by
  refine h.skip fun o ho => ?_
  rw [List.mem_singleton.mp ho]
  cases kind with
  | measurement => rfl
  | command => exact tryMeasurement_eq_none (FrameKind.matches_command.mp hfits)

theorem closing (h : Recorded chrono log a) : Recorded chrono (log ++ a.closing) a := by
  refine h.skip fun o ho => ?_
  revert ho
  unfold Actor.closing
  split
  · intro ho
    rw [List.mem_singleton.mp ho]
    rfl
  · simp

end Recorded

theorem recorded_note {o : Obs} (ho : o.isNote = true) : o.recorded chrono = none := by
  cases o <;> first | rfl | cases ho

/-- Every step of the actor records what it forwards. -/
theorem stable_recorded (chrono : Chrono) : Stable chrono (Recorded chrono) where
  meanwhile acts elapsed h := h.elapse acts elapsed
  awaiting kind h := h.skip (by simp [Obs.recorded, Obs.sample])
  note ho h := h.skip (by simpa using recorded_note ho)
  connected h := (h.skip (by simp [Obs.recorded, Obs.sample])).congr rfl rfl
  recordReconnect h := h.congr rfl rfl
  disconnected h := h.congr rfl rfl
  clients _ h := h.applyOp _
  drop h := h.closing.congr rfl rfl
  subscribe n h := (h.closing.skip (by simp [Obs.recorded, Obs.sample])).congr rfl rfl
  feed value _ h := h.fed _ (by simp) value
  feedMiss kind value _ _ h := h.fed _ (by simp) value
  feedHit kind value frame _ hhit h :=
    (h.fed kind.matches (by simp) value).reply ((FrameAssembler.pull_spec _ _).hit frame hhit)
  request tx request h := h.skip (by simp [Obs.recorded, Obs.sample])
  reply _ h := (h.skip (by simp [Obs.recorded, Obs.sample])).congr rfl rfl
  result _ h := (h.skip (by simp [Obs.recorded, Obs.sample])).congr rfl rfl

/-! ## Every run -/

/-- **When the samples are accounted for**: after every run in which no `GetRtc` was
answered by a frame that `read_measure` accepts, and after no other. -/
theorem accounted_iff (chrono : Chrono) (conn : Connection) (interval now : Nat)
    (metricsListen : Option String) (pollAlways : Bool) {labels : List (Event × List Answer)}
    {agent : Agent}
    (hrun : Transition.run (Agent.step chrono)
      (.start conn interval now metricsListen pollAlways) labels = some agent) :
    Accounted chrono agent.log agent.actor ↔ NoneUnrecorded chrono agent.log := by
  have hstart : Recorded chrono [] (Agent.start conn interval now metricsListen pollAlways).actor :=
    ⟨rfl, rfl⟩
  have hrecorded : Recorded chrono agent.log agent.actor := (stable_recorded chrono).run hstart hrun
  exact hrecorded.accounted

/-- A client streams, and the measurement comes while a command waits. -/
theorem accounted_iff_interleaved : ∃ agent,
    Transition.run (Agent.step (.utc fun _ => .error "premature end of input"))
      (.start ⟨1⟩ nanosPerSec 0 none false) interleaved = some agent ∧
    agent.actor.clients.stats.samples = 1 ∧
    (Accounted (.utc fun _ => .error "premature end of input") agent.log agent.actor ↔
      NoneUnrecorded (.utc fun _ => .error "premature end of input") agent.log) := by
  have hcount : (Transition.run (Agent.step (.utc fun _ => .error "premature end of input"))
      (.start ⟨1⟩ nanosPerSec 0 none false) interleaved).any (fun agent =>
        agent.actor.clients.stats.samples == 1) = true := by decide +kernel
  obtain ⟨agent, hrun, hagent⟩ := (Option.any_eq_true _ _).mp hcount
  exact ⟨agent, hrun, beq_iff_eq.mp hagent, accounted_iff _ _ _ _ _ _ hrun⟩

/-- A client asks for the clock of the device. -/
def clockRead : List (Event × List Answer) :=
  [(.command (some ⟨.getRtc, 0⟩), [.meanwhile [] 0, .meanwhile [] 0, .subscribe (.ok ()),
    .meanwhile [] 0, .deviceWrite (.ok ()),
    .meanwhile [] 0, .next (some ⟨cRx, generate
      [8, 0, 0, 0, 0, 100, 0, 0, 0, 0, 0, 0, 0, 0, 0, 0, 0, 0, 0, 0, 23, 9, 5, 30, 11, 120, 0]⟩)])]

/-- The measurement that answers it is consumed and not counted. -/
theorem not_accounted : ∃ agent,
    Transition.run (Agent.step (.utc fun _ => .error "premature end of input"))
      (.start ⟨1⟩ nanosPerSec 0 none false) clockRead = some agent ∧
    (samplesOf (.utc fun _ => .error "premature end of input") agent.log).length = 1 ∧
    agent.actor.clients.stats.samples = 0 ∧ agent.actor.clients.stats.latest = none ∧
    ¬ Accounted (.utc fun _ => .error "premature end of input") agent.log agent.actor := by
  have hchecks : (Transition.run (Agent.step (.utc fun _ => .error "premature end of input"))
      (.start ⟨1⟩ nanosPerSec 0 none false) clockRead).any (fun agent =>
        decide ((samplesOf (.utc fun _ => .error "premature end of input") agent.log).length = 1 ∧
          agent.actor.clients.stats.samples = 0 ∧
          agent.actor.clients.stats.latest = none)) = true := by decide +kernel
  obtain ⟨agent, hrun, hagent⟩ := (Option.any_eq_true _ _).mp hchecks
  obtain ⟨hlength, hsamples, hlatest⟩ := of_decide_eq_true hagent
  refine ⟨agent, hrun, hlength, hsamples, hlatest, fun haccounted => ?_⟩
  have hcount := haccounted.count
  omega

end Zone

end Btwattch2
