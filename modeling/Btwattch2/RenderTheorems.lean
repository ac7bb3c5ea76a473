/-
Btwattch2.RenderTheorems — what a streaming run renders.

Both ways of streaming hand their measurements to one renderer, which takes as
many samples as were asked for, and at least one (`sampled`). Through the agent
the measurements come as lines (`runViaDaemon_renders`); on a link of the
invocation's own they come out of the bytes its subscription has received
(`renders_run`).
-/
import Btwattch2.DirectTheorems
import Btwattch2.Main

namespace Btwattch2

open Lib

/-! ## Samples -/

/-- So many samples are all that were asked for. -/
def Enough (count : Option Nat) (samples : Nat) : Prop := ∃ n ∈ count, max n 1 ≤ samples

/-- The samples a run takes out of the measurements it is handed. -/
def sampled {α : Type} (count : Option Nat) (ms : List α) : List α :=
  match count with
  | none => ms
  | some n => ms.take (max n 1)

section Samples

variable {α : Type} {count : Option Nat} {ms ms' : List α}

@[simp] theorem not_enough_none (samples : Nat) : ¬ Enough none samples := by simp [Enough]

@[simp] theorem enough_some (n samples : Nat) : Enough (some n) samples ↔ max n 1 ≤ samples := by
  simp [Enough]

instance (count : Option Nat) (samples : Nat) : Decidable (Enough count samples) :=
  match count with
  | none => .isFalse (not_enough_none samples)
  | some n => decidable_of_iff _ (enough_some n samples).symm

theorem not_enough_zero (count : Option Nat) : ¬ Enough count 0 := by
  cases count <;> simp

theorem Enough.mono {samples samples' : Nat} (h : Enough count samples) (hle : samples ≤ samples') :
    Enough count samples' := by
  obtain ⟨n, hn, hmax⟩ := h
  exact ⟨n, hn, hmax.trans hle⟩

/-- A run that goes on takes everything. -/
theorem sampled_of_not_enough (h : ¬ Enough count ms.length) : sampled count ms = ms := by
  cases count with
  | none => rfl
  | some n =>
    rw [enough_some, Nat.not_le] at h
    exact List.take_of_length_le h.le

/-- With enough samples, nothing that comes after them counts. -/
theorem sampled_append (h : Enough count ms.length) :
    sampled count (ms ++ ms') = sampled count ms := by
  cases count with
  | none => exact absurd h (not_enough_none _)
  | some n => exact List.take_append_of_le_length ((enough_some n _).mp h)

theorem sampled_mono (h : ms <+: ms') : sampled count ms <+: sampled count ms' := by
  cases count with
  | none => exact h
  | some n => exact h.take _

/-- Where a part of the measurements is enough, or all there are, the samples are
those of the whole. -/
theorem sampled_eq (h : ms <+: ms') (hall : ms = ms' ∨ Enough count ms.length) :
    sampled count ms = sampled count ms' ∧ (Enough count ms.length ↔ Enough count ms'.length) := by
  obtain rfl | henough := hall
  · exact ⟨rfl, Iff.rfl⟩
  · obtain ⟨rest, rfl⟩ := h
    exact ⟨(sampled_append henough).symm, iff_of_true henough (henough.mono (by simp))⟩

/-- The sample that is the last one. -/
theorem sampled_concat (h : ¬ Enough count ms.length) (m : α) :
    sampled count (ms ++ [m]) = ms ++ [m] := by
  cases count with
  | none => rfl
  | some n =>
    rw [enough_some, Nat.not_le] at h
    refine List.take_of_length_le ?_
    rw [List.length_append, List.length_singleton]
    exact h

end Samples

/-! ## The renderer -/

def ClientObs.measurement : ClientObs → Option Measurement
  | .rendered m => some m
  | _ => none

/-- The measurements that were rendered, in order. -/
def renderedIn (log : List ClientObs) : List Measurement := log.filterMap ClientObs.measurement

/-- The renderer has been handed `ms`. -/
structure Renders (count : Option Nat) (ms : List Measurement) (log : List ClientObs)
    (renderer : StreamRenderer) : Prop where
  log : renderedIn log = sampled count ms
  renderer : renderer = ⟨(sampled count ms).length, count⟩

namespace Renders

variable {count : Option Nat} {ms : List Measurement} {log : List ClientObs}
  {renderer : StreamRenderer}

/-- With enough samples, nothing more is rendered. -/
theorem enough (h : Renders count ms log renderer) (henough : Enough count ms.length)
    (ms' : List Measurement) : Renders count (ms ++ ms') log renderer := by
  constructor
  · rw [sampled_append henough]
    exact h.log
  · rw [sampled_append henough]
    exact h.renderer

/-- Another measurement is rendered: the renderer breaks when it is the last one
asked for. -/
theorem record (h : Renders count ms log renderer) (hmore : ¬ Enough count ms.length)
    (m : Measurement) :
    Renders count (ms ++ [m]) (log ++ [.rendered m])
      { renderer with samples := renderer.samples + 1 } ∧
    ((renderer.count.any fun n => decide (n ≤ renderer.samples + 1)) = true ↔
      Enough count (ms ++ [m]).length) := by
  have hrendered := h.log
  have hrenderer := h.renderer
  rw [sampled_of_not_enough hmore] at hrendered hrenderer
  subst hrenderer
  refine ⟨⟨?_, ?_⟩, ?_⟩
  · simp only [renderedIn, List.filterMap_append, sampled_concat hmore] at hrendered ⊢
    rw [hrendered]
    rfl
  · simp [sampled_concat hmore]
  · cases count with
    | none => simp
    | some n => simp

end Renders

/-! ## Through the agent -/

section Relayed

variable {platform : Platform} {count : Option Nat}

/-- What a streaming run does with a response. -/
def renderResponse (platform : Platform) (response : Response) : ClientM StreamRenderer Bool :=
  match toMeasurement platform response with
  | some m => StreamRenderer.record m
  | none => pure false

/-- The modes that follow the measurements. -/
def Mode.streams : Mode → Bool
  | .metric _ | .monitor => true
  | _ => false

/-- The lines that carry measurements. -/
def linesFor (ms : List Measurement) : List ClientAnswer :=
  ms.map fun m => .line (.response (.fromMeasurement m))

theorem shrinks_renderResponse (response : Response) :
    Await.Shrinks (renderResponse platform response) := by
  unfold renderResponse
  split
  · refine Await.shrinks_bind (Await.shrinks_observe _) fun _ =>
      Await.shrinks_bind (Await.shrinks_modify _) fun _ => ?_
    exact Await.shrinks_bind Await.shrinks_get fun _ => Await.shrinks_pure _
  · exact Await.shrinks_pure _

/-- `Local.timestamp_opt` names one instant, the one the timestamp was taken of,
for every time a frame can carry. -/
def SingleValued (platform : Platform) (chrono : Chrono) : Prop :=
  ∀ naive t, chrono.localDatetime naive = some t → platform.timestampOpt t.timestamp = some t

/-- A measurement survives its way through the agent. -/
theorem toMeasurement_of_frame {chrono : Chrono} (h : SingleValued platform chrono)
    {frame : List UInt8} {m : Measurement} (hm : tryMeasurement chrono frame = some m) :
    toMeasurement platform (.fromMeasurement m) = some m := by
  simp only [tryMeasurement, readMeasure] at hm
  split at hm
  · cases hm
  · split at hm
    case h_1 => cases hm
    case h_2 timestamp htimestamp =>
      obtain ⟨naive, -, hlocal⟩ := Option.bind_eq_some_iff.mp htimestamp
      cases hm
      simp [toMeasurement, Response.fromMeasurement, h naive timestamp hlocal]

/-- A line that carries a measurement is rendered, and the request goes on until there
are enough. -/
theorem readResponses_measurement {m : Measurement} (tape : List ClientAnswer)
    (log : List ClientObs) (renderer : StreamRenderer)
    (hm : toMeasurement platform (.fromMeasurement m) = some m) :
    readResponses (renderResponse platform)
        ⟨.line (.response (.fromMeasurement m)) :: tape, log, renderer⟩ =
      if renderer.count.any fun n => decide (n ≤ renderer.samples + 1) then
        (some (.ok ()), ⟨tape, log ++ [.rendered m],
          { renderer with samples := renderer.samples + 1 }⟩)
      else readResponses (renderResponse platform) ⟨tape, log ++ [.rendered m],
        { renderer with samples := renderer.samples + 1 }⟩ := by
  have hcall : ∀ tape, renderResponse platform (.fromMeasurement m) ⟨tape, log, renderer⟩ =
      (some (renderer.count.any fun n => decide (n ≤ renderer.samples + 1)),
        ⟨tape, log ++ [.rendered m], { renderer with samples := renderer.samples + 1 }⟩) := by
    intro tape
    simp only [renderResponse, hm]
    rfl
  have hturn : readResponse (renderResponse platform)
      ⟨.line (.response (.fromMeasurement m)) :: tape, log, renderer⟩ =
      (some (if renderer.count.any fun n => decide (n ≤ renderer.samples + 1) then some (.ok ())
        else none), ⟨tape, log ++ [.rendered m],
          { renderer with samples := renderer.samples + 1 }⟩) := by
    simp only [Response.fromMeasurement] at hcall
    simp only [readResponse, bind, Await.await, ClientAnswer.asLine, Response.fromMeasurement,
      hcall]
    cases hlast : renderer.count.any fun n => decide (n ≤ renderer.samples + 1) <;> rfl
  rw [readResponses_eq _ shrinks_renderResponse]
  simp only [bind, hturn]
  split <;> rfl

/-- One more line: it is rendered, and the request goes on until there are enough. -/
theorem readResponses_cons {m : Measurement} (ms : List Measurement) (log : List ClientObs)
    (renderer : StreamRenderer)
    (hm : toMeasurement platform (.fromMeasurement m) = some m) :
    readResponses (renderResponse platform) ⟨linesFor (m :: ms), log, renderer⟩ =
      if renderer.count.any fun n => decide (n ≤ renderer.samples + 1) then
        (some (.ok ()), ⟨linesFor ms, log ++ [.rendered m],
          { renderer with samples := renderer.samples + 1 }⟩)
      else readResponses (renderResponse platform) ⟨linesFor ms, log ++ [.rendered m],
        { renderer with samples := renderer.samples + 1 }⟩ :=
  readResponses_measurement (linesFor ms) log renderer hm

/-- The lines are rendered one by one, and the request is over when there are
enough. -/
theorem readResponses_renders {ms : List Measurement} {pre : List Measurement}
    {log : List ClientObs} {renderer : StreamRenderer}
    (hms : ∀ m ∈ ms, toMeasurement platform (.fromMeasurement m) = some m)
    (h : Renders count pre log renderer) (hmore : ¬ Enough count pre.length) :
    ∃ r s, readResponses (renderResponse platform) ⟨linesFor ms, log, renderer⟩ = (r, s) ∧
      Renders count (pre ++ ms) s.log s.state ∧
      (r = some (.ok ()) ∧ Enough count (pre ++ ms).length ∨
        r = none ∧ s.tape = [] ∧ ¬ Enough count (pre ++ ms).length) := by
  induction ms generalizing pre log renderer with
  | nil =>
    refine ⟨none, ⟨[], log, renderer⟩, ?_, by simpa using h, .inr ⟨rfl, rfl, by simpa using hmore⟩⟩
    rw [readResponses_eq _ shrinks_renderResponse]
    rfl
  | cons m ms ih =>
    obtain ⟨hnext, hbreak⟩ := h.record hmore m
    rw [readResponses_cons ms log renderer (hms m (by simp)), List.append_cons pre m ms]
    by_cases henough : Enough count (pre ++ [m]).length
    · rw [if_pos (hbreak.mpr henough)]
      exact ⟨_, _, rfl, hnext.enough henough ms, .inl ⟨rfl, henough.mono (by simp)⟩⟩
    · rw [if_neg fun hb => henough (hbreak.mp hb)]
      exact ih (fun m' hm' => hms m' (by simp [hm'])) hnext henough

/-- What `runViaDaemon` renders of the lines that carry `ms`, and when it is over. -/
theorem runViaDaemon_renders {σ : Type} {mode : Mode} {cli : Cli} {paths : AgentPaths} {s : σ}
    (hmode : mode.streams = true) {ms : List Measurement}
    (hms : ∀ m ∈ ms, toMeasurement platform (.fromMeasurement m) = some m) :
    ∃ r t, runViaDaemon platform mode cli paths
        ⟨.connect (.ok ()) :: .write (.ok ()) :: linesFor ms, [], s⟩ = (r, t) ∧
      renderedIn t.log = sampled (cli.sampleCount mode) ms ∧
      (r = some (.ok ()) ↔ Enough (cli.sampleCount mode) ms.length) := by
  have hnone : ¬ Enough (cli.sampleCount mode) 0 := not_enough_zero _
  have hstart : Renders (cli.sampleCount mode) [] [.sent .subscribe] ⟨0, cli.sampleCount mode⟩ := by
    have hnil : sampled (cli.sampleCount mode) ([] : List Measurement) = [] :=
      sampled_of_not_enough hnone
    exact ⟨hnil.symm, by rw [hnil]; rfl⟩
  obtain ⟨r, t, hread, hrenders, hend⟩ := readResponses_renders hms hstart hnone
  have hrun : (runViaDaemon platform mode cli paths : ClientM σ _)
      ⟨.connect (.ok ()) :: .write (.ok ()) :: linesFor ms, [], s⟩ = (r, ⟨t.tape, t.log, s⟩) := by
    have hsubscribe : (runViaDaemon platform mode cli paths : ClientM σ _) =
        subscribeViaDaemon platform mode cli paths := by
      cases mode <;> first | rfl | cases hmode
    have hexecute : execute .subscribe paths (renderResponse platform)
        ⟨.connect (.ok ()) :: .write (.ok ()) :: linesFor ms, [], ⟨0, cli.sampleCount mode⟩⟩ =
          (r, t) := hread
    have hdeadline : untilDeadline (execute .subscribe paths (renderResponse platform))
        ⟨.connect (.ok ()) :: .write (.ok ()) :: linesFor ms, [], ⟨0, cli.sampleCount mode⟩⟩ =
          (r, t) := by
      simp only [untilDeadline, Await.timeout, bind, hexecute]
      obtain ⟨rfl, -⟩ | ⟨rfl, htape, -⟩ := hend
      · rfl
      · simp only [htape]
    have hwith : (subscribeViaDaemon platform mode cli paths : ClientM σ _) = (do
        let r ← Await.withState ⟨0, cli.sampleCount mode⟩
          (untilDeadline (execute .subscribe paths (renderResponse platform)))
        pure r.1) := rfl
    rw [hsubscribe, hwith]
    simp only [bind, Await.withState, hdeadline]
    cases r <;> rfl
  refine ⟨r, _, hrun, hrenders.log, ?_⟩
  obtain ⟨rfl, henough⟩ | ⟨rfl, -, hmore⟩ := hend
  · exact iff_of_true rfl henough
  · exact iff_of_false (by simp) hmore

end Relayed

/-! ## On a link of the invocation's own -/

/-- What the callback of a direct streaming run has captured: its renderer, and
what it has rendered. -/
structure Recording where
  log : List ClientObs
  renderer : StreamRenderer

namespace Recording

def new (mode : Mode) (cli : Cli) : Recording := ⟨[], ⟨0, cli.sampleCount mode⟩⟩

/-- The callback, `renderer.record`. -/
def record (m : Measurement) (recording : Recording) : Bool × Recording :=
  let r := StreamRenderer.record m ⟨[], recording.log, recording.renderer⟩
  (r.1.getD false, ⟨r.2.log, r.2.state⟩)

end Recording

/-- The measurements in the frames that a fresh assembler makes of these bytes. -/
def measurementsIn (chrono : Chrono) (bytes : List UInt8) : List Measurement :=
  (FrameAssembler.new.feed bytes).drain.1.filterMap (tryMeasurement chrono)

/-- An assembler that was fed these bytes and drained. -/
def residue (bytes : List UInt8) : FrameAssembler := (FrameAssembler.new.feed bytes).drain.2

theorem feed_residue (bytes value : List UInt8) :
    (FrameAssembler.new.feed (bytes ++ value)).drain =
      ((FrameAssembler.new.feed bytes).drain.1 ++ ((residue bytes).feed value).drain.1,
        ((residue bytes).feed value).drain.2) := by
  simp only [residue, FrameAssembler.drain_eq_scan, FrameAssembler.new, FrameAssembler.feed,
    List.nil_append]
  rw [FrameAssembler.frames.scan_append]

theorem residue_append (bytes value : List UInt8) :
    residue (bytes ++ value) = ((residue bytes).feed value).drain.2 := by
  rw [residue, feed_residue]

/-- More bytes, more measurements. -/
theorem measurementsIn_append (chrono : Chrono) (bytes value : List UInt8) :
    measurementsIn chrono (bytes ++ value) = measurementsIn chrono bytes ++
      ((residue bytes).feed value).drain.1.filterMap (tryMeasurement chrono) := by
  rw [measurementsIn, feed_residue, List.filterMap_append]
  rfl

theorem measurementsIn_mono {chrono : Chrono} {bytes bytes' : List UInt8}
    (h : bytes <+: bytes') : measurementsIn chrono bytes <+: measurementsIn chrono bytes' := by
  obtain ⟨value, rfl⟩ := h
  rw [measurementsIn_append]
  exact List.prefix_append _ _

theorem exists_frame {chrono : Chrono} {bytes : List UInt8} {m : Measurement}
    (h : m ∈ measurementsIn chrono bytes) : ∃ frame, tryMeasurement chrono frame = some m := by
  obtain ⟨frame, -, hm⟩ := List.mem_filterMap.mp h
  exact ⟨frame, hm⟩

namespace Direct

variable {chrono : Chrono} {count : Option Nat}

/-- The bytes an event brings for the assembler. -/
def Event.received : Event → List UInt8
  | .notification (some event) => if event.uuid = cRx then event.value else []
  | _ => []

/-- The frames of one value are offered one by one, until there are enough. -/
theorem wp_offer_renders {ms : List Measurement} {E : List Obs → Direct Recording → Prop}
    (frames : List (List UInt8)) {log : List Obs} {d : Direct Recording}
    (h : Renders count ms d.captured.log d.captured.renderer) (hmore : ¬ Enough count ms.length) :
    Await.wp (offer (onMeasurement chrono Recording.record) frames)
      (fun isBreak _ d' => d'.assembler = d.assembler ∧
        Renders count (ms ++ frames.filterMap (tryMeasurement chrono)) d'.captured.log
          d'.captured.renderer ∧
        (isBreak = true ↔ Enough count (ms ++ frames.filterMap (tryMeasurement chrono)).length))
      E log d := by
  induction frames generalizing ms log d with
  | nil => exact Await.wp_pure.mpr ⟨rfl, by simpa using h, by simpa using hmore⟩
  | cons frame frames ih =>
    refine Await.wp_bind (Await.wp_observe.mpr (Await.wp_bind (Await.wp_get.mpr (Await.wp_bind
      (Await.wp_modify.mpr ?_)))))
    cases hm : tryMeasurement chrono frame with
    | none =>
      simp only [onMeasurement, hm, List.filterMap_cons_none hm]
      exact ih h hmore
    | some m =>
      obtain ⟨hnext, hbreak⟩ := h.record hmore m
      simp only [onMeasurement, hm, List.filterMap_cons_some hm]
      rw [List.append_cons]
      split
      case isTrue hlast =>
        have henough := hbreak.mp hlast
        exact Await.wp_pure.mpr ⟨rfl, hnext.enough henough _,
          iff_of_true rfl (henough.mono (by simp))⟩
      case isFalse hlast => exact ih hnext fun henough => hlast (hbreak.mpr henough)

/-- A direct streaming run whose stream has brought these bytes. -/
structure HasRendered (chrono : Chrono) (count : Option Nat) (bytes : List UInt8)
    (s : Subscription Recording) : Prop where
  renders : Renders count (measurementsIn chrono bytes) s.direct.captured.log
    s.direct.captured.renderer
  running : s.progress = .running → s.direct.assembler = residue bytes ∧
    ¬ Enough count (measurementsIn chrono bytes).length
  returned : s.progress = .returned (.ok ()) → Enough count (measurementsIn chrono bytes).length

section

variable {bytes : List UInt8} {s t : Subscription Recording} {tape : List Answer}

/-- A part of the loop that the callback has no part in. -/
theorem HasRendered.of_wp {x : DirectM Recording (Option (Except String Unit))} {log : List Obs}
    {d : Direct Recording}
    (hrenders : Renders count (measurementsIn chrono bytes) d.captured.log d.captured.renderer)
    (hmore : ¬ Enough count (measurementsIn chrono bytes).length)
    (hx : Await.wp x (fun r _ d' => d'.captured = d.captured ∧ r ≠ some (.ok ()) ∧
      (r = none → d'.assembler = residue bytes)) (fun _ d' => d'.captured = d.captured) log d)
    (hafter : Subscription.after (x ⟨tape, log, d⟩) = some t) :
    HasRendered chrono count bytes t := by
  obtain ⟨hprogress, hcaptured, -, hasm⟩ | ⟨r, hprogress, hcaptured, hfailed, -⟩ |
    ⟨hprogress, hcaptured⟩ := after_of_wp hx hafter
  · exact ⟨hcaptured ▸ hrenders, fun _ => ⟨hasm rfl, hmore⟩, by simp [hprogress]⟩
  · refine ⟨hcaptured ▸ hrenders, by simp [hprogress], fun hok => absurd ?_ hfailed⟩
    rw [hprogress] at hok
    cases hok
    rfl
  · exact ⟨hcaptured ▸ hrenders, by simp [hprogress], by simp [hprogress]⟩

theorem hasRendered_start {conn : Connection} {mode : Mode} {cli : Cli}
    (h : Subscription.start conn (Recording.new mode cli) tape = some s) :
    HasRendered chrono (cli.sampleCount mode) [] s := by
  have hnil : measurementsIn chrono [] = [] := rfl
  have hmore : ¬ Enough (cli.sampleCount mode) (measurementsIn chrono []).length :=
    not_enough_zero _
  refine .of_wp ?_ hmore ?_ h
  · constructor
    · rw [sampled_of_not_enough hmore]
      rfl
    · rw [sampled_of_not_enough hmore]
      rfl
  · unfold opening
    exact Await.wp_bind (wp_adopt linkOnly_listen (fun _ _ _ => rfl)
      (fun _ _ _ _ => Await.wp_pure.mpr ⟨rfl, by simp, by simp⟩)
      fun _ _ _ _ => Await.wp_pure.mpr ⟨rfl, by simp, fun _ => rfl⟩)

/-- A value of the stream: its frames are offered to the renderer. -/
theorem hasRendered_value {event : ValueNotification} (h : HasRendered chrono count bytes s)
    (hrunning : s.progress = .running) (huuid : event.uuid = cRx)
    (hafter : Subscription.after (handleEvent monitoring (onMeasurement chrono Recording.record)
      (.notification (some event)) ⟨tape, s.log, s.direct⟩) = some t) :
    HasRendered chrono count (bytes ++ event.value) t := by
  obtain ⟨hasm, hmore⟩ := h.running hrunning
  have hwp : Await.wp (handleEvent monitoring (onMeasurement chrono Recording.record)
      (.notification (some event)))
      (fun r _ d' => Renders count (measurementsIn chrono (bytes ++ event.value)) d'.captured.log
          d'.captured.renderer ∧
        (r = none ∧ d'.assembler = residue (bytes ++ event.value) ∧
            ¬ Enough count (measurementsIn chrono (bytes ++ event.value)).length ∨
          r = some (.ok ()) ∧ Enough count (measurementsIn chrono (bytes ++ event.value)).length))
      (fun _ _ => False) s.log s.direct := by
    simp only [handleEvent, huuid, ne_eq, not_true_eq_false, if_false]
    refine Await.wp_bind (Await.wp_observe.mpr (Await.wp_bind (Await.wp_get.mpr (Await.wp_bind
      (Await.wp_modify.mpr (Await.wp_bind (Await.wp_mono (wp_offer_renders _ ?_ hmore) ?_
        fun _ _ h => h)))))))
    · exact h.renders
    · intro isBreak log' d' hoffer
      obtain ⟨hasm', hrenders, hbreak⟩ := hoffer
      rw [hasm, ← measurementsIn_append] at hrenders hbreak
      cases isBreak with
      | true => exact Await.wp_pure.mpr ⟨hrenders, .inr ⟨rfl, hbreak.mp rfl⟩⟩
      | false =>
        refine Await.wp_pure.mpr ⟨hrenders, .inl ⟨rfl, ?_, fun henough => ?_⟩⟩
        · rw [hasm', hasm, residue_append]
        · exact absurd (hbreak.mpr henough) (by simp)
  obtain ⟨hprogress, hrenders, hwent⟩ | ⟨r, hprogress, hrenders, hwent⟩ | ⟨-, hfalse⟩ :=
    after_of_wp hwp hafter
  · obtain ⟨-, hasm', hmore'⟩ | ⟨hnone, -⟩ := hwent
    · exact ⟨hrenders, fun _ => ⟨hasm', hmore'⟩, by simp [hprogress]⟩
    · cases hnone
  · obtain ⟨hsome, -⟩ | ⟨-, henough⟩ := hwent
    · cases hsome
    · exact ⟨hrenders, by simp [hprogress], fun _ => henough⟩
  · exact hfalse.elim

/-- One event more, while the stream lasts. -/
theorem hasRendered_step {event : Event} (h : HasRendered chrono count bytes s)
    (hlasts : event ≠ .notification none)
    (hstep : Subscription.stepMeasure chrono Recording.record s (event, tape) = some t) :
    HasRendered chrono count (bytes ++ event.received) t := by
  simp only [Subscription.stepMeasure, Subscription.step] at hstep
  split at hstep
  case isFalse => cases hstep
  case isTrue hrunning =>
    obtain ⟨hasm, hmore⟩ := h.running hrunning
    cases event with
    | tick =>
      show HasRendered chrono count (bytes ++ []) t
      rw [List.append_nil]
      exact .of_wp h.renders hmore (Await.wp_bind (wp_write (fun _ _ _ => rfl)
        (fun _ _ _ _ => Await.wp_pure.mpr ⟨rfl, by simp, by simp⟩)
        (fun _ _ _ => Await.wp_pure.mpr ⟨rfl, by simp, fun _ => hasm⟩)
        fun _ _ _ _ => Await.wp_pure.mpr ⟨rfl, by simp, fun _ => hasm⟩)) hstep
    | notification event =>
      cases event with
      | none => exact absurd rfl hlasts
      | some event =>
        by_cases huuid : event.uuid = cRx
        · simp only [Event.received, huuid, if_true]
          exact hasRendered_value h hrunning huuid hstep
        · simp only [Event.received, huuid, if_false, List.append_nil]
          refine .of_wp h.renders hmore ?_ hstep
          simp only [handleEvent, huuid, ne_eq, not_false_eq_true, if_true]
          exact Await.wp_pure.mpr ⟨rfl, by simp, fun _ => hasm⟩

end

/-- The bytes a run has received. -/
def received (labels : List (Event × List Answer)) : List UInt8 :=
  labels.flatMap fun label => label.1.received

/-- What a direct streaming run has rendered. -/
theorem hasRendered_run {conn : Connection} {mode : Mode} {cli : Cli} {tape : List Answer}
    {labels : List (Event × List Answer)} {s t : Subscription Recording}
    (hstart : Subscription.start conn (Recording.new mode cli) tape = some s)
    (hrun : Transition.run (Subscription.stepMeasure chrono Recording.record) s labels = some t)
    (hlasts : ∀ label ∈ labels, label.1 ≠ .notification none) :
    HasRendered chrono (cli.sampleCount mode) (received labels) t := by
  induction labels using List.reverseRecOn generalizing t with
  | nil =>
    cases hrun
    exact hasRendered_start hstart
  | append_singleton labels label ih =>
    obtain ⟨u, hrun', hstep⟩ := Transition.run_concat hrun
    have hu := ih hrun' fun label' hlabel' => hlasts label' (by simp [hlabel'])
    have ht := hasRendered_step hu (hlasts label (by simp)) hstep
    rwa [received, List.flatMap_append, List.flatMap_singleton]

end Direct

end Btwattch2
