/-
Btwattch2.StreamedTheorems — a streaming run from end to end.

The invocation writes its request, the agent reads it and writes what the channel of the
subscription brings, and the invocation reads that and renders it (`streamed_over_wire`).
-/
import Btwattch2.MainTheorems
import Btwattch2.RendererTheorems
import Btwattch2.RenderTheorems
import Btwattch2.ServerTheorems
import Btwattch2.WireTheorems

namespace Btwattch2

open Lib Wire

/-- How the channel of a subscription ends: it is closed, or its last message says why. -/
inductive Ending where
  | closed
  | streamEnd
  | error (message : String)
  deriving DecidableEq, Repr

namespace Ending

def response : Ending → Option Response
  | .closed => none
  | .streamEnd => some .streamEnd
  | .error message => some (.error message)

/-- What the invocation reports of a run that did not get its samples before. -/
def outcome (failure : Option String) : Ending → Except String Unit
  | .closed => .error (failure.getD "agent closed the connection before completing the response")
  | .streamEnd => .ok ()
  | .error message => .error message

end Ending

/-! ## The agent -/

/-- The answers to a handler whose channel brings these measurements and this end, and
whose client reads all of it. -/
def channelAnswers (ms : List Measurement) (ending : Ending) : List ServerAnswer :=
  (ms.flatMap fun m => [.recv (some (.fromMeasurement m)), .write true]) ++
    .recv ending.response :: ending.response.toList.map fun _ => .write true

theorem takes_relayResponse : Await.Takes relayResponse := by
  refine Await.takes_bind (Await.takes_await _) fun response => ?_
  cases response with
  | none => exact Await.shrinks_pure _
  | some response =>
    have hwrite : Await.Shrinks (writeMessage response) :=
      Await.shrinks_bind (Await.shrinks_await _) fun _ =>
        Await.shrinks_bind (Await.shrinks_observe _) fun _ => Await.shrinks_pure _
    refine Await.shrinks_bind hwrite fun ok => ?_
    split <;> exact Await.shrinks_pure _

/-- Everything the channel brings is written. -/
theorem linesOf_relayResponses (ms : List Measurement) (ending : Ending) (log : List ServerObs) :
    linesOf (relayResponses ⟨channelAnswers ms ending, log, ()⟩).2.log =
      linesOf log ++ (ms.map .fromMeasurement ++ ending.response.toList) := by
  induction ms generalizing log with
  | nil =>
    have hturn : relayResponse ⟨channelAnswers [] ending, log, ()⟩ =
        (some (some ()),
          ⟨[], log ++ ending.response.toList.map fun response => .wrote response true, ()⟩) := by
      cases ending with
      | closed =>
        rw [Ending.response, Option.toList_none, List.map_nil, List.append_nil]
        rfl
      | streamEnd => rfl
      | error message => rfl
    have hlines : linesOf (ending.response.toList.map fun response => .wrote response true) =
        ending.response.toList := by
      cases ending <;> rfl
    have hend : relayResponses ⟨channelAnswers [] ending, log, ()⟩ =
        (some (), ⟨[], log ++ ending.response.toList.map fun response => .wrote response true,
          ()⟩) := by
      rw [relayResponses, Await.loop_eq takes_relayResponse]
      simp only [bind, hturn]
      rfl
    rw [hend, linesOf_append, hlines]
    rfl
  | cons m ms ih =>
    have hturn : relayResponse ⟨channelAnswers (m :: ms) ending, log, ()⟩ =
        (some none, ⟨channelAnswers ms ending, log ++ [.wrote (.fromMeasurement m) true], ()⟩) :=
      rfl
    have hnext : relayResponses ⟨channelAnswers (m :: ms) ending, log, ()⟩ =
        relayResponses
          ⟨channelAnswers ms ending, log ++ [.wrote (.fromMeasurement m) true], ()⟩ := by
      rw [relayResponses, Await.loop_eq takes_relayResponse]
      simp only [bind, hturn]
      rfl
    rw [hnext, ih]
    simp [linesOf]

/-- A subscription is served with what its channel brings. -/
theorem linesOf_serveRequest (addr : BDAddr) (stats : AgentStats) (now : Nat)
    (ms : List Measurement) (ending : Ending) :
    linesOf (serveRequest addr .subscribe
      ⟨.actor false stats now :: .send true :: channelAnswers ms ending, [], ()⟩).2.log =
      ms.map .fromMeasurement ++ ending.response.toList := by
  have hserve : serveRequest addr .subscribe
      ⟨.actor false stats now :: .send true :: channelAnswers ms ending, [], ()⟩ =
        relayResponses ⟨channelAnswers ms ending, [.submitted .subscribe], ()⟩ := rfl
  rw [hserve, linesOf_relayResponses]
  rfl

/-! ## The invocation -/

section Invocation

variable {platform : Platform} {count : Option Nat}

/-- The lines of a stream that ended like this. -/
def closingLines (failure : Option String) (ending : Ending) : List ClientAnswer :=
  ending.response.toList.map (fun response => .line (.response response)) ++
    [.line (failure.elim .eof .failed)]

/-- The end of the stream is the end of the run. -/
theorem readResponses_ending (platform : Platform) (failure : Option String) (ending : Ending)
    (log : List ClientObs) (renderer : StreamRenderer) :
    ∃ tape, readResponses (renderResponse platform)
        ⟨closingLines failure ending, log, renderer⟩ =
      (some (ending.outcome failure), ⟨tape, log, renderer⟩) := by
  rw [readResponses_eq _ shrinks_renderResponse]
  cases ending with
  | closed => cases failure <;> exact ⟨_, rfl⟩
  | streamEnd => exact ⟨_, rfl⟩
  | error message => exact ⟨_, rfl⟩

/-- The lines are rendered one by one; the request is over when there are enough, else
when the stream ends. -/
theorem readResponses_streamed {ms pre : List Measurement} {log : List ClientObs}
    {renderer : StreamRenderer}
    (hms : ∀ m ∈ ms, toMeasurement platform (.fromMeasurement m) = some m)
    (h : Renders count pre log renderer) (hmore : ¬ Enough count pre.length)
    (failure : Option String) (ending : Ending) :
    ∃ s, readResponses (renderResponse platform)
        ⟨linesFor ms ++ closingLines failure ending, log, renderer⟩ =
      (some (if Enough count (pre ++ ms).length then .ok () else ending.outcome failure), s) ∧
      Renders count (pre ++ ms) s.log s.state := by
  induction ms generalizing pre log renderer with
  | nil =>
    obtain ⟨tape, hread⟩ := readResponses_ending platform failure ending log renderer
    refine ⟨⟨tape, log, renderer⟩, ?_, by simpa using h⟩
    rw [List.append_nil, if_neg hmore]
    exact hread
  | cons m ms ih =>
    obtain ⟨hnext, hbreak⟩ := h.record hmore m
    have hline := readResponses_measurement (linesFor ms ++ closingLines failure ending) log
      renderer (hms m List.mem_cons_self)
    rw [List.append_cons pre m ms]
    by_cases henough : Enough count (pre ++ [m]).length
    · rw [if_pos (hbreak.mpr henough)] at hline
      rw [if_pos (henough.mono (by simp))]
      exact ⟨_, hline, hnext.enough henough ms⟩
    · rw [if_neg fun hlast => henough (hbreak.mp hlast)] at hline
      obtain ⟨s, hread, hrenders⟩ :=
        ih (fun m' hm' => hms m' (List.mem_cons_of_mem _ hm')) hnext henough
      exact ⟨s, hline.trans hread, hrenders⟩

/-- A streaming run is its request. -/
theorem runViaDaemon_streams {σ : Type} {mode : Mode} {cli : Cli} {paths : AgentPaths} {st : σ}
    (hmode : mode.streams = true) {tape : List ClientAnswer} {r : Except String Unit}
    {s : Stage ClientAnswer ClientObs StreamRenderer}
    (h : readResponses (renderResponse platform)
      ⟨tape, [.sent .subscribe], ⟨0, cli.sampleCount mode⟩⟩ = (some r, s)) :
    runViaDaemon platform mode cli paths
      ⟨.connect (.ok ()) :: .write (.ok ()) :: tape, [], st⟩ = (some r, ⟨s.tape, s.log, st⟩) := by
  have hsubscribe : (runViaDaemon platform mode cli paths : ClientM σ _) =
      subscribeViaDaemon platform mode cli paths := by
    cases mode <;> first | rfl | cases hmode
  have hexecute : execute .subscribe paths (renderResponse platform)
      ⟨.connect (.ok ()) :: .write (.ok ()) :: tape, [], ⟨0, cli.sampleCount mode⟩⟩ =
        (some r, s) := h
  have hwith : (subscribeViaDaemon platform mode cli paths : ClientM σ _) = (do
      let r ← Await.withState ⟨0, cli.sampleCount mode⟩
        (untilDeadline (execute .subscribe paths (renderResponse platform)))
      pure r.1) := rfl
  rw [hsubscribe, hwith]
  simp only [bind, Await.withState, untilDeadline, Await.timeout, hexecute]
  rfl

end Invocation

/-! ## From end to end -/

/-- A measurement the device has sent in some frame; the timestamp of its instant has 64
bits. -/
structure Measurement.Sent (chrono : Chrono) (m : Measurement) : Prop where
  sent : ∃ frame, tryMeasurement chrono frame = some m
  fits : -2 ^ 63 ≤ m.timestamp.timestamp ∧ m.timestamp.timestamp < 2 ^ 63

theorem Measurement.Sent.isFloat {chrono : Chrono} {m : Measurement} (h : m.Sent chrono) :
    ∀ x ∈ (Response.fromMeasurement m).floats, F64.IsFloat x := by
  obtain ⟨frame, hm⟩ := h.sent
  unfold tryMeasurement at hm
  cases hread : readMeasure chrono frame with
  | error e => simp [hread, Except.toOption] at hm
  | ok reading =>
    simp only [hread, Except.toOption, Option.some.injEq] at hm
    obtain ⟨hvoltage, hampere, hwattage, hfactor⟩ := hm ▸ isFloat_of_readMeasure hread
    simp only [Response.fromMeasurement, Response.floats, List.forall_mem_cons, List.not_mem_nil,
      false_imp_iff, implies_true, and_true]
    exact ⟨hvoltage, hampere, hwattage, hfactor⟩

/-- Other floats in the same places. -/
def Measurement.mapFloats (f : ℚ → ℚ) (m : Measurement) : Measurement :=
  { m with
    voltage := f m.voltage
    ampere := f m.ampere
    wattage := f m.wattage
    powerFactor := f m.powerFactor }

/-- The floats make no difference to whether a measurement is rendered. -/
theorem toMeasurement_mapFloats {platform : Platform} {m : Measurement} (f : ℚ → ℚ)
    (h : toMeasurement platform (.fromMeasurement m) = some m) :
    toMeasurement platform (.fromMeasurement (m.mapFloats f)) = some (m.mapFloats f) := by
  simp only [toMeasurement, Response.fromMeasurement, Option.map_eq_some_iff] at h ⊢
  obtain ⟨t, ht, htimestamp⟩ := h
  exact ⟨t, ht, congrArg (Measurement.mapFloats f) htimestamp⟩

/-- **Streaming through the agent, byte for byte**: the agent reads the request out of
the bytes of the invocation, and the invocation renders of the bytes of the agent, in
whatever pieces either arrives, the measurements that the channel of its subscription
brought, as many as were asked for, each float as the codec reads its own text. With
fewer it reports how the channel ended. -/
theorem streamed_over_wire {σ ε : Type} {platform : Platform} {chrono : Chrono}
    {codec : Json.FloatCodec ℚ} {f : ℚ → ℚ} (complaint : String → String) (addr : BDAddr)
    (stats : AgentStats) (now : Nat) {mode : Mode} (hmode : mode.streams = true) (cli : Cli)
    (paths : AgentPaths) (st : σ) (hsingle : SingleValued platform chrono)
    {ms : List Measurement} (hms : ∀ m ∈ ms, m.Sent chrono)
    (hcodec : ∀ m ∈ ms, ∀ x ∈ (Response.fromMeasurement m).floats,
      codec.read (codec.write x) = some (f x)) (ending : Ending)
    (atAgent : Source UInt8 ε) (rest : List UInt8)
    (hagent : atAgent.contents = messageBytes codec (encodeRequest .subscribe) ++ rest)
    (atClient : Source UInt8 String)
    (hclient : atClient.contents =
      (linesOf (handleClient (parseRequest codec complaint) addr
        ⟨.line (nextLine atAgent) :: .actor false stats now :: .send true ::
          channelAnswers ms ending, [], ()⟩).2.log).flatMap
            fun r => messageBytes codec (encodeResponse r)) :
    ∃ s, runViaDaemon platform mode cli paths ⟨.connect (.ok ()) :: .write (.ok ()) ::
        (clientLines codec atClient).map .line, [], st⟩ =
      (some (if Enough (cli.sampleCount mode) ms.length then .ok ()
        else ending.outcome atClient.failure), s) ∧
      renderedIn s.log = sampled (cli.sampleCount mode) (ms.map (Measurement.mapFloats f)) := by
  rw [handleClient_message .subscribe complaint addr hagent, linesOf_serveRequest] at hclient
  have hround : ∀ m ∈ ms.map (Measurement.mapFloats f),
      toMeasurement platform (.fromMeasurement m) = some m := by
    intro m hm
    obtain ⟨sent, hsent, rfl⟩ := List.mem_map.mp hm
    obtain ⟨frame, hframe⟩ := (hms sent hsent).sent
    exact toMeasurement_mapFloats f (toMeasurement_of_frame hsingle hframe)
  have hrange : ∀ r ∈ ms.map Response.fromMeasurement ++ ending.response.toList, r.InRange := by
    intro r hr
    rcases List.mem_append.mp hr with hr | hr
    · obtain ⟨m, hm, rfl⟩ := List.mem_map.mp hr
      exact (hms m hm).fits
    · cases ending <;> simp_all [Ending.response, Response.InRange]
  have hfloats : ∀ r ∈ ms.map Response.fromMeasurement ++ ending.response.toList,
      ∀ x ∈ r.floats, codec.read (codec.write x) = some (f x) := by
    intro r hr x hx
    rcases List.mem_append.mp hr with hr | hr
    · obtain ⟨m, hm, rfl⟩ := List.mem_map.mp hr
      exact hcodec m hm x hx
    · cases ending <;> simp_all [Ending.response, Response.floats]
  have hlines : (clientLines codec atClient).map ClientAnswer.line =
      linesFor (ms.map (Measurement.mapFloats f)) ++ closingLines atClient.failure ending := by
    rw [clientLines_written _ hrange hfloats hclient, linesFor, closingLines]
    cases ending <;>
      simp [Ending.response, Response.mapFloats, Response.fromMeasurement, Measurement.mapFloats]
  have hnone : ¬ Enough (cli.sampleCount mode) 0 := not_enough_zero _
  have hstart : Renders (cli.sampleCount mode) [] [.sent .subscribe] ⟨0, cli.sampleCount mode⟩ := by
    have hnil : sampled (cli.sampleCount mode) ([] : List Measurement) = [] :=
      sampled_of_not_enough hnone
    exact ⟨hnil.symm, by rw [hnil]; rfl⟩
  obtain ⟨s, hread, hrenders⟩ := readResponses_streamed hround hstart hnone atClient.failure ending
  rw [hlines]
  rw [List.nil_append, List.length_map] at hread
  exact ⟨_, runViaDaemon_streams hmode hread, hrenders.log⟩

/-- Two samples are asked for, and the agent shuts down after the first. -/
theorem streamed_over_wire_load :
    let atAgent : Source UInt8 String :=
      ⟨[], [messageBytes F64.codec (encodeRequest .subscribe)], none⟩
    let written := (linesOf (handleClient (parseRequest F64.codec id) heldAddr
      ⟨.line (nextLine atAgent) :: .actor false (.new 0 nanosPerSec none) 5 :: .send true ::
        channelAnswers [Output.load] .streamEnd, [], ()⟩).2.log).flatMap
          fun r => messageBytes F64.codec (encodeResponse r)
    ∃ s, runViaDaemon bench .monitor { count := some 2 } ⟨"a.sock"⟩
        ⟨.connect (.ok ()) :: .write (.ok ()) ::
          (clientLines F64.codec ⟨[], [written.take 30, written.drop 30], none⟩).map .line,
            [], ()⟩ = (some (.ok ()), s) ∧
      renderedIn s.log = [Output.load] := by
  intro atAgent written
  have hsingle : SingleValued bench (.utc .error) := by
    intro naive t ht
    cases ht
    rfl
  have hsent : ∀ m ∈ [Output.load], m.Sent (.utc .error) := by
    intro m hm
    rw [List.mem_singleton.mp hm]
    refine ⟨⟨Output.loadFrame, ?_⟩, by decide⟩
    rw [tryMeasurement, Output.readMeasure_loadFrame]
    rfl
  have hread : ∀ m ∈ [Output.load], ∀ x ∈ (Response.fromMeasurement m).floats,
      F64.codec.read (F64.codec.write x) = some (id x) := by
    have hrange : ∀ x ∈ (Response.fromMeasurement Output.load).floats, x < 2 ^ 1024 := by
      decide +kernel
    intro m hm x hx
    exact F64.read_write ((hsent m hm).isFloat x hx) (hrange x (List.mem_singleton.mp hm ▸ hx))
  exact @streamed_over_wire Unit String bench (.utc .error) F64.codec id id heldAddr
    (.new 0 nanosPerSec none) 5 .monitor rfl { count := some 2 } ⟨"a.sock"⟩ () hsingle
    [Output.load] hsent hread .streamEnd atAgent []
    (by simp [atAgent, Source.contents]) ⟨[], [written.take 30, written.drop 30], none⟩
    (by simp [Source.contents, written])

end Btwattch2
