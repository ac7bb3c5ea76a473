/-
Btwattch2.ReceivedTheorems — the assembler is given what the stream brings.

Every value of `C_RX` that the actor is handed, as an event or while it waits for a
reply, is fed to the assembler once and in order (`allFed_run`). The one that may be
lost is the value of an event whose handler never began, because shutdown was signalled.
-/
import Btwattch2.ActorConduct

namespace Btwattch2

open Lib

/-! ## Values of `C_RX` -/

/-- The value that an event brings. -/
def Event.heard : Event → List (List UInt8)
  | .notification (some n) => if n.uuid = cRx then [n.value] else []
  | _ => []

/-- The values that a run is handed, by its events and its answers. -/
def heardIn (labels : List (Event × List Answer)) : List (List UInt8) :=
  labels.flatMap fun label => label.1.heard ++ label.2.filterMap Answer.heard

/-- The values handed over so far are those that were fed, but for the last one if its
event was not handled any more. -/
def AllFed (labels : List (Event × List Answer)) (agent : Agent) : Prop :=
  ∃ lost, heardIn labels = agent.log.filterMap Obs.heard ++ lost ∧
    (lost = [] ∨ agent.running = false ∧
      ∃ n, labels.getLast? = some (.notification (some n), []) ∧ lost = [n.value])

theorem heardIn_append (labels labels' : List (Event × List Answer)) :
    heardIn (labels ++ labels') = heardIn labels ++ heardIn labels' := List.flatMap_append

theorem Answer.heard_eq_none {a : Answer} (h : a.asNext = none) : a.heard = none := by
  cases a with
  | next event => cases h
  | timeout => cases h
  | _ => rfl

/-! ## The operations of the actor -/

/-- `owed`, and then what the operation is told of the stream, is what it feeds. -/
abbrev Feeds {α : Type} (owed : List (List UInt8)) (x : ActorM α) : Prop :=
  Await.Echoes Answer.heard Obs.heard owed x

/-- Told of no value, and nothing fed. -/
abbrev Quiet {α : Type} (x : ActorM α) : Prop :=
  Await.Confined (fun a => a.heard = none) (fun o => o.heard = none) x

theorem Still.quiet {α : Type} {x : ActorM α} (h : Still x) : Quiet x :=
  h.mono (fun _ h => Answer.heard_eq_none h) fun _ h => h.2

theorem Still.feeds {α : Type} {x : ActorM α} (h : Still x) : Feeds [] x := h.quiet.echoes

section Zone

variable (chrono : Chrono)

theorem feeds_feedUntil (stop : List UInt8 → Bool) (taker : Taker) (value : List UInt8) :
    Feeds [value] (feedUntil chrono stop taker value) := by
  refine Await.echoes_bind (Await.echoes_observe (Obs.rx value)) fun _ => Still.feeds ?_
  refine Await.confined_bind Await.confined_get fun _ =>
    Await.confined_bind (Await.confined_modify _) fun _ => ?_
  exact Await.confined_bind (still_forwardAll chrono taker _) fun _ => Await.confined_pure _

/-- A value fed to the iterator, and what comes of it. -/
theorem feeds_fed {α : Type} {stop : List UInt8 → Bool} {taker : Taker} {value : List UInt8}
    {f : Option (List UInt8) → ActorM α} (hf : ∀ frame, Quiet (f frame)) :
    Feeds [value] (feedUntil chrono stop taker value >>= f) :=
  Await.echoes_bind (feeds_feedUntil chrono stop taker value) fun frame => (hf frame).echoes

theorem feeds_nextMatchingFrame (kind : FrameKind) : Feeds [] (nextMatchingFrame chrono kind) := by
  refine Await.echoes_loop (Await.echoes_bind still_meanwhile.feeds fun _ =>
    Await.echoes_awaitBind fun a event ha => ?_)
  cases a with
  | timeout =>
    cases ha
    exact Await.echoes_pure _
  | next event =>
    cases ha
    cases event with
    | none => exact Await.echoes_pure _
    | some n =>
      by_cases huuid : n.uuid = cRx
      · simp only [Answer.heard, huuid, if_true, ne_eq, not_true_eq_false, if_false]
        refine feeds_fed chrono fun frame => ?_
        cases frame with
        | none => exact Await.confined_pure _
        | some frame =>
          exact Await.confined_bind (Await.confined_observe rfl) fun _ => Await.confined_pure _
      · simp only [Answer.heard, huuid, if_false, ne_eq, not_false_eq_true, if_true]
        exact Await.echoes_pure _
  | _ => cases ha

theorem feeds_waitForFrame (kind : FrameKind) : Feeds [] (waitForFrame chrono kind) := by
  refine Await.echoes_bind (Await.confined_get).echoes fun a => ?_
  split
  · exact Await.echoes_pure _
  · refine Await.echoes_bind (Await.echoes_observe (Obs.awaiting kind)) fun _ =>
      Await.echoes_bind (feeds_nextMatchingFrame chrono kind) fun waited => ?_
    cases waited <;> exact Await.echoes_pure _

theorem feeds_writeAndWait (payload : List UInt8) (kind : FrameKind) :
    Feeds [] (writeAndWait chrono payload kind) := by
  refine Await.echoes_bind (still_onLink (Connection.still_write _)).feeds fun result => ?_
  obtain e | _ | _ := result
  · exact Await.echoes_pure _
  · exact feeds_waitForFrame chrono kind
  · refine Await.echoes_bind still_relisten.feeds fun result => ?_
    cases result with
    | error e => exact Await.echoes_pure _
    | ok _ => exact feeds_waitForFrame chrono kind

theorem feeds_oneshot (payload : List UInt8) (kind : FrameKind) :
    Feeds [] (oneshot chrono payload kind) := by
  refine Await.echoes_bind (Await.confined_get).echoes fun a => ?_
  split
  · exact feeds_writeAndWait chrono payload kind
  · refine Await.echoes_bind still_relisten.feeds fun result => ?_
    cases result with
    | error e => exact Await.echoes_pure _
    | ok _ =>
      exact Await.echoes_bind (feeds_writeAndWait chrono payload kind) fun _ =>
        Await.echoes_bind (still_setNotifications none).feeds fun _ => Await.echoes_pure _

theorem quiet_reply (tx : ClientId) (result : Except StreamError Response) :
    Quiet (reply tx result) :=
  Await.confined_bind (Await.confined_modify _) fun _ => Await.confined_observe rfl

theorem feeds_command (payload : List UInt8) (tx : ClientId) :
    Feeds [] (command chrono payload tx) :=
  Await.echoes_bind (feeds_oneshot chrono payload .command) fun _ => (quiet_reply tx _).echoes

theorem feeds_handleSubscribe (tx : ClientId) : Feeds [] (handleSubscribe tx) := by
  have hadd : Quiet (clientOp (.add tx)) :=
    Await.confined_bind (Await.confined_modify _) fun _ => Await.confined_observe rfl
  refine Await.echoes_bind (Await.confined_get).echoes fun a => ?_
  split
  · refine Await.echoes_bind still_relisten.feeds fun result => ?_
    cases result with
    | error e => exact (quiet_reply tx _).echoes
    | ok _ => exact hadd.echoes
  · exact hadd.echoes

theorem feeds_handle (cmd : ActorCommand) : Feeds [] (handle chrono cmd) := by
  obtain ⟨request, tx⟩ := cmd
  refine Await.echoes_bind (Await.echoes_observe (Obs.request tx request)) fun _ =>
    Await.echoes_bind (still_clientOp rfl).feeds fun _ => ?_
  cases request with
  | ping => exact Await.echoes_pure _
  | shutdown => exact Await.echoes_pure _
  | subscribe => exact feeds_handleSubscribe tx
  | getRtc =>
    exact Await.echoes_bind (Await.confined_get).echoes fun a =>
      Await.echoes_bind (feeds_oneshot chrono _ .measurement) fun _ => (quiet_reply tx _).echoes
  | power on => exact feeds_command chrono _ tx
  | testLed => exact feeds_command chrono _ tx
  | setRtc time =>
    dsimp only
    split
    · exact feeds_command chrono _ tx
    · exact (quiet_reply tx _).echoes

theorem feeds_handleNotification (event : Option ValueNotification) :
    Feeds (Event.notification event).heard (handleNotification chrono event) := by
  cases event with
  | none => exact (still_handleNotification_none chrono).feeds
  | some n =>
    unfold handleNotification
    by_cases huuid : n.uuid = cRx
    · simp only [Event.heard, huuid, if_true, ne_eq, not_true_eq_false, if_false]
      exact feeds_fed chrono fun _ => Await.confined_pure _
    · simp only [Event.heard, huuid, if_false, ne_eq, not_false_eq_true, if_true]
      exact Await.echoes_pure _

/-! ## Events and runs -/

/-- An event that is not handled at all was abandoned at once. -/
theorem meanwhile_abandoned {s t : Stage Answer Obs Actor} (h : meanwhile s = (none, t)) :
    t = s := by
  obtain ⟨tape, log, a⟩ := s
  cases tape with
  | nil => exact (congrArg Prod.snd h).symm
  | cons answer rest =>
    cases answer with
    | meanwhile acts elapsed => cases h
    | _ => exact (congrArg Prod.snd h).symm

/-- What an event brings, and what its handler is told, is fed, unless the handler never
began. -/
theorem feeds_handleEvent (event : Event) (s : Stage Answer Obs Actor) :
    Await.EchoesAt Answer.heard Obs.heard event.heard (handleEvent chrono event) s ∨
      handleEvent chrono event s = (none, s) := by
  cases h : meanwhile s with
  | mk r t =>
    cases r with
    | none =>
      obtain rfl := meanwhile_abandoned h
      refine .inr ?_
      simp only [handleEvent, bind, h]
    | some _ =>
      refine .inl (Await.Confined.defer still_meanwhile.quiet h ?_)
      match event with
      | .shutdown => exact Await.echoes_pure _ t
      | .command none => exact Await.echoes_pure _ t
      | .command (some cmd) =>
        exact Await.echoes_bind (feeds_handle chrono cmd) (fun _ => Await.echoes_pure _) t
      | .tick => exact Await.echoes_bind still_pollDevice.feeds (fun _ => Await.echoes_pure _) t
      | .notification n =>
        exact Await.echoes_bind (feeds_handleNotification chrono n)
          (fun _ => Await.echoes_pure _) t

variable {chrono}

/-- A step is a handler that takes its answers to the end, and the end of the loop if the
handler does not go on. -/
theorem step_cases {agent agent' : Agent} {event : Event} {tape : List Answer}
    (hstep : agent.step chrono (event, tape) = some agent') :
    agent.running = true ∧ ∃ r log a,
      handleEvent chrono event ⟨tape, agent.log, agent.actor⟩ = (r, ⟨[], log, a⟩) ∧
      agent'.log.filterMap Obs.heard = log.filterMap Obs.heard ∧
      (r = none → agent'.running = false) := by
  simp only [Agent.step] at hstep
  split at hstep
  case isFalse => cases hstep
  case isTrue hrun =>
    refine ⟨(Bool.and_eq_true_iff.mp hrun).1, ?_⟩
    split at hstep
    case h_1 log a heq =>
      cases hstep
      exact ⟨_, log, a, heq, rfl, by simp⟩
    case h_2 log a heq =>
      cases hstep
      exact ⟨_, log, a, heq, by simp [Agent.stop, Obs.heard], fun _ => rfl⟩
    case h_3 log a heq =>
      cases hstep
      exact ⟨_, log, a, heq, by simp [Agent.stop, Obs.heard], fun _ => rfl⟩
    case h_4 => cases hstep

theorem allFed_step {agent agent' : Agent} {label : Event × List Answer}
    {labels : List (Event × List Answer)} (h : AllFed labels agent)
    (hstep : agent.step chrono label = some agent') : AllFed (labels ++ [label]) agent' := by
  obtain ⟨event, tape⟩ := label
  obtain ⟨hrunning, r, log, a, hhandle, hlog, hstop⟩ := step_cases hstep
  obtain ⟨lost, hheard, hlost⟩ := h
  -- a loop that goes on has lost nothing
  obtain rfl : lost = [] := hlost.resolve_right fun hstopped => by
    rw [hrunning] at hstopped
    cases hstopped.1
  rw [List.append_nil] at hheard
  have hlabel : heardIn [(event, tape)] = event.heard ++ tape.filterMap Answer.heard := by
    simp [heardIn]
  unfold AllFed
  rw [heardIn_append, hheard, hlabel, hlog]
  rcases feeds_handleEvent chrono event ⟨tape, agent.log, agent.actor⟩ with hfeeds | hnone
  · obtain ⟨used, obs, htape, hobs, hnoted⟩ := hfeeds
    rw [hhandle] at htape hobs
    obtain rfl : tape = used := htape.trans (List.append_nil used)
    refine ⟨[], ?_, .inl rfl⟩
    obtain rfl : log = agent.log ++ obs := hobs
    rw [List.filterMap_append, hnoted, List.append_nil]
  · -- shutdown came before the handler did anything
    obtain ⟨rfl, hstage⟩ := Prod.ext_iff.mp (hhandle.symm.trans hnone)
    obtain ⟨rfl, rfl, -⟩ := Stage.mk.inj hstage
    refine ⟨event.heard, by simp, ?_⟩
    rcases hevent : event.heard with _ | ⟨value, rest⟩
    · exact .inl rfl
    · refine .inr ⟨hstop rfl, ?_⟩
      unfold Event.heard at hevent
      split at hevent
      case h_2 => cases hevent
      case h_1 n =>
        split at hevent
        · cases hevent
          exact ⟨n, by simp, rfl⟩
        · cases hevent

/-- **What the stream brings is what the assembler is given**, in every run. -/
theorem allFed_run {agent : Agent} (conn : Connection) (interval now : Nat)
    (metricsListen : Option String) (pollAlways : Bool) {labels : List (Event × List Answer)}
    (hrun : Transition.run (Agent.step chrono)
      (.start conn interval now metricsListen pollAlways) labels = some agent) :
    AllFed labels agent :=
  have hstart : AllFed [] (.start conn interval now metricsListen pollAlways) :=
    ⟨[], rfl, .inl rfl⟩
  Transition.run_history hstart (fun _ _ _ _ _ h (_ : True) hstep => allFed_step h hstep)
    labels agent (Transition.meets_of_forall (fun _ _ => trivial) _ _) hrun

end Zone

end Btwattch2
