/-
Btwattch2.LifecycleTheorems — the agent as a whole is orderly, and a stop gets through.

What each kind of task can do is said once (`RunDoes`, `ActorDoes`, `ClientDoes`), and
`Orderly` is kept by each of them, however they come between each other. From it: what
holds at every moment (`lifecycle_orderly`), and that a stop that was asked for is not
lost and waits for no client and no device (`stop_getsThrough`).
-/
import Btwattch2.Lib.Progress
import Btwattch2.Lifecycle

namespace Btwattch2.Lifecycle

open Lib

variable {metricsListen : Bool} {options : Options} {w w' : Process}

/-! ## What the tasks can do -/

/-- It ended between the claim of the pid file and the guard for it. -/
def Outcome.isUnguarded : Outcome → Bool
  | .answered | .panickedUnguarded => true
  | _ => false

/-- What an event of `run` does. -/
inductive RunDoes (w : Process) : Process → Prop
  | registers {handled : SignalKind → Bool} (hw : w.stage = .start) :
      RunDoes w { w.goto .registered with handled }
  | claims (hw : w.stage = .registered) :
      RunDoes w { w.goto .claimed with socket := true, pid := true }
  /-- `take_over` fails, and what it made stays where no guard is there yet. -/
  | refused {outcome : Outcome} {pid : Bool} (hw : w.stage = .registered)
      (hpid : pid = true → w.pid = true ∨ outcome.isUnguarded)
      (houtcome : outcome = .failed ∨ outcome.isUnguarded) :
      RunDoes w { w.goto (.gone outcome) with pid }
  | binds (hw : w.stage = .claimed) : RunDoes w (w.goto .connecting)
  | serves {metrics : Bool} (hw : w.stage = .connecting) :
      RunDoes w { w.goto .serving with metrics, actor := .idle }
  | fails {socket pid : Bool}
      (hw : w.stage = .registered ∨ w.stage = .claimed ∨ w.stage = .connecting) :
      RunDoes w { w.goto (.dropping .failed) with socket, pid }
  | stopsConnecting {kind : SignalKind} (hw : w.stage = .connecting) (hkind : w.pending kind) :
      RunDoes w { w.goto (.dropping .stopped) with
        pending := Function.update w.pending kind false }
  | stopsServing {pending : SignalKind → Bool} {shutdown : Bool} (hw : w.stage = .serving)
      (hheard : (∃ kind, w.pending kind) ∨ w.shutdown) :
      RunDoes w { w.stopServing with pending, shutdown }
  | seesActor {outcome : Outcome} (hw : w.stage = .serving)
      (hactor : w.actor = .panicked ∧ outcome = .actorFailed ∨
        w.actor = .ended ∧ outcome = .actorStopped) : RunDoes w (w.goto (.dropping outcome))
  | joins (hw : w.stage = .joining) (hover : w.actor.isOver) :
      RunDoes w { w.goto (.dropping .stopped) with metrics := false }
  | drops {outcome : Outcome} {socket pid : Bool} (hw : w.stage = .dropping outcome) :
      RunDoes w ((w.removeFiles socket pid).goto (.gone outcome))
  | panics {socket pid : Bool} (hw : w.stage.isGone = false) :
      RunDoes w ((w.removeFiles socket pid).goto (.gone .panicked))

theorem onRun_does {event : RunEvent} (h : w.onRun metricsListen event = some w') :
    RunDoes w w' := by
  cases event with
  | register interrupt terminate =>
    simp only [Process.onRun] at h
    split at h
    case h_1 hstage =>
      cases h
      exact .registers hstage
    case h_2 => cases h
  | takeOver result =>
    simp only [Process.onRun] at h
    split at h
    case h_1 hstage =>
      cases h
      exact .claims hstage
    case h_2 hstage =>
      cases h
      exact .refused hstage (fun hpid => .inl hpid) (.inl rfl)
    case h_3 hstage =>
      cases h
      exact .refused hstage (fun _ => .inr rfl) (.inr rfl)
    case h_4 hstage =>
      cases h
      exact .fails (.inl hstage)
    case h_5 => cases h
  | bindMetrics ok =>
    simp only [Process.onRun] at h
    split at h
    case h_1 hstage =>
      cases h
      split
      · exact .binds hstage
      · exact .fails (.inr (.inl hstage))
    case h_2 => cases h
  | connect ok =>
    simp only [Process.onRun] at h
    split at h
    case h_1 hstage =>
      cases h
      split
      · exact .serves hstage
      · exact .fails (.inr (.inr hstage))
    case h_2 => cases h
  | stopSignal kind =>
    simp only [Process.onRun] at h
    split at h
    case isTrue hkind =>
      split at h
      case h_1 hstage =>
        cases h
        exact .stopsConnecting hstage hkind
      case h_2 hstage =>
        cases h
        exact .stopsServing hstage (.inl ⟨kind, hkind⟩)
      case h_3 => cases h
    case isFalse => cases h
  | stopNotified =>
    simp only [Process.onRun] at h
    split at h
    case h_1 hstage hshutdown =>
      cases h
      exact .stopsServing hstage (.inr hshutdown)
    case h_2 => cases h
  | actorSeen =>
    simp only [Process.onRun] at h
    split at h
    case h_1 hstage hactor =>
      cases h
      exact .seesActor hstage (.inl ⟨hactor, rfl⟩)
    case h_2 hstage hactor =>
      cases h
      exact .seesActor hstage (.inr ⟨hactor, rfl⟩)
    case h_3 => cases h
  | joined =>
    simp only [Process.onRun] at h
    split at h
    case h_1 hstage =>
      split at h
      case isTrue hover =>
        cases h
        exact .joins hstage hover
      case isFalse => cases h
    case h_2 => cases h
  | drop socket pid =>
    simp only [Process.onRun] at h
    split at h
    case h_1 outcome hstage =>
      cases h
      exact .drops hstage
    case h_2 => cases h
  | panic socket pid =>
    simp only [Process.onRun] at h
    split at h
    case h_1 => cases h
    case h_2 => cases h
    case h_3 hgone =>
      cases h
      refine .panics ?_
      cases hstage : w.stage with
      | gone outcome => exact absurd hstage (hgone outcome)
      | _ => rfl
  | panicUnguarded =>
    simp only [Process.onRun] at h
    split at h
    case h_1 hstage =>
      cases h
      exact .refused hstage (fun _ => .inr rfl) (.inr rfl)
    case h_2 => cases h

/-- What an event of the actor's task does. -/
inductive ActorDoes (w : Process) : Process → Prop
  /-- It takes something up, or is done with it. -/
  | works {actor : ActorTask} {queue : List Client} (hw : w.actor = .idle ∨ w.actor = .working)
      (hactor : actor = .idle ∨ actor = .working) : ActorDoes w { w with actor, queue }
  | told (hw : w.actor = .idle ∨ w.actor = .working) (hpermit : w.actorShutdown = true) :
      ActorDoes w { w with actor := .ending, actorShutdown := false }
  | left (hw : w.actor = .idle) (hsender : w.hasSender = false) :
      ActorDoes w { w with actor := .ending }
  | ends (hw : w.actor = .ending) : ActorDoes w { w with actor := .ended, queue := [] }
  | panics (hw : w.actor.isLive) : ActorDoes w { w with actor := .panicked, queue := [] }

theorem onActor_does {event : ActorEvent} (h : w.onActor event = some w') : ActorDoes w w' := by
  cases event with
  | command =>
    simp only [Process.onActor] at h
    split at h
    case h_1 _ _ hactor _ =>
      cases h
      exact .works (.inl hactor) (.inr rfl)
    case h_2 => cases h
  | closed =>
    simp only [Process.onActor] at h
    split at h
    case h_1 hactor _ =>
      split at h
      case isTrue => cases h
      case isFalse hsender =>
        cases h
        exact .left hactor (by simpa using hsender)
    case h_2 => cases h
  | tick =>
    simp only [Process.onActor] at h
    split at h
    case h_1 hactor =>
      cases h
      exact .works (.inl hactor) (.inr rfl)
    case h_2 => cases h
  | notification =>
    simp only [Process.onActor] at h
    split at h
    case h_1 hactor =>
      cases h
      exact .works (.inl hactor) (.inr rfl)
    case h_2 => cases h
  | finished =>
    simp only [Process.onActor] at h
    split at h
    case h_1 hactor =>
      cases h
      exact .works (.inr hactor) (.inl rfl)
    case h_2 => cases h
  | notified =>
    simp only [Process.onActor] at h
    split at h
    case h_1 hactor hpermit =>
      cases h
      exact .told (.inl hactor) hpermit
    case h_2 hactor hpermit =>
      cases h
      exact .told (.inr hactor) hpermit
    case h_3 => cases h
  | disconnected =>
    simp only [Process.onActor] at h
    split at h
    case h_1 hactor =>
      cases h
      exact .ends hactor
    case h_2 => cases h
  | panic =>
    simp only [Process.onActor] at h
    split at h
    case isTrue hlive =>
      cases h
      exact .panics hlive
    case isFalse => cases h

/-- An answer that says there is no agent any more. -/
def isFarewell (response : Response) : Prop :=
  response = .error "agent actor is not running" ∨ response = .error "agent shutting down"

/-- What an event of a client's handler does. -/
inductive ClientDoes (w : Process) (c : Client) : Process → Prop
  | accepted (hstage : w.stage = .serving) :
      ClientDoes w c { w.setHandler c .reading with accepted := w.accepted + 1 }
  | goes {handler : Handler} (hw : w.handlers c ≠ .absent)
      (hhandler : ∀ request response, handler ≠ .writing request response) :
      ClientDoes w c (w.setHandler c handler)
  | sends (hw : w.handlers c ≠ .absent) :
      ClientDoes w c { w.setHandler c .relaying with queue := w.queue ++ [c] }
  | answers {request : Request} {response : Response} (hw : w.handlers c ≠ .absent)
      (hover : isFarewell response → w.actor.isOver) :
      ClientDoes w c (w.setHandler c (.writing request response))
  | tells {request : Request} {response : Response}
      (hw : w.handlers c = .writing request response) : ClientDoes w c { w.setHandler c .done with
        told := w.told ++ [(c, response)]
        shutdown := w.shutdown || request == .shutdown
        asked := w.asked || request == .shutdown }

/-- A handler says of its own that there is no agent only when the actor is over. -/
theorem isOver_of_controlResponse {request : Request} {gone : Bool} {info : AgentInfo}
    {now : Nat} {response : Response} (h : controlResponse request gone info now = some response)
    (hfarewell : isFarewell response) : gone = true := by
  cases request with
  | ping =>
    cases gone with
    | true => rfl
    | false =>
      simp only [controlResponse] at h
      cases h
      rcases hfarewell with hr | hr <;> cases hr
  | shutdown =>
    cases h
    rcases hfarewell with hr | hr <;> cases hr
  | _ => cases h

theorem onClient_does {c : Client} {event : ClientEvent} (h : w.onClient c event = some w') :
    ClientDoes w c w' := by
  cases event with
  | accept =>
    simp only [Process.onClient] at h
    split at h
    case isTrue hserving =>
      cases h
      exact .accepted hserving.1
    case isFalse => cases h
  | read request =>
    simp only [Process.onClient] at h
    split at h
    case h_1 hreading =>
      cases h
      cases request with
      | none => exact .goes (by simp [hreading]) fun _ _ heq => by cases heq
      | some request => exact .goes (by simp [hreading]) fun _ _ heq => by cases heq
    case h_2 => cases h
  | answer info now =>
    simp only [Process.onClient] at h
    split at h
    case h_1 request hasked =>
      split at h
      case h_1 response hresponse =>
        cases h
        exact .answers (by simp [hasked]) (isOver_of_controlResponse hresponse)
      case h_2 =>
        split at h
        case isTrue hover =>
          cases h
          exact .answers (by simp [hasked]) fun _ => hover
        case isFalse =>
          cases h
          exact .sends (by simp [hasked])
    case h_2 => cases h
  | wrote ok =>
    simp only [Process.onClient] at h
    split at h
    case h_1 request response hwriting =>
      split at h
      case isTrue =>
        cases h
        exact .tells hwriting
      case isFalse =>
        cases h
        exact .goes (by simp [hwriting]) fun _ _ heq => by cases heq
    case h_2 => cases h
  | relayed =>
    simp only [Process.onClient] at h
    split at h
    case h_1 hrelaying =>
      cases h
      exact .goes (by simp [hrelaying]) fun _ _ heq => by cases heq
    case h_2 => cases h
  | panic =>
    simp only [Process.onClient] at h
    split at h
    case isTrue hlive =>
      cases h
      have hw : w.handlers c ≠ .absent := by
        intro habsent
        simp [habsent, Handler.isLive] at hlive
      exact .goes hw fun _ _ heq => by cases heq
    case isFalse => cases h

/-! ## The invariant -/

/-- What is left of the files: none, unless the process died, a file could not be
removed, or there was no guard yet for the pid file. -/
def Process.Cleaned (w : Process) (outcome : Outcome) : Prop :=
  outcome = .killed ∨ outcome = .aborted ∨
    (w.socket → w.unremoved) ∧ (w.pid → w.unremoved ∨ outcome.isUnguarded)

theorem cleaned_removeFiles (socket pid : Bool) (stage : Stage) (outcome : Outcome) :
    ((w.removeFiles socket pid).goto stage).Cleaned outcome := by
  refine .inr (.inr ⟨fun hsocket => ?_, fun hpid => .inl ?_⟩)
  · exact (Bool.or_eq_true _ _).mpr (.inl hsocket)
  · exact (Bool.or_eq_true _ _).mpr (.inr hpid)

structure Orderly (w : Process) : Prop where
  /-- Nothing is shared before the agent serves. -/
  early : w.stage.isEarly → w.actor = .absent ∧ w.actorShutdown = false ∧ w.shutdown = false ∧
    w.metrics = false ∧ w.told = [] ∧ ∀ c, w.handlers c = .absent
  /-- The actor's task is there from when the agent serves until it is waited for. -/
  live : w.stage.isGone = false → w.actor.isLive → w.stage = .serving ∨ w.stage = .joining
  serving : w.stage = .serving → w.actor ≠ .absent ∧ w.actor ≠ .ending ∧ w.actor ≠ .ended ∧
    w.actorShutdown = false
  joining : w.stage = .joining → w.asked ∧ w.actor ≠ .absent ∧
    (w.actor = .idle ∨ w.actor = .working → w.actorShutdown)
  ended : w.actor = .ending ∨ w.actor = .ended → w.asked
  /-- What asks for a stop is there until the stop is made. -/
  kept : w.asked → w.stage.isEarly ∨ w.stage = .serving → (∃ kind, w.pending kind) ∨ w.shutdown
  heard : (∃ kind, w.pending kind) ∨ w.shutdown → w.asked
  outcome : ∀ outcome, w.stage = .dropping outcome ∨ w.stage = .gone outcome →
    outcome ≠ .actorStopped ∧ (outcome = .stopped → w.asked) ∧
      (outcome = .actorFailed → w.actor = .panicked)
  bare : w.stage = .start ∨ w.stage = .registered → w.socket = false ∧ w.pid = false
  files : w.stage = .claimed ∨ w.stage = .connecting ∨ w.stage = .serving ∨ w.stage = .joining →
    w.socket ∧ w.pid
  cleaned : ∀ outcome, w.stage = .gone outcome → w.Cleaned outcome
  farewell : ∀ c response, (∃ request, w.handlers c = .writing request response) ∨
    (c, response) ∈ w.told → isFarewell response → w.asked ∨ w.actor = .panicked

theorem orderly_init : Orderly Process.init := by
  constructor <;> simp [Process.init, Stage.isEarly, ActorTask.isLive]

/-- There is an actor only once the agent serves. -/
theorem Orderly.not_early (h : Orderly w) (hactor : w.actor ≠ .absent) :
    ¬w.stage.isEarly = true := fun hearly => hactor (h.early hearly).1

theorem Orderly.asked_of_over (h : Orderly w) (hover : w.actor.isOver = true) :
    w.asked ∨ w.actor = .panicked := by
  cases hactor : w.actor with
  | ended => exact .inl (h.ended (.inr hactor))
  | panicked => exact .inr rfl
  | _ => simp [hactor, ActorTask.isOver] at hover

/-! ## What the actor keeps -/

/-- What the actor does to its own part of the state. -/
theorem Orderly.of_actor {actor : ActorTask} {queue : List Client} {permit : Bool}
    (h : Orderly w) (hw : w.actor ≠ .absent) (hactor : actor ≠ .absent)
    (hover : w.actor = .panicked → actor = .panicked)
    (hlive : w.stage.isGone = false → actor.isLive → w.stage = .serving ∨ w.stage = .joining)
    (hending : actor = .ending ∨ actor = .ended → w.asked ∧ w.stage ≠ .serving)
    (hpermit : permit = true → w.actorShutdown = true)
    (htold : w.stage = .joining → actor = .idle ∨ actor = .working → permit = true) :
    Orderly { w with actor, queue, actorShutdown := permit } where
  early hearly := absurd hearly (h.not_early hw)
  live := hlive
  serving hstage := by grind [h.serving hstage]
  joining hstage := ⟨(h.joining hstage).1, hactor, htold hstage⟩
  ended hend := (hending hend).1
  kept := h.kept
  heard := h.heard
  outcome outcome hstage := by
    obtain ⟨hout, hstopped, hfailed⟩ := h.outcome outcome hstage
    exact ⟨hout, hstopped, fun ho => hover (hfailed ho)⟩
  bare := h.bare
  files := h.files
  cleaned := h.cleaned
  farewell c response htold hfarewell := (h.farewell c response htold hfarewell).imp_right hover

theorem orderly_actor (h : Orderly w) (hgone : w.stage.isGone = false)
    (hdoes : ActorDoes w w') : Orderly w' := by
  cases hdoes with
  | works hw hactor =>
    have hlive : w.actor.isLive := by rcases hw with hw | hw <;> simp [hw, ActorTask.isLive]
    exact h.of_actor (by grind) (by grind) (by grind) (fun _ _ => h.live hgone hlive) (by grind) id
      fun hstage _ => (h.joining hstage).2.2 hw
  | told hw hpermit =>
    -- the permit is there only when the accept loop has returned
    have hlive : w.actor.isLive := by rcases hw with hw | hw <;> simp [hw, ActorTask.isLive]
    have hstage : w.stage = .joining := (h.live hgone hlive).resolve_left fun hserving => by
      simp [(h.serving hserving).2.2.2] at hpermit
    exact h.of_actor (by grind) nofun (by grind) (fun _ _ => .inr hstage)
      (fun _ => ⟨(h.joining hstage).1, by simp [hstage]⟩) nofun (fun _ => by simp)
  | left hw hsender =>
    -- `run` has its sender as long as it serves
    have hstage : w.stage = .joining := (h.live hgone (by simp [hw, ActorTask.isLive])).resolve_left
      fun hserving => by simp [Process.hasSender, hserving] at hsender
    exact h.of_actor (by simp [hw]) nofun (by simp [hw]) (fun _ _ => .inr hstage)
      (fun _ => ⟨(h.joining hstage).1, by simp [hstage]⟩) id (fun _ => by simp)
  | ends hw =>
    have hstage : w.stage = .joining := (h.live hgone (by simp [hw, ActorTask.isLive])).resolve_left
      fun hserving => (h.serving hserving).2.1 hw
    exact h.of_actor (by simp [hw]) nofun (by simp [hw]) (fun _ => nofun)
      (fun _ => ⟨(h.joining hstage).1, by simp [hstage]⟩) id (fun _ => by simp)
  | panics hw =>
    have habsent : w.actor ≠ .absent := by
      intro habsent
      simp [habsent, ActorTask.isLive] at hw
    exact h.of_actor habsent nofun (fun _ => rfl) (fun _ => nofun) (by simp) id (by simp)

/-! ## What a client's handler keeps -/

/-- A handler is there only once the agent serves. -/
theorem Orderly.not_early_of_handler (h : Orderly w) {c : Client} (hw : w.handlers c ≠ .absent) :
    ¬w.stage.isEarly = true := fun hearly => hw ((h.early hearly).2.2.2.2.2 c)

/-- A handler goes on, and asks for nothing. -/
theorem Orderly.of_handler {c : Client} {handler : Handler} {queue : List Client} {accepted : Nat}
    (h : Orderly w) (hw : ¬w.stage.isEarly = true)
    (hhandler : ∀ request response, handler = .writing request response → isFarewell response →
      w.asked ∨ w.actor = .panicked) :
    Orderly { w.setHandler c handler with queue, accepted } where
  early hearly := absurd hearly hw
  live := h.live
  serving := h.serving
  joining := h.joining
  ended := h.ended
  kept := h.kept
  heard := h.heard
  outcome := h.outcome
  bare := h.bare
  files := h.files
  cleaned := h.cleaned
  farewell d response htold hfarewell := by
    obtain ⟨request, hd⟩ | htold := htold
    · simp only [Process.setHandler, Function.update_apply] at hd
      split at hd
      case isTrue => exact hhandler request response hd hfarewell
      case isFalse => exact h.farewell d response (.inl ⟨request, hd⟩) hfarewell
    · exact h.farewell d response (.inr htold) hfarewell

theorem orderly_client {c : Client} (h : Orderly w) (hdoes : ClientDoes w c w') : Orderly w' := by
  cases hdoes with
  | accepted hstage =>
    exact h.of_handler (by simp [hstage, Stage.isEarly]) fun _ _ heq => by cases heq
  | goes hw hhandler =>
    exact h.of_handler (h.not_early_of_handler hw) fun request response heq =>
      absurd heq (hhandler request response)
  | sends hw => exact h.of_handler (h.not_early_of_handler hw) fun _ _ heq => by cases heq
  | answers hw hover =>
    refine h.of_handler (h.not_early_of_handler hw) fun request response heq hfarewell => ?_
    cases heq
    exact h.asked_of_over (hover hfarewell)
  | @tells request response hw =>
    have hearly := h.not_early_of_handler (c := c) (by simp [hw])
    have hdone : Orderly (w.setHandler c .done) :=
      h.of_handler hearly fun _ _ heq => by cases heq
    exact {
      early := fun hstage => absurd hstage hearly
      live := h.live
      serving := h.serving
      joining := fun hstage => by simpa using ⟨.inl (h.joining hstage).1, (h.joining hstage).2⟩
      ended := fun hend => by simp [h.ended hend]
      kept := by
        intro hasked hstage
        rcases (Bool.or_eq_true _ _).mp hasked with hasked | hnow
        · exact (h.kept hasked hstage).imp_right fun hshutdown => by simp [hshutdown]
        · exact .inr (by simp only [hnow, Bool.or_true])
      heard := by
        intro hheard
        rcases hheard with hpending | hshutdown
        · simp [h.heard (.inl hpending)]
        · rcases (Bool.or_eq_true _ _).mp hshutdown with hshutdown | hnow
          · simp [h.heard (.inr hshutdown)]
          · simp only [hnow, Bool.or_true]
      outcome := by
        intro outcome hstage
        obtain ⟨hout, hstopped, hfailed⟩ := h.outcome outcome hstage
        exact ⟨hout, fun ho => by simp [hstopped ho], hfailed⟩
      bare := h.bare
      files := h.files
      cleaned := h.cleaned
      farewell := by
        intro d answer htold hfarewell
        have hbefore : w.asked ∨ w.actor = .panicked := by
          rcases htold with hd | hd
          · exact hdone.farewell d answer (.inl hd) hfarewell
          · rcases List.mem_append.mp hd with hd | hd
            · exact h.farewell d answer (.inr hd) hfarewell
            · cases List.mem_singleton.mp hd
              exact h.farewell c response (.inl ⟨request, hw⟩) hfarewell
        exact hbefore.imp_left fun hasked => by simp [hasked] }

/-! ## What `run` and the signals keep -/

/-- `run` comes to its end and the tasks are left as they are. -/
theorem Orderly.of_end (h : Orderly w) {stage : Stage} (outcome : Outcome)
    (hstage : stage = .dropping outcome ∨ stage = .gone outcome)
    (hlive : stage = .dropping outcome → w.actor.isLive = false)
    (houtcome : outcome ≠ .actorStopped ∧ (outcome = .stopped → w.asked) ∧
      (outcome = .actorFailed → w.actor = .panicked))
    {socket pid unremoved metrics : Bool} {pending : SignalKind → Bool}
    (hpending : ∀ kind, pending kind → w.pending kind)
    (hfiles : stage = .gone outcome →
      Process.Cleaned { w with stage, socket, pid, unremoved, metrics, pending } outcome) :
    Orderly { w with stage, socket, pid, unremoved, metrics, pending } where
  early hearly := by
    rcases hstage with rfl | rfl <;> cases hearly
  live hgone hactor := by
    rcases hstage with rfl | rfl
    · simp [hlive rfl] at hactor
    · cases hgone
  serving hserving := by
    rcases hstage with rfl | rfl <;> cases hserving
  joining hjoining := by
    rcases hstage with rfl | rfl <;> cases hjoining
  ended := h.ended
  kept _ hserving := by
    rcases hstage with rfl | rfl <;> rcases hserving with hs | hs <;> cases hs
  heard hheard := h.heard <| hheard.imp_left fun ⟨kind, hkind⟩ => ⟨kind, hpending kind hkind⟩
  outcome other hother := by
    have heq : other = outcome := by
      rcases hstage with rfl | rfl <;> rcases hother with ho | ho <;> cases ho <;> rfl
    exact heq ▸ houtcome
  bare hother := by
    rcases hstage with rfl | rfl <;> simp at hother
  files hother := by
    rcases hstage with rfl | rfl <;> simp at hother
  cleaned other hother := by
    rcases hstage with rfl | rfl
    · cases hother
    · cases hother
      exact hfiles rfl
  farewell := h.farewell

theorem orderly_signal (h : Orderly w) (kind : SignalKind) : Orderly (w.onSignal kind) := by
  unfold Process.onSignal
  split
  case isTrue hhandled =>
    exact {
      early := h.early
      live := h.live
      serving := h.serving
      joining := fun hstage => ⟨rfl, (h.joining hstage).2⟩
      ended := fun _ => rfl
      kept := fun _ _ => .inl ⟨kind, Function.update_self ..⟩
      heard := fun _ => rfl
      outcome := by
        intro outcome hstage
        obtain ⟨hout, -, hfailed⟩ := h.outcome outcome hstage
        exact ⟨hout, fun _ => rfl, hfailed⟩
      bare := h.bare
      files := h.files
      cleaned := h.cleaned
      farewell := fun _ _ _ _ => .inl rfl }
  case isFalse =>
    exact h.of_end .killed (.inr rfl) nofun ⟨nofun, nofun, nofun⟩ (fun _ => id)
      fun _ => .inl rfl

/-- `run` goes on and does not serve yet. -/
theorem Orderly.of_early (h : Orderly w) {stage : Stage} (hw : w.stage.isEarly)
    (hstage : stage.isEarly) {handled : SignalKind → Bool} {socket pid : Bool}
    (hfiles : if stage = .start ∨ stage = .registered then socket = false ∧ pid = false
      else socket = true ∧ pid = true) :
    Orderly { w with stage, handled, socket, pid } where
  early _ := h.early hw
  live _ hactor := by simp [(h.early hw).1, ActorTask.isLive] at hactor
  serving hserving := by
    cases hserving
    cases hstage
  joining hjoining := by
    cases hjoining
    cases hstage
  ended := h.ended
  kept hasked _ := h.kept hasked (.inl hw)
  heard := h.heard
  outcome outcome hout := by
    rcases hout with rfl | rfl <;> cases hstage
  bare hother := by
    rw [if_pos hother] at hfiles
    exact hfiles
  files hother := by
    rw [if_neg (by rcases hother with ho | ho | ho | ho <;> cases ho <;> simp)] at hfiles
    exact hfiles
  cleaned outcome hout := by
    cases hout
    cases hstage
  farewell := h.farewell

/-- The accept loop returns. -/
theorem orderly_stopServing (h : Orderly w) (hw : w.stage = .serving) (hasked : w.asked)
    (pending : SignalKind → Bool) (shutdown : Bool) :
    Orderly { w.stopServing with pending, shutdown } where
  early := nofun
  live _ _ := .inr rfl
  serving := nofun
  joining _ := ⟨hasked, (h.serving hw).1, fun _ => rfl⟩
  ended := h.ended
  kept _ hserving := by rcases hserving with hs | hs <;> cases hs
  heard _ := hasked
  outcome outcome hout := by rcases hout with ho | ho <;> cases ho
  bare hstart := by rcases hstart with hs | hs <;> cases hs
  files _ := h.files (.inr (.inr (.inl hw)))
  cleaned := nofun
  farewell := h.farewell

/-- The agent begins to serve. -/
theorem orderly_serving (h : Orderly w) (hw : w.stage = .connecting) (metrics : Bool) :
    Orderly { w.goto .serving with metrics, actor := .idle } where
  early := nofun
  live _ _ := .inl rfl
  serving _ := ⟨nofun, nofun, nofun, (h.early (by rw [hw]; rfl)).2.1⟩
  joining := nofun
  ended hend := by rcases hend with he | he <;> cases he
  kept hasked _ := h.kept hasked (.inl (by rw [hw]; rfl))
  heard := h.heard
  outcome outcome hout := by rcases hout with ho | ho <;> cases ho
  bare hstart := by rcases hstart with hs | hs <;> cases hs
  files _ := h.files (.inr (.inl hw))
  cleaned := nofun
  farewell c response htold _ := by
    obtain ⟨-, -, -, -, hnobody, habsent⟩ := h.early (by rw [hw]; rfl)
    rcases htold with ⟨request, hc⟩ | hc
    · cases (habsent c).symm.trans hc
    · rw [show (w.goto .serving).told = [] from hnobody] at hc
      cases hc

theorem pending_of_update {pending : SignalKind → Bool} {kind other : SignalKind}
    (h : Function.update pending kind false other) : pending other := by
  rw [Function.update_apply] at h
  split at h
  · cases h
  · exact h

theorem orderly_run (h : Orderly w) (hdoes : RunDoes w w') : Orderly w' := by
  have hidle : w.stage.isEarly → w.actor.isLive = false := fun hearly => by
    rw [(h.early hearly).1]
    rfl
  cases hdoes with
  | registers hw => exact h.of_early (by rw [hw]; rfl) rfl (h.bare (.inl hw))
  | claims hw => exact h.of_early (by rw [hw]; rfl) rfl ⟨rfl, rfl⟩
  | refused hw hpid houtcome =>
    obtain ⟨hsocket, hbare⟩ := h.bare (.inr hw)
    rename_i outcome _
    have hout : outcome ≠ .actorStopped ∧ (outcome = .stopped → w.asked) ∧
        (outcome = .actorFailed → w.actor = .panicked) := by
      cases outcome <;> simp_all [Outcome.isUnguarded]
    refine h.of_end _ (.inr rfl) nofun hout (fun _ => id) ?_
    refine fun _ => .inr (.inr ⟨fun hs => ?_, fun hp => .inr ((hpid hp).resolve_left ?_)⟩)
    · exact absurd (hsocket.symm.trans hs) Bool.false_ne_true
    · simp [hbare]
  | binds hw => exact h.of_early (by rw [hw]; rfl) rfl (h.files (.inl hw))
  | serves hw => exact orderly_serving h hw _
  | fails hw =>
    have hearly : w.stage.isEarly := by rcases hw with hw | hw | hw <;> rw [hw] <;> rfl
    exact h.of_end .failed (.inl rfl) (fun _ => hidle hearly) ⟨nofun, nofun, nofun⟩
      (fun _ => id) nofun
  | stopsConnecting hw hkind =>
    have hasked : w.asked := h.heard (.inl ⟨_, hkind⟩)
    exact h.of_end .stopped (.inl rfl) (fun _ => hidle (by rw [hw]; rfl))
      ⟨nofun, fun _ => hasked, nofun⟩ (fun _ => pending_of_update) nofun
  | stopsServing hw hheard => exact orderly_stopServing h hw (h.heard hheard) _ _
  | seesActor hw hactor =>
    obtain ⟨hactor, rfl⟩ | ⟨hactor, -⟩ := hactor
    · exact h.of_end .actorFailed (.inl rfl) (fun _ => by rw [hactor]; rfl)
        ⟨nofun, nofun, fun _ => hactor⟩ (fun _ => id) nofun
    · -- the actor does not end while `run` serves
      exact absurd hactor (h.serving hw).2.2.1
  | joins hw hover =>
    have hdead : w.actor.isLive = false := by
      cases hactor : w.actor <;> simp_all [ActorTask.isOver, ActorTask.isLive]
    exact h.of_end .stopped (.inl rfl) (fun _ => hdead)
      ⟨nofun, fun _ => (h.joining hw).1, nofun⟩ (fun _ => id) nofun
  | drops hw =>
    exact h.of_end _ (.inr rfl) nofun (h.outcome _ (.inl hw)) (fun _ => id)
      fun _ => cleaned_removeFiles _ _ _ _
  | panics hw =>
    exact h.of_end .panicked (.inr rfl) nofun ⟨nofun, nofun, nofun⟩ (fun _ => id)
      fun _ => cleaned_removeFiles _ _ _ _

theorem orderly_event (h : Orderly w) (hgone : w.stage.isGone = false) {event : Event}
    (hevent : w.onEvent metricsListen event = some w') : Orderly w' := by
  cases event with
  | signal kind =>
    cases hevent
    exact orderly_signal h kind
  | run event => exact orderly_run h (onRun_does hevent)
  | actor event => exact orderly_actor h hgone (onActor_does hevent)
  | client c event => exact orderly_client h (onClient_does hevent)

/-- An event is what it does in its task, or the end of the process. -/
theorem step_cases {event : Event} (h : w.step options event = some w') :
    w.stage.isGone = false ∧ ((options.panicAborts = true → event.isPanic = false) ∧
      w.onEvent options.metricsListen event = some w' ∨
      options.panicAborts = true ∧ event.isPanic = true ∧ w' = w.goto (.gone .aborted)) := by
  unfold Process.step at h
  split at h
  case isTrue => cases h
  case isFalse hgone =>
    refine ⟨by simpa using hgone, ?_⟩
    split at h
    case isTrue hpanic =>
      obtain ⟨haborts, hpanic⟩ := (Bool.and_eq_true _ _).mp hpanic
      obtain ⟨-, -, rfl⟩ := Option.map_eq_some_iff.mp h
      exact .inr ⟨haborts, hpanic, rfl⟩
    case isFalse hpanic => exact .inl ⟨fun haborts => by simpa [haborts] using hpanic, h⟩

theorem orderly_step (h : Orderly w) {event : Event}
    (hstep : w.step options event = some w') : Orderly w' := by
  obtain ⟨hgone, ⟨-, hevent⟩ | ⟨-, -, rfl⟩⟩ := step_cases hstep
  · exact orderly_event h hgone hevent
  · exact h.of_end .aborted (.inr rfl) nofun ⟨nofun, nofun, nofun⟩ (fun _ => id)
      fun _ => .inr (.inl rfl)

/-- A task ends alone of a panic only where a panic does not end the process. -/
structure Panicking (options : Options) (w : Process) : Prop where
  alone : w.actor = .panicked → options.panicAborts = false
  aborted : w.stage = .dropping .aborted ∨ w.stage = .gone .aborted → options.panicAborts = true

theorem panic_of_panicked {event : ActorEvent} (h : w.onActor event = some w')
    (hactor : w'.actor = .panicked) : event = .panic := by
  cases event with
  | panic => rfl
  | closed =>
    simp only [Process.onActor] at h
    split at h
    case h_1 =>
      split at h
      case isTrue => cases h
      case isFalse =>
        cases h
        cases hactor
    case h_2 => cases h
  | _ =>
    simp only [Process.onActor] at h
    split at h <;> cases h <;> cases hactor

theorem panicking_step (h : Panicking options w) {event : Event}
    (hstep : w.step options event = some w') : Panicking options w' := by
  obtain ⟨-, ⟨halone, hevent⟩ | ⟨haborts, -, rfl⟩⟩ := step_cases hstep
  case inr => exact ⟨h.alone, fun _ => haborts⟩
  cases event with
  | signal kind =>
    cases hevent
    unfold Process.onSignal
    split
    · exact ⟨h.alone, h.aborted⟩
    · exact ⟨h.alone, fun hstage => by simp [Process.goto] at hstage⟩
  | run event =>
    cases onRun_does hevent with
    | serves hw => exact ⟨nofun, nofun⟩
    | refused hw hpid houtcome =>
      refine ⟨h.alone, fun hstage => ?_⟩
      obtain rfl : _ = Outcome.aborted := by simpa [Process.goto] using hstage
      rcases houtcome with houtcome | houtcome <;> cases houtcome
    | drops hw =>
      refine ⟨h.alone, fun hstage => h.aborted (.inl ?_)⟩
      rw [hw]
      simpa [Process.goto] using hstage
    | seesActor hw hactor =>
      refine ⟨h.alone, fun hstage => ?_⟩
      rcases hactor with ⟨-, rfl⟩ | ⟨-, rfl⟩ <;> simp [Process.goto] at hstage
    | _ =>
      exact ⟨h.alone, fun hstage => by simp [Process.goto, Process.stopServing] at hstage⟩
  | actor event =>
    refine ⟨fun hactor => ?_, fun hstage => h.aborted ?_⟩
    · rw [panic_of_panicked hevent hactor] at halone
      simpa [Event.isPanic] using halone
    · cases onActor_does hevent <;> exact hstage
  | client c event =>
    cases onClient_does hevent with
    | _ => exact ⟨h.alone, h.aborted⟩

theorem run_panicking {events : List Event}
    (hrun : Transition.run (Process.step options) Process.init events = some w) :
    Panicking options w := by
  have hinit : Panicking options Process.init := ⟨nofun, by simp [Process.init]⟩
  exact Transition.run_invariant (fun _ _ _ h _ hstep => panicking_step h hstep) events
    Process.init w hinit (Transition.meets_of_forall (fun _ _ => trivial) events _) hrun

theorem run_orderly {events : List Event}
    (hrun : Transition.run (Process.step options) Process.init events = some w) :
    Orderly w :=
  Transition.run_invariant (fun _ _ _ h _ hstep => orderly_step h hstep) events Process.init w
    orderly_init (Transition.meets_of_forall (fun _ _ => trivial) events Process.init) hrun

/-! ## How far it is to the end -/

def Stage.rank : Stage → Nat
  | .start => 9
  | .registered => 8
  | .claimed => 7
  | .connecting => 6
  | .serving => 3
  | .joining => 2
  | .dropping _ => 1
  | .gone _ => 0

def ActorTask.rank : ActorTask → Nat
  | .idle | .working => 2
  | .ending => 1
  | .absent | .ended | .panicked => 0

def Process.rank (w : Process) : Nat := w.stage.rank + w.actor.rank

/-- The agent takes this step of its own, whatever its clients and the device do. -/
def Event.isOwn : Event → Bool
  | .run (.connect _) | .run (.panic _ _) | .run .panicUnguarded => false
  | .run _ => true
  | .actor .closed | .actor .notified | .actor .disconnected => true
  | _ => false

theorem rank_onActor {event : ActorEvent} (h : w.onActor event = some w') :
    w'.rank + (if (Event.actor event).isOwn then 1 else 0) ≤ w.rank := by
  cases event with
  | panic =>
    simp only [Process.onActor] at h
    split at h
    case isTrue =>
      cases h
      simp [Process.rank, ActorTask.rank, Event.isOwn]
    case isFalse => cases h
  | closed =>
    simp only [Process.onActor] at h
    split at h
    case h_1 hactor _ =>
      split at h
      case isTrue => cases h
      case isFalse =>
        cases h
        simp [Process.rank, hactor, ActorTask.rank, Event.isOwn]
    case h_2 => cases h
  | _ =>
    simp only [Process.onActor] at h
    split at h <;> cases h <;> simp_all [Process.rank, ActorTask.rank, Event.isOwn]

theorem rank_onClient {c : Client} {event : ClientEvent} (h : w.onClient c event = some w') :
    w'.rank = w.rank := by
  cases onClient_does h <;> rfl

theorem rank_onRun {event : RunEvent} (h : w.onRun metricsListen event = some w') :
    w'.rank < w.rank := by
  cases onRun_does h with
  | fails hw =>
    rcases hw with hw | hw | hw <;> simp [Process.rank, Process.goto, hw, Stage.rank]
  | serves hw =>
    -- the actor's way to its end is longer by two
    simp only [Process.rank, Process.goto, hw, Stage.rank]
    simp [ActorTask.rank]
    omega
  | stopsServing hw _ => simp [Process.rank, Process.stopServing, Process.goto, hw, Stage.rank]
  | registers hw => simp [Process.rank, Process.goto, hw, Stage.rank]
  | claims hw => simp [Process.rank, Process.goto, hw, Stage.rank]
  | binds hw => simp [Process.rank, Process.goto, hw, Stage.rank]
  | stopsConnecting hw _ => simp [Process.rank, Process.goto, hw, Stage.rank]
  | seesActor hw _ => simp [Process.rank, Process.goto, hw, Stage.rank]
  | joins hw _ => simp [Process.rank, Process.goto, hw, Stage.rank]
  | refused hw => simp [Process.rank, Process.goto, hw, Stage.rank]
  | drops hw => simp [Process.rank, Process.removeFiles, Process.goto, hw, Stage.rank]
  | panics hw =>
    have hpositive : 0 < w.stage.rank := by
      cases hstage : w.stage with
      | gone outcome => simp [hstage, Stage.isGone] at hw
      | _ => simp [Stage.rank]
    simpa [Process.rank, Process.removeFiles, Process.goto, Stage.rank] using hpositive

theorem isPanic_of_own {event : Event} (h : event.isOwn = true) : event.isPanic = false := by
  cases event with
  | signal kind => rfl
  | run event =>
    cases event with
    | panic socket pid => cases h
    | panicUnguarded => cases h
    | _ => rfl
  | actor event =>
    cases event with
    | panic => cases h
    | _ => rfl
  | client c event => cases h

theorem ranked_step : Transition.Ranked (Process.step options) Process.rank Event.isOwn := by
  intro w event w' h
  obtain ⟨-, ⟨-, hevent⟩ | ⟨-, hpanic, rfl⟩⟩ := step_cases h
  · cases event with
    | signal kind =>
      cases hevent
      unfold Process.onSignal
      split <;> simp [Process.rank, Process.goto, Stage.rank, Event.isOwn]
    | run event =>
      have hlower := rank_onRun hevent
      split <;> omega
    | actor event => exact rank_onActor hevent
    | client c event => exact (rank_onClient hevent).le
  · have hown : event.isOwn = false := by
      by_contra hown
      simp [isPanic_of_own (by simpa using hown)] at hpanic
    simp [Process.rank, Process.goto, Stage.rank, hown]

/-! ## A stop that was asked for -/

/-- A stop stays asked for. -/
theorem asked_step {event : Event} (hasked : w.asked)
    (hstep : w.step options event = some w') : w'.asked := by
  obtain ⟨-, ⟨-, hevent⟩ | ⟨-, -, rfl⟩⟩ := step_cases hstep
  case inr => exact hasked
  cases event with
  | signal kind =>
    cases hevent
    unfold Process.onSignal
    split
    · rfl
    · exact hasked
  | run event => cases onRun_does hevent <;> exact hasked
  | actor event => cases onActor_does hevent <;> exact hasked
  | client c event =>
    cases onClient_does hevent with
    | tells _ => exact (Bool.or_eq_true _ _).mpr (.inl hasked)
    | _ => exact hasked

/-- Until it is gone, an agent that was asked to stop has a step of its own to take. -/
theorem own_enabled (h : Orderly w) (hasked : w.asked) (hgone : w.stage.isGone = false) :
    ∃ event : Event, event.isOwn ∧ (w.step options event).isSome := by
  have hown : ∀ event : Event, event.isOwn → (w.onEvent options.metricsListen event).isSome →
      ∃ event : Event, event.isOwn ∧ (w.step options event).isSome := by
    intro event hown hsome
    exact ⟨event, hown, by simpa [Process.step, hgone, isPanic_of_own hown] using hsome⟩
  have hrun : ∀ event, (Event.run event).isOwn → (w.onRun options.metricsListen event).isSome →
      ∃ event : Event, event.isOwn ∧ (w.step options event).isSome := fun event => hown (.run event)
  have hactor : ∀ event, (Event.actor event).isOwn → (w.onActor event).isSome →
      ∃ event : Event, event.isOwn ∧ (w.step options event).isSome :=
    fun event => hown (.actor event)
  cases hstage : w.stage with
  | start => exact hrun (.register true true) rfl (by simp [Process.onRun, hstage])
  | registered => exact hrun (.takeOver .taken) rfl (by simp [Process.onRun, hstage])
  | claimed => exact hrun (.bindMetrics true) rfl (by simp [Process.onRun, hstage])
  | connecting =>
    have hearly : w.stage.isEarly := by rw [hstage]; rfl
    obtain ⟨kind, hkind⟩ | hshutdown := h.kept hasked (.inl hearly)
    · exact hrun (.stopSignal kind) rfl (by simp [Process.onRun, hstage, hkind])
    · cases (h.early hearly).2.2.1.symm.trans hshutdown
  | serving =>
    obtain ⟨kind, hkind⟩ | hshutdown := h.kept hasked (.inr hstage)
    · exact hrun (.stopSignal kind) rfl (by simp [Process.onRun, hstage, hkind])
    · exact hrun .stopNotified rfl (by simp [Process.onRun, hstage, hshutdown])
  | joining =>
    obtain ⟨-, habsent, hpermit⟩ := h.joining hstage
    cases htask : w.actor with
    | absent => exact absurd htask habsent
    | idle =>
      have hshutdown := hpermit (.inl htask)
      exact hactor .notified rfl (by simp [Process.onActor, htask, hshutdown])
    | working =>
      have hshutdown := hpermit (.inr htask)
      exact hactor .notified rfl (by simp [Process.onActor, htask, hshutdown])
    | ending => exact hactor .disconnected rfl (by simp [Process.onActor, htask])
    | ended => exact hrun .joined rfl (by simp [Process.onRun, hstage, htask, ActorTask.isOver])
    | panicked => exact hrun .joined rfl (by simp [Process.onRun, hstage, htask, ActorTask.isOver])
  | dropping outcome => exact hrun (.drop true true) rfl (by simp [Process.onRun, hstage])
  | gone outcome => simp [hstage, Stage.isGone] at hgone

/-! ## Whole runs -/

/-- **The agent is orderly** at every moment of every run, however its tasks come
between each other: nobody is answered before it is connected, the socket and the pid
file are there for as long as the actor holds the device, its actor ends only once a
stop was asked for (so that it never finds it "stopped unexpectedly"), it reports a
clean end only then, and unless it dies it leaves no file that could be removed, but
for the pid file of an agent that found another one to answer or panicked before it had
a guard. A client is told that there is no agent only by one that was asked to stop or,
where a panic does not end the process, whose actor panicked. -/
theorem lifecycle_orderly {events : List Event}
    (hrun : Transition.run (Process.step options) Process.init events = some w) :
    (w.stage.isEarly → w.actor = .absent ∧ w.metrics = false ∧ w.told = []) ∧
      (w.stage.isGone = false → w.actor.isLive → w.socket ∧ w.pid) ∧
      (w.actor = .ending ∨ w.actor = .ended → w.asked) ∧
      (∀ outcome, w.stage = .gone outcome → outcome ≠ .actorStopped ∧
        (outcome = .stopped → w.asked) ∧ (outcome = .actorFailed → w.actor = .panicked) ∧
        (outcome = .aborted → options.panicAborts = true) ∧ w.Cleaned outcome) ∧
      (∀ c response, (c, response) ∈ w.told → isFarewell response →
        w.asked ∨ w.actor = .panicked) ∧
      (w.actor = .panicked → options.panicAborts = false) := by
  have h := run_orderly hrun
  have hpanicking := run_panicking hrun
  refine ⟨fun hearly => ?_, fun hgone hlive => ?_, h.ended, fun outcome hstage => ?_, ?_,
    hpanicking.alone⟩
  · obtain ⟨hactor, -, -, hmetrics, htold, -⟩ := h.early hearly
    exact ⟨hactor, hmetrics, htold⟩
  · exact h.files (.inr (.inr (h.live hgone hlive)))
  · obtain ⟨hout, hstopped, hfailed⟩ := h.outcome outcome (.inr hstage)
    refine ⟨hout, hstopped, hfailed, fun haborted => ?_, h.cleaned outcome hstage⟩
    exact hpanicking.aborted (.inr (haborted ▸ hstage))
  · exact fun c response htold => h.farewell c response (.inr htold)

/-- What the handlers know of an agent that has measured nothing. -/
def idleInfo : AgentInfo := ⟨0xCBDF6B123456#48, .new 0 1000000000 none⟩

/-- A release build with a metrics port. -/
def release : Options := ⟨true, true⟩

/-- One client asks it to stop while the actor is at work for another. -/
def stopAtWork : List Event :=
  [.run (.register true true), .run (.takeOver .taken), .run (.bindMetrics true),
    .run (.connect true), .client 0 .accept, .client 1 .accept,
    .client 0 (.read (some (.power true))), .client 0 (.answer idleInfo 0), .actor .command,
    .client 1 (.read (some .shutdown)), .client 1 (.answer idleInfo 0), .client 1 (.wrote true)]

/-- The rest of it: the work is abandoned. A client that was accepted in time is told. -/
def stopping : List Event :=
  [.client 2 .accept, .run .stopNotified, .actor .notified, .actor .disconnected,
    .client 2 (.read (some .ping)), .client 2 (.answer idleInfo 0), .client 2 (.wrote true),
    .run .joined, .run (.drop true true)]

theorem stopping_seen :
    (Transition.run (Process.step release) Process.init (stopAtWork ++ stopping)).map
        (fun w => (w.stage, w.told, w.unremoved)) =
      some (.gone .stopped, [(1, .ok), (2, .error "agent actor is not running")], false) := by
  decide +kernel

theorem lifecycle_orderly_stop : ∃ w,
    Transition.run (Process.step release) Process.init (stopAtWork ++ stopping) = some w ∧
      w.stage = .gone .stopped ∧ w.socket = false ∧ w.pid = false ∧
      w.told = [(1, .ok), (2, .error "agent actor is not running")] := by
  obtain ⟨w, hrun, hseen⟩ := Option.map_eq_some_iff.mp stopping_seen
  simp only [Prod.mk.injEq] at hseen
  obtain ⟨hstage, htold, hremoved⟩ := hseen
  obtain ⟨-, -, -, hgone, -⟩ := lifecycle_orderly hrun
  obtain ⟨-, -, -, -, hkilled | haborted | ⟨hsocket, hpid⟩⟩ := hgone .stopped hstage
  · cases hkilled
  · cases haborted
  · refine ⟨w, hrun, hstage, ?_, ?_, htold⟩
    · simpa [hremoved] using hsocket
    · simpa [hremoved, Outcome.isUnguarded] using hpid

/-- **A stop gets through**: once it was asked for, then whatever comes, the agent is
gone after no more steps of its own than its rank (nine at most, and five from when it
serves), and until then there is a step of its own that it can take. It waits for no
client and no device. -/
theorem stop_getsThrough {events later : List Event}
    (hrun : Transition.run (Process.step options) Process.init events = some w)
    (hasked : w.asked)
    (hlater : Transition.run (Process.step options) w later = some w') :
    w.rank ≤ 9 ∧ (w.stage = .serving → w.rank ≤ 5) ∧
      (w.rank ≤ later.countP Event.isOwn → w'.stage.isGone) ∧
      (w'.stage.isGone = false →
        ∃ event : Event, event.isOwn ∧ (w'.step options event).isSome) := by
  have hbound : w.rank ≤ 9 := by
    simpa [Process.rank, Process.init, Stage.rank, ActorTask.rank] using
      (Nat.le_add_right _ _).trans (Transition.rank_run ranked_step hrun)
  refine ⟨hbound, fun hserving => ?_, fun hlong => ?_, ?_⟩
  · have hactor : w.actor.rank ≤ 2 := by cases w.actor <;> simp [ActorTask.rank]
    simp only [Process.rank, hserving, Stage.rank]
    omega
  · have hrank := Transition.rank_run ranked_step hlater
    have hzero : w'.stage.rank = 0 := by
      simp only [Process.rank] at hrank hlong
      omega
    cases hstage : w'.stage with
    | gone _ => rfl
    | _ => simp [hstage, Stage.rank] at hzero
  · have hasked' : w'.asked := Transition.run_invariant
      (fun _ _ _ h _ hstep => asked_step h hstep) later w w' hasked
      (Transition.meets_of_forall (fun _ _ => trivial) later w) hlater
    have horderly : Orderly w' := Transition.run_invariant
      (fun _ _ _ h _ hstep => orderly_step h hstep) later w w' (run_orderly hrun)
      (Transition.meets_of_forall (fun _ _ => trivial) later w) hlater
    exact own_enabled horderly hasked'

theorem stopAtWork_seen :
    (Transition.run (Process.step release) Process.init stopAtWork).map
      (fun w => (w.asked, w.rank)) = some (true, 5) := by
  decide +kernel

/-- At work for a client that may never be done, and with another one coming in. -/
theorem stop_getsThrough_work : ∃ w w',
    Transition.run (Process.step release) Process.init stopAtWork = some w ∧
      Transition.run (Process.step release) w stopping = some w' ∧ w.rank = 5 ∧
      w'.stage.isGone := by
  obtain ⟨w, hrun, hseen⟩ := Option.map_eq_some_iff.mp stopAtWork_seen
  obtain ⟨hasked, hrank⟩ := Prod.mk.inj hseen
  obtain ⟨w', hwhole, -⟩ := Option.map_eq_some_iff.mp stopping_seen
  have hlater : Transition.run (Process.step release) w stopping = some w' := by
    rw [Transition.run_append, hrun] at hwhole
    exact hwhole
  have hown : stopping.countP Event.isOwn = 5 := rfl
  have hgone := (stop_getsThrough hrun hasked hlater).2.2.1 (by rw [hrank, hown])
  exact ⟨w, w', hrun, hlater, hrank, hgone⟩

end Btwattch2.Lifecycle
