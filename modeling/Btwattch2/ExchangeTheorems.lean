/-
Btwattch2.ExchangeTheorems — what passes on the channel of each request.

The channel is made for one request, and the actor answers the request on it:
once for a one-shot, and with the list of streaming clients taking over for a
subscribe (`exchange_run`). What the channel is given is then one reply, or
measurements and at most one last message (`channel_run`), and nothing that was
meant for another channel (`addressed`).
-/
import Btwattch2.ActorConduct
import Btwattch2.Server
import Btwattch2.StreamTheorems

namespace Btwattch2

open Lib

/-! ## The exchange of one request -/

/-- What a request may be replied on its own channel. A subscribe is replied only
when it is refused. -/
def Request.admits : Request → Response → Bool
  | .ping, .pong _ _ | .ping, .error _ => true
  | .shutdown, .ok => true
  | .getRtc, .measurement _ _ _ _ _ | .getRtc, .error _ => true
  | .power _, .commandResult _ | .power _, .error _ => true
  | .testLed, .commandResult _ | .testLed, .error _ => true
  | .setRtc _, .commandResult _ | .setRtc _, .error _ => true
  | .subscribe, .error _ => true
  | _, _ => false

/-- The exchange of a request the actor has served. -/
inductive Settled : Request → List Exchange → Prop
  | replied {request : Request} {response : Response} (h : request.admits response = true) :
      Settled request [.asked request, .replied response]
  | added : Settled .subscribe [.asked .subscribe, .added]
  -- these are answered before they reach the actor
  | ping : Settled .ping [.asked .ping]
  | shutdown : Settled .shutdown [.asked .shutdown]

/-- The exchanges in a log, each with its channel. -/
def exchanges (log : List Obs) : List (ClientId × Exchange) := log.filterMap Obs.exchange

/-- The exchange on one channel. -/
def exchangeOn (c : ClientId) (log : List Obs) : List Exchange :=
  (exchanges log).filterMap fun x => if x.1 = c then some x.2 else none

/-- What an event adds to the exchanges: a command is served, or is cut off when
the loop ends. -/
def Event.Exchanged (event : Event) (running : Bool) (xs : List (ClientId × Exchange)) : Prop :=
  match event with
  | .command (some cmd) => ∃ ys, xs = ys.map (cmd.tx, ·) ∧
      (Settled cmd.request ys ∨ (running = false ∧ ys <+: [.asked cmd.request]))
  | _ => xs = []

@[simp] theorem exchanges_append (log obs : List Obs) :
    exchanges (log ++ obs) = exchanges log ++ exchanges obs := List.filterMap_append

theorem exchangeOn_append (c : ClientId) (log obs : List Obs) :
    exchangeOn c (log ++ obs) = exchangeOn c log ++ exchangeOn c obs := by
  simp [exchangeOn]

/-- From one log to the next, a request has begun. -/
def Begun (log : List Obs) (tx : ClientId) (request : Request) (log' : List Obs) : Prop :=
  exchanges log' = exchanges log ++ [(tx, .asked request)]

/-- From one log to the next, a request has been served. -/
def Serves (log : List Obs) (tx : ClientId) (request : Request) (log' : List Obs) : Prop :=
  ∃ ys, exchanges log' = exchanges log ++ ys.map (tx, ·) ∧ Settled request ys

section Zone

variable {chrono : Chrono} {log log' : List Obs} {a : Actor} {tx : ClientId} {request : Request}

theorem begun_append (log : List Obs) (tx : ClientId) (request : Request) :
    Begun log tx request (log ++ [.request tx request] ++ [.clients .reap]) := by
  simp [Begun, exchanges, Obs.exchange]

theorem Begun.replied (h : Begun log tx request log') {response : Response}
    (hadmits : request.admits response = true) :
    Serves log tx request (log' ++ [.reply tx response]) := by
  refine ⟨_, ?_, .replied hadmits⟩
  rw [exchanges_append, h, List.append_assoc]
  rfl

theorem Begun.added (h : Begun log tx .subscribe log') :
    Serves log tx .subscribe (log' ++ [.clients (.add tx)]) := by
  refine ⟨_, ?_, .added⟩
  rw [exchanges_append, h, List.append_assoc]
  rfl

/-- What is no part of an exchange leaves them as they are. -/
theorem Mute.keeps {α : Type} {x : ActorM α} {xs : List (ClientId × Exchange)} (hx : Mute x)
    (h : exchanges log' = xs) :
    Await.wp x (fun _ log' _ => exchanges log' = xs)
      (fun log' _ => exchanges log' = xs) log' a := by
  have hsame : ∀ log'', (∃ obs, log'' = log' ++ obs ∧ ∀ o ∈ obs, o.exchange = none) →
      exchanges log'' = xs := by
    intro log'' hlog
    obtain ⟨obs, rfl, hobs⟩ := hlog
    have hnil : exchanges obs = [] := List.filterMap_eq_nil_iff.mpr hobs
    rw [exchanges_append, hnil, List.append_nil, h]
  exact Await.wp_mono (Await.Confined.wp hx)
    (fun _ log'' _ => hsame log'') fun log'' _ => hsame log''

theorem wp_sendError_serves (h : Begun log tx request log')
    (herror : ∀ message, request.admits (.error message) = true) {message : String} :
    Await.wp (sendError tx message) (fun _ log' _ => Serves log tx request log')
      (fun log' _ => Begun log tx request log') log' a :=
  wp_sendError (h.replied (herror message))

/-- A one-shot request ends with one reply, whatever comes of it. -/
theorem wp_oneshot_serves {payload : List UInt8} {kind : FrameKind}
    {f : Except StreamError (List UInt8) → Except StreamError Response}
    (h : Begun log tx request log')
    (hok : ∀ resp response, f resp = .ok response → request.admits response = true)
    (herror : ∀ message, request.admits (.error message) = true) :
    Await.wp (do reply tx (f (← oneshot chrono payload kind)))
      (fun _ log' _ => Serves log tx request log')
        (fun log' _ => Begun log tx request log') log' a := by
  refine Await.wp_bind (Await.wp_mono
    ((mute_oneshot chrono payload kind).keeps h) ?_ fun _ _ h => h)
  intro resp log' a' h
  have hbegun : Begun log tx request log' := h
  exact wp_reply (fun response hr => hbegun.replied (hok resp response hr)) fun message _ =>
    hbegun.replied (herror message)

theorem wp_command_serves {payload : List UInt8} (h : Begun log tx request log')
    (hresult : ∀ code, request.admits (.commandResult code) = true)
    (herror : ∀ message, request.admits (.error message) = true) :
    Await.wp (command chrono payload tx) (fun _ log' _ => Serves log tx request log')
      (fun log' _ => Begun log tx request log') log' a := by
  refine wp_oneshot_serves h (fun resp response hr => ?_) herror
  cases resp with
  | error e => cases hr
  | ok frame =>
    cases hr
    unfold parseCommandResult
    split
    · exact hresult _
    · exact herror _

theorem wp_handleSubscribe_serves (h : Begun log tx .subscribe log') :
    Await.wp (handleSubscribe tx) (fun _ log' _ => Serves log tx .subscribe log')
      (fun log' _ => Begun log tx .subscribe log') log' a := by
  unfold handleSubscribe
  refine Await.wp_bind (Await.wp_get.mpr ?_)
  split
  · refine Await.wp_bind (Await.wp_mono (still_relisten.mute.keeps h) ?_ fun _ _ h => h)
    intro result log' a' h
    cases result with
    | error e => exact wp_sendError_serves h fun _ => rfl
    | ok _ => exact wp_clientOp (Begun.added h)
  · exact wp_clientOp h.added

/-- A request is served, unless it is abandoned. -/
theorem wp_handle_serves {cmd : ActorCommand} :
    Await.wp (handle chrono cmd) (fun _ log' _ => Serves log cmd.tx cmd.request log')
      (fun log' _ => Begun log cmd.tx cmd.request log') log a := by
  obtain ⟨request, tx⟩ := cmd
  unfold handle
  refine Await.wp_bind (Await.wp_observe.mpr (Await.wp_bind (wp_clientOp ?_)))
  have h := begun_append log tx request
  cases request with
  | ping => exact Await.wp_pure.mpr ⟨[.asked .ping], h, .ping⟩
  | shutdown => exact Await.wp_pure.mpr ⟨[.asked .shutdown], h, .shutdown⟩
  | subscribe => exact wp_handleSubscribe_serves h
  | getRtc =>
    refine Await.wp_bind (Await.wp_get.mpr (wp_oneshot_serves h (fun resp response hr => ?_)
      fun _ => rfl))
    -- the reply is a measurement
    cases resp with
    | error e => cases hr
    | ok frame =>
      simp only [Except.bind, rtcResponse] at hr
      split at hr <;> cases hr
      rfl
  | power on => exact wp_command_serves h (fun _ => rfl) fun _ => rfl
  | testLed => exact wp_command_serves h (fun _ => rfl) fun _ => rfl
  | setRtc time =>
    dsimp only
    split
    · exact wp_command_serves h (fun _ => rfl) fun _ => rfl
    · exact wp_sendError_serves h fun _ => rfl

/-- Only a command is part of an exchange. -/
theorem wp_handleEvent_exchanged {event : Event} :
    Await.wp (handleEvent chrono event)
      (fun goesOn log' _ => ∃ xs, exchanges log' = exchanges log ++ xs ∧ event.Exchanged goesOn xs)
      (fun log' _ => ∃ xs, exchanges log' = exchanges log ++ xs ∧
      event.Exchanged false xs) log a := by
  have hmeanwhile : ∀ acts, exchanges (log ++ [.meanwhile acts]) = exchanges log := by
    intro acts
    simp [exchanges, Obs.exchange]
  have hidle : ∀ log', exchanges log' = exchanges log → ∀ running,
      (∀ cmd, event ≠ .command (some cmd)) →
      ∃ xs, exchanges log' = exchanges log ++ xs ∧ event.Exchanged running xs := by
    intro log' hlog running hevent
    refine ⟨[], by simpa using hlog, ?_⟩
    unfold Event.Exchanged
    split
    case h_1 cmd => exact absurd rfl (hevent cmd)
    case h_2 => rfl
  cases event with
  | command cmd =>
    cases cmd with
    | none =>
      exact Await.wp_bind (wp_meanwhile (hidle _ rfl false (by simp)) fun acts _ =>
        Await.wp_pure.mpr (hidle _ (hmeanwhile acts) false (by simp)))
    | some cmd =>
      refine Await.wp_bind (wp_meanwhile ?_ fun acts elapsed => Await.wp_bind
        (Await.wp_mono wp_handle_serves ?_ ?_))
      · exact ⟨[], by simp, [], rfl, .inr ⟨rfl, List.nil_prefix⟩⟩
      · intro _ log' a' h
        obtain ⟨ys, hlog, hsettled⟩ := h
        exact Await.wp_pure.mpr ⟨_, by rw [hlog, hmeanwhile], ys, rfl, .inl hsettled⟩
      · intro log' a' h
        refine ⟨_, ?_, [.asked cmd.request], rfl, .inr ⟨rfl, List.prefix_refl _⟩⟩
        rw [h, hmeanwhile]
        rfl
  | shutdown =>
    exact Await.wp_bind (wp_meanwhile (hidle _ rfl false (by simp)) fun acts _ =>
      Await.wp_pure.mpr (hidle _ (hmeanwhile acts) false (by simp)))
  | tick =>
    refine Await.wp_bind (wp_meanwhile (hidle _ rfl false (by simp)) fun acts elapsed =>
      Await.wp_bind (Await.wp_mono (still_pollDevice.mute.keeps (hmeanwhile acts)) ?_ ?_))
    · exact fun _ log' _ h => Await.wp_pure.mpr (hidle log' h true (by simp))
    · exact fun log' _ h => hidle log' h false (by simp)
  | notification n =>
    refine Await.wp_bind (wp_meanwhile (hidle _ rfl false (by simp)) fun acts elapsed =>
      Await.wp_bind (Await.wp_mono
        ((aside_handleNotification chrono n).mute.keeps (hmeanwhile acts)) ?_ ?_))
    · exact fun _ log' _ h => Await.wp_pure.mpr (hidle log' h true (by simp))
    · exact fun log' _ h => hidle log' h false (by simp)

theorem step_exchanged {agent agent' : Agent} {event : Event} {tape : List Answer}
    (hstep : agent.step chrono (event, tape) = some agent') :
    ∃ xs, exchanges agent'.log = exchanges agent.log ++ xs ∧ event.Exchanged agent'.running xs := by
  have hstop : ∀ log, exchanges (log ++ [.clients .end_]) = exchanges log := by
    intro log
    simp [exchanges, Obs.exchange]
  obtain ⟨-, -, h⟩ := step_of_wp chrono wp_handleEvent_exchanged hstep
  obtain ⟨hrunning, hgo⟩ | ⟨log, a, rfl, hend⟩ := h
  · rw [hrunning]
    exact hgo
  · obtain ⟨xs, hlog, hxs⟩ := hend.elim id id
    exact ⟨xs, (hstop log).trans hlog, hxs⟩

/-! ## Over a run -/

/-- The commands the actor has taken, in order. -/
def commandsOf (labels : List (Event × List Answer)) : List ActorCommand :=
  labels.filterMap fun
    | (.command cmd, _) => cmd
    | _ => none

/-- Every command has a channel of its own. -/
def OwnChannels (labels : List (Event × List Answer)) : Prop :=
  ((commandsOf labels).map ActorCommand.tx).Nodup

instance (labels : List (Event × List Answer)) : Decidable (OwnChannels labels) :=
  inferInstanceAs (Decidable (List.Nodup _))

/-- The exchanges of a run: nothing on a channel no command came on, and on the
others one exchange, which may be cut off where the loop ends. -/
structure ExchangeLaw (labels : List (Event × List Answer)) (agent : Agent) : Prop where
  unasked : ∀ c, c ∉ (commandsOf labels).map ActorCommand.tx → exchangeOn c agent.log = []
  asked : ∀ cmd ∈ commandsOf labels, Settled cmd.request (exchangeOn cmd.tx agent.log) ∨
    (agent.running = false ∧ exchangeOn cmd.tx agent.log <+: [.asked cmd.request])

theorem filterMap_tagged (c tx : ClientId) (ys : List Exchange) :
    ((ys.map (tx, ·)).filterMap fun x => if x.1 = c then some x.2 else none) =
      if tx = c then ys else [] := by
  induction ys with
  | nil => simp
  | cons y ys ih => by_cases h : tx = c <;> simp_all

theorem commandsOf_append (labels labels' : List (Event × List Answer)) :
    commandsOf (labels ++ labels') = commandsOf labels ++ commandsOf labels' :=
  List.filterMap_append

theorem Agent.running_of_step {agent agent' : Agent} {label : Event × List Answer}
    (h : agent.step chrono label = some agent') : agent.running = true := by
  obtain ⟨event, tape⟩ := label
  simp only [Agent.step] at h
  split at h
  case isTrue hrun => exact (Bool.and_eq_true_iff.mp hrun).1
  case isFalse => cases h

theorem exchangeOn_eq_of_exchanges {agent agent' : Agent} {xs : List (ClientId × Exchange)}
    (h : exchanges agent'.log = exchanges agent.log ++ xs) (c : ClientId) :
    exchangeOn c agent'.log = exchangeOn c agent.log ++
      xs.filterMap fun x => if x.1 = c then some x.2 else none := by
  rw [exchangeOn, h, List.filterMap_append]
  rfl

/-- One more event keeps the law of the exchanges. -/
theorem ExchangeLaw.step {labels : List (Event × List Answer)} {agent agent' : Agent}
    {label : Event × List Answer} (h : ExchangeLaw labels agent)
    (hstep : agent.step chrono label = some agent') (hown : OwnChannels (labels ++ [label])) :
    ExchangeLaw (labels ++ [label]) agent' := by
  obtain ⟨event, tape⟩ := label
  have hrunning := Agent.running_of_step hstep
  obtain ⟨xs, hlog, hxs⟩ := step_exchanged hstep
  have hon := exchangeOn_eq_of_exchanges hlog
  -- no exchange that was there is cut off
  have hsettled : ∀ cmd ∈ commandsOf labels, Settled cmd.request (exchangeOn cmd.tx agent.log) := by
    intro cmd hcmd
    refine (h.asked cmd hcmd).resolve_right fun hcut => ?_
    rw [hrunning] at hcut
    exact nomatch hcut.1
  rw [OwnChannels, commandsOf_append, List.map_append] at hown
  unfold Event.Exchanged at hxs
  split at hxs
  case h_1 cmd =>
    obtain ⟨ys, rfl, hys⟩ := hxs
    simp only [filterMap_tagged] at hon
    obtain ⟨-, -, hfresh⟩ := List.nodup_append.mp hown
    have hnew : cmd.tx ∉ (commandsOf labels).map ActorCommand.tx := fun hmem =>
      hfresh _ hmem cmd.tx (by simp [commandsOf]) rfl
    constructor
    case unasked =>
      intro c hc
      simp only [commandsOf_append, List.map_append, List.mem_append, not_or] at hc
      have hne : cmd.tx ≠ c := by
        rintro rfl
        exact hc.2 (by simp [commandsOf])
      rw [hon, h.unasked c hc.1, if_neg hne]
      rfl
    case asked =>
      intro cmd' hcmd'
      rw [commandsOf_append] at hcmd'
      obtain hold | hlast := List.mem_append.mp hcmd'
      · have hne : cmd.tx ≠ cmd'.tx := fun heq =>
          hnew (heq ▸ List.mem_map_of_mem hold)
        rw [hon, if_neg hne, List.append_nil]
        exact .inl (hsettled cmd' hold)
      · obtain rfl : cmd' = cmd := by simpa [commandsOf] using hlast
        rw [hon, if_pos rfl, h.unasked cmd'.tx hnew]
        exact hys
  case h_2 hevent =>
    subst hxs
    have hnone : commandsOf [(event, tape)] = [] := by
      unfold commandsOf
      match event with
      | .command (some cmd) => exact absurd rfl (hevent cmd)
      | .command none => rfl
      | .tick => rfl
      | .notification _ => rfl
      | .shutdown => rfl
    constructor
    case unasked =>
      intro c hc
      rw [commandsOf_append, hnone, List.append_nil] at hc
      rw [hon, h.unasked c hc]
      rfl
    case asked =>
      intro cmd hcmd
      rw [commandsOf_append, hnone, List.append_nil] at hcmd
      rw [hon]
      simpa using .inl (hsettled cmd hcmd)

/-- Over a run whose commands come on channels of their own. -/
theorem exchange_run (chrono : Chrono) {start agent : Agent} (hstart : start.log = [])
    {labels : List (Event × List Answer)}
    (hrun : Transition.run (Agent.step chrono) start labels = some agent)
    (hown : OwnChannels labels) : ExchangeLaw labels agent := by
  induction labels using List.reverseRecOn generalizing agent with
  | nil =>
    cases hrun
    refine ⟨fun c _ => by simp [hstart, exchangeOn, exchanges], fun cmd hcmd => ?_⟩
    simp [commandsOf] at hcmd
  | append_singleton labels label ih =>
    obtain ⟨agent₁, hrun₁, hstep⟩ := Transition.run_concat hrun
    have hown₁ : OwnChannels labels := by
      rw [OwnChannels, commandsOf_append, List.map_append] at hown
      exact hown.of_append_left
    exact (ih hrun₁ hown₁).step hstep hown

/-! ## What a channel is given -/

/-- What an observation may give to a channel: a reply goes to its own. -/
def Obs.addressed (c : ClientId) : Obs → Option Response
  | .reply tx response => if tx = c then some response else none
  | .clients (.broadcast response) => some response
  | .clients (.abort reason) => some (.error reason)
  | .clients .end_ => some .streamEnd
  | _ => none

/-- A channel, after an exchange on it that has got this far. -/
structure OnChannel (xs : List Exchange) (feed : Feed) : Prop where
  /-- Only a subscribe puts a client on the list. -/
  listed : feed.listed = true → .added ∈ xs
  apart : .added ∈ xs → ∀ response, .replied response ∉ xs
  queued : feed.chan.queue.length ≤ feed.chan.given.length
  /-- Nothing comes before a reply or the list. -/
  quiet : (∀ response, .replied response ∉ xs) → .added ∉ xs → feed.chan.given = []
  replied : ∀ response, .replied response ∈ xs →
    feed.chan.given = [response] ∨ (feed.chan.given = [] ∧ feed.chan.closed = true)
  /-- Measurements, and then at most one last message, which ends it. -/
  streamed : .added ∈ xs → ∃ (ms : List Response) (final : Option Response),
    feed.chan.given = ms ++ final.toList ∧ (∀ m ∈ ms, m.isMeasurement = true) ∧
    (∀ x ∈ final, x.isFinal = true) ∧ (feed.listed = true → final = none)

/-- How far an exchange can have got. -/
def Underway (xs : List Exchange) : Prop := ∃ request ys, Settled request ys ∧ xs <+: ys

theorem Underway.of_append {xs ys : List Exchange} (h : Underway (xs ++ ys)) : Underway xs := by
  obtain ⟨request, zs, hsettled, hprefix⟩ := h
  exact ⟨request, zs, hsettled, (List.prefix_append xs ys).trans hprefix⟩

/-- An exchange has two parts at most. -/
theorem Underway.length_le {xs : List Exchange} (h : Underway xs) : xs.length ≤ 2 := by
  obtain ⟨request, ys, hsettled, hxs⟩ := h
  have htwo : ys.length ≤ 2 := by cases hsettled <;> simp
  exact hxs.length_le.trans htwo

/-- What comes before each part of an exchange. -/
theorem Underway.last {xs : List Exchange} {x : Exchange} (h : Underway (xs ++ [x])) :
    match x with
    | .asked _ => xs = []
    | .added => xs = [.asked .subscribe]
    | .replied _ => ∃ request, xs = [.asked request] := by
  have hlength := h.length_le
  obtain ⟨request, ys, hsettled, hprefix⟩ := h
  match xs with
  | [] =>
    rw [List.nil_append] at hprefix
    cases hsettled <;> obtain ⟨rfl, -⟩ := List.cons_prefix_cons.mp hprefix <;> rfl
  | [y] =>
    obtain ⟨z, zs, rfl⟩ : ∃ z zs, ys = z :: zs := by cases hsettled <;> exact ⟨_, _, rfl⟩
    obtain ⟨rfl, hrest⟩ := List.cons_prefix_cons.mp hprefix
    cases hsettled with
    | replied h =>
      obtain ⟨rfl, -⟩ := List.cons_prefix_cons.mp hrest
      exact ⟨request, rfl⟩
    | added =>
      obtain ⟨rfl, -⟩ := List.cons_prefix_cons.mp hrest
      rfl
    | ping => exact absurd (List.prefix_nil.mp hrest) (List.cons_ne_nil _ _)
    | shutdown => exact absurd (List.prefix_nil.mp hrest) (List.cons_ne_nil _ _)
  | y :: z :: xs =>
    simp at hlength

/-! ### One observation more -/

/-- An operation that fits a stream of measurements. -/
def FeedOp.fits : FeedOp → Bool
  | .add => false
  | .broadcast response => response.isMeasurement
  | .finish response => response.isFinal
  | .reap | .act _ => true

theorem Chan.trySend_cases (c : Chan) (response : Response) :
    ((c.trySend response).1 = .sent ∧ (c.trySend response).2.given = c.given ++ [response] ∧
      (c.trySend response).2.queue = c.queue ++ [response]) ∨
    ((c.trySend response).1 ≠ .sent ∧ (c.trySend response).2 = c ∧
      (c.closed = true ∨ c.queue.length = clientQueueLen)) := by
  unfold Chan.trySend
  by_cases hclosed : c.closed = true
  · simp [hclosed]
  · by_cases hfull : c.queue.length ≥ clientQueueLen
    · have hlen : c.queue.length = clientQueueLen := Nat.le_antisymm c.bounded hfull
      simp [hclosed, hlen]
    · simp [hclosed, hfull]

namespace OnChannel

variable {xs : List Exchange} {feed : Feed}

theorem asked (h : OnChannel [] feed) (request : Request) : OnChannel [.asked request] feed := by
  have hlisted : feed.listed = false := by
    cases hl : feed.listed with
    | false => rfl
    | true => exact absurd (h.listed hl) (by simp)
  have hgiven := h.quiet (by simp) (by simp)
  constructor
  case listed => simp [hlisted]
  case apart => simp
  case queued => exact h.queued
  case quiet => exact fun _ _ => hgiven
  case replied => simp
  case streamed => simp

theorem added (h : OnChannel [.asked .subscribe] feed) :
    OnChannel [.asked .subscribe, .added] (feed.apply .add) := by
  have hgiven := h.quiet (by simp) (by simp)
  constructor
  case listed => simp
  case apart => simp
  case queued => exact h.queued
  case quiet => simp
  case replied => simp
  case streamed => exact fun _ => ⟨[], none, by simpa [Feed.apply] using hgiven, by simp, by simp,
      fun _ => rfl⟩

theorem reply {request : Request} (h : OnChannel [.asked request] feed) (response : Response) :
    OnChannel [.asked request, .replied response]
      ⟨feed.listed, (feed.chan.trySend response).2⟩ := by
  have hgiven := h.quiet (by simp) (by simp)
  have hlisted : feed.listed ≠ true := fun hl => absurd (h.listed hl) (by simp)
  have hempty : feed.chan.queue.length = 0 := by simpa [hgiven] using h.queued
  have hsent := feed.chan.trySend_cases response
  rw [hgiven, List.nil_append] at hsent
  obtain ⟨-, hsent, hqueue⟩ | ⟨-, hsame, hwhy⟩ := hsent
  · constructor
    case listed => exact fun hl => absurd hl hlisted
    case apart => simp
    case queued => simp [hsent, hqueue, hempty]
    case quiet => exact fun hnot => absurd (by simp) (hnot response)
    case replied => simp [hsent]
    case streamed => simp
  · have hclosed : feed.chan.closed = true := by
      refine hwhy.resolve_right fun hfull => ?_
      rw [hempty] at hfull
      exact absurd hfull (by decide)
    constructor
    case listed => exact fun hl => absurd hl hlisted
    case apart => simp
    case queued => simpa [hsame] using h.queued
    case quiet => exact fun hnot => absurd (by simp) (hnot response)
    case replied => simp [hsame, hgiven, hclosed]
    case streamed => simp

/-- A request that was cut off is given nothing. -/
theorem cut {request : Request} (h : OnChannel xs feed) (hcut : xs <+: [.asked request]) :
    .added ∉ xs ∧ feed.chan.given = [] := by
  have hnot : ∀ x, (∀ r, x ≠ .asked r) → x ∉ xs := by
    intro x hx hmem
    exact hx request (List.mem_singleton.mp (hcut.subset hmem))
  have hadded : .added ∉ xs := hnot _ (by simp)
  exact ⟨hadded, h.quiet (fun _ => hnot _ (by simp)) hadded⟩

/-- What gives the channel nothing, and puts nobody on the list. -/
theorem spared (h : OnChannel xs feed) {feed' : Feed}
    (hlisted : feed'.listed = true → feed.listed = true)
    (hqueue : feed'.chan.queue.length ≤ feed.chan.queue.length)
    (hclosed : feed.chan.closed = true → feed'.chan.closed = true)
    (hgiven : feed'.chan.given = feed.chan.given) : OnChannel xs feed' := by
  constructor
  case listed => exact fun hl => h.listed (hlisted hl)
  case apart => exact h.apart
  case queued =>
    rw [hgiven]
    exact hqueue.trans h.queued
  case quiet =>
    rw [hgiven]
    exact h.quiet
  case replied =>
    rw [hgiven]
    exact fun response hmem => (h.replied response hmem).imp_right fun hno => ⟨hno.1, hclosed hno.2⟩
  case streamed =>
    rw [hgiven]
    intro hmem
    obtain ⟨ms, final, heq, hms, hfinal, hlast⟩ := h.streamed hmem
    exact ⟨ms, final, heq, hms, hfinal, fun hl => hlast (hlisted hl)⟩

/-- A listed client is sent a measurement, or its last message. -/
theorem sent (h : OnChannel xs feed) {feed' : Feed} {response : Response}
    (hlisted : feed.listed = true)
    (hqueue : feed'.chan.queue = feed.chan.queue ++ [response])
    (hgiven : feed'.chan.given = feed.chan.given ++ [response])
    (hwhat : response.isMeasurement = true ∨ (response.isFinal = true ∧ feed'.listed = false)) :
    OnChannel xs feed' := by
  have hadded := h.listed hlisted
  constructor
  case listed => exact fun _ => hadded
  case apart => exact h.apart
  case queued =>
    have hqueued := h.queued
    simp only [hqueue, hgiven, List.length_append]
    omega
  case quiet => exact fun _ hnot => absurd hadded hnot
  case replied => exact fun response hmem => absurd hmem (h.apart hadded response)
  case streamed =>
    intro _
    obtain ⟨ms, final, heq, hms, -, hlast⟩ := h.streamed hadded
    rw [hlast hlisted, Option.toList_none, List.append_nil] at heq
    rw [hgiven, heq]
    obtain hmeasure | ⟨hfinal, hoff⟩ := hwhat
    · refine ⟨ms ++ [response], none, by simp, fun m hm => ?_, by simp, fun _ => rfl⟩
      obtain hm | hm := List.mem_append.mp hm
      · exact hms m hm
      · rw [List.mem_singleton.mp hm]
        exact hmeasure
    · exact ⟨ms, some response, rfl, hms, by simpa using hfinal, by simp [hoff]⟩

theorem apply (h : OnChannel xs feed) {op : FeedOp} (hop : op.fits = true) :
    OnChannel xs (feed.apply op) := by
  cases op with
  | add => cases hop
  | reap =>
    refine h.spared (fun hl => ?_) (Nat.le_refl _) id rfl
    exact (Bool.and_eq_true_iff.mp hl).1
  | act act =>
    refine h.spared id ?_ ?_ (Feed.given_act feed.chan act)
    · cases act with
      | recv => simp [Feed.apply, Chan.act, Chan.recv]
      | hangUp => simp [Feed.apply, Chan.act, Chan.hangUp]
    · cases act with
      | recv => exact id
      | hangUp => exact fun _ => rfl
  | broadcast response =>
    cases hl : feed.listed with
    | false => simpa [Feed.apply, hl] using h
    | true =>
      simp only [Feed.apply, hl, if_true, Clients.retainSent]
      obtain ⟨-, hgiven, hqueue⟩ | ⟨-, hsame, -⟩ := feed.chan.trySend_cases response
      · exact h.sent hl hqueue hgiven (.inl hop)
      · exact h.spared (fun _ => hl) (by simp [hsame]) (by simp [hsame]) (by simp [hsame])
  | finish response =>
    cases hl : feed.listed with
    | false => simpa [Feed.apply, hl] using h
    | true =>
      simp only [Feed.apply, hl, if_true, Clients.retainSent]
      obtain ⟨-, hgiven, hqueue⟩ | ⟨-, hsame, -⟩ := feed.chan.trySend_cases response
      · exact h.sent hl hqueue hgiven (.inr ⟨hop, rfl⟩)
      · exact h.spared (fun hl' => absurd hl' Bool.false_ne_true) (by simp [hsame])
          (by simp [hsame]) (by simp [hsame])

end OnChannel

/-- The channels at the end of a log. -/
structure ChannelLaw (log : List Obs) (clients : Clients) : Prop where
  nodup : clients.list.Nodup
  on : ∀ c, OnChannel (exchangeOn c log) (clients.feed c)
  origin : ∀ c, (clients.chans c).given.Sublist (log.filterMap (Obs.addressed c))

theorem exchangeOn_concat (c : ClientId) (log : List Obs) (o : Obs) :
    exchangeOn c (log ++ [o]) =
      exchangeOn c log ++ (o.exchange.toList.filterMap fun x =>
      if x.1 = c then some x.2 else none) := by
  rw [exchangeOn_append]
  cases h : o.exchange <;> simp [exchangeOn, exchanges, h]

theorem addressed_concat (c : ClientId) (log : List Obs) (o : Obs) :
    (log ++ [o]).filterMap (Obs.addressed c) =
      log.filterMap (Obs.addressed c) ++ (o.addressed c).toList := by
  cases h : o.addressed c <;> simp [h]

/-- What an operation on the list gives to one of its feeds. -/
theorem given_apply {op : ClientOp} {f : FeedOp} {c : ClientId} (h : op.project c = some f)
    (feed : Feed) : (feed.apply f).chan.given.Sublist
      (feed.chan.given ++ ((Obs.clients op).addressed c).toList) := by
  have hsend : ∀ response, (feed.chan.trySend response).2.given.Sublist
      (feed.chan.given ++ [response]) := by
    intro response
    obtain ⟨-, hgiven, -⟩ | ⟨-, hsame, -⟩ := feed.chan.trySend_cases response
    · rw [hgiven]
    · rw [hsame]
      exact List.sublist_append_left _ _
  cases f with
  | add => exact List.sublist_append_left _ _
  | reap => exact List.sublist_append_left _ _
  | act act =>
    rw [show (feed.apply (.act act)).chan.given = feed.chan.given from Feed.given_act _ act]
    exact List.sublist_append_left _ _
  | broadcast response =>
    obtain rfl : op = .broadcast response := by
      unfold ClientOp.project at h
      split at h <;> simp_all
    cases hl : feed.listed with
    | false => simp [Feed.apply, hl, Obs.addressed]
    | true => simpa [Feed.apply, hl, Clients.retainSent, Obs.addressed] using hsend response
  | finish response =>
    have hto : (Obs.clients op).addressed c = some response := by
      unfold ClientOp.project at h
      split at h <;> simp_all [Obs.addressed]
    cases hl : feed.listed with
    | false => simp [Feed.apply, hl, hto]
    | true => simpa [Feed.apply, hl, Clients.retainSent, hto] using hsend response

namespace ChannelLaw

variable {clients : Clients}

/-- An observation that is no exchange and gives nothing. -/
theorem silent (h : ChannelLaw log clients) {o : Obs} (hexchange : o.exchange = none)
    (haddressed : ∀ c, o.addressed c = none) : ChannelLaw (log ++ [o]) clients := by
  refine ⟨h.nodup, fun c => ?_, fun c => ?_⟩
  · rw [exchangeOn_concat, hexchange]
    simpa using h.on c
  · simpa [haddressed c] using h.origin c

/-- An operation on the list, other than a client joining it. -/
theorem op (h : ChannelLaw log clients) {op : ClientOp} (hadded : op.added = none)
    (hmeasures : ∀ response, op = .broadcast response → response.isMeasurement = true) :
    ChannelLaw (log ++ [.clients op]) (clients.apply op) := by
  have hexchange : (Obs.clients op).exchange = none := by
    cases op with
    | add tx => cases hadded
    | _ => rfl
  have hfits : ∀ c f, op.project c = some f → f.fits = true := by
    intro c f hf
    cases op with
    | add tx => cases hadded
    | act tx act =>
      simp only [ClientOp.project] at hf
      split at hf <;> cases hf
      rfl
    | broadcast response =>
      cases hf
      exact hmeasures response rfl
    | _ =>
      cases hf
      rfl
  refine ⟨h.nodup.sublist (Clients.list_apply_sublist h.nodup hadded), fun c => ?_, fun c => ?_⟩
  · rw [exchangeOn_concat, hexchange, Clients.feed_apply h.nodup]
    cases hf : op.project c with
    | none => simpa using h.on c
    | some f => simpa using (h.on c).apply (hfits c f hf)
  · have hgiven : ((clients.apply op).chans c).given.Sublist
        ((clients.chans c).given ++ ((Obs.clients op).addressed c).toList) := by
      show ((clients.apply op).feed c).chan.given.Sublist _
      rw [Clients.feed_apply h.nodup]
      cases hf : op.project c with
      | none => exact List.sublist_append_left _ _
      | some f => exact given_apply hf (clients.feed c)
    rw [addressed_concat]
    exact hgiven.trans ((h.origin c).append_right _)

/-- The clients act on their queues. -/
theorem acts (h : ChannelLaw log clients) (acts : List (ClientId × ClientAct)) :
    ChannelLaw log (clients.run (acts.map fun x => .act x.1 x.2)) := by
  induction acts generalizing clients with
  | nil => exact h
  | cons x acts ih =>
    refine ih ?_
    have hact : ChannelLaw (log ++ [.clients (.act x.1 x.2)]) (clients.apply (.act x.1 x.2)) :=
      h.op rfl (by simp)
    refine ⟨hact.nodup, fun c => ?_, fun c => ?_⟩
    · have hon := hact.on c
      rw [exchangeOn_concat] at hon
      simpa [Obs.exchange] using hon
    · have horigin := hact.origin c
      rw [addressed_concat] at horigin
      simpa [Obs.addressed] using horigin

/-- A request begins. -/
theorem asked (h : ChannelLaw log clients) (tx : ClientId) (request : Request)
    (hunderway : Underway (exchangeOn tx (log ++ [.request tx request]))) :
    ChannelLaw (log ++ [.request tx request]) clients := by
  refine ⟨h.nodup, fun c => ?_, fun c => ?_⟩
  · by_cases hc : tx = c
    · subst hc
      have hown : exchangeOn tx (log ++ [.request tx request]) =
          exchangeOn tx log ++ [.asked request] := by simp [exchangeOn_concat, Obs.exchange]
      rw [hown] at hunderway ⊢
      have hon := h.on tx
      rw [hunderway.last] at hon ⊢
      exact hon.asked request
    · simpa [exchangeOn_concat, Obs.exchange, hc] using h.on c
  · rw [addressed_concat]
    simpa [Obs.addressed] using h.origin c

/-- A reply goes into the channel of its request. -/
theorem replied (h : ChannelLaw log clients) (tx : ClientId) (response : Response)
    (hunderway : Underway (exchangeOn tx (log ++ [.reply tx response]))) :
    ChannelLaw (log ++ [.reply tx response]) ((Obs.reply tx response).replay clients) := by
  have hchans : ((Obs.reply tx response).replay clients).chans =
      Function.update clients.chans tx ((clients.chans tx).trySend response).2 := rfl
  refine ⟨h.nodup, fun c => ?_, fun c => ?_⟩
  · by_cases hc : tx = c
    · subst hc
      have hown : exchangeOn tx (log ++ [.reply tx response]) =
          exchangeOn tx log ++ [.replied response] := by simp [exchangeOn_concat, Obs.exchange]
      have hfeed : ((Obs.reply tx response).replay clients).feed tx =
          ⟨(clients.feed tx).listed, ((clients.feed tx).chan.trySend response).2⟩ := by
        rw [Clients.feed, hchans, Function.update_self]
        rfl
      rw [hown] at hunderway ⊢
      obtain ⟨request, hasked⟩ := hunderway.last
      have hon := h.on tx
      rw [hasked] at hon ⊢
      rw [hfeed]
      exact hon.reply response
    · have hfeed : ((Obs.reply tx response).replay clients).feed c = clients.feed c := by
        rw [Clients.feed, hchans, Function.update_of_ne (Ne.symm hc)]
        rfl
      rw [hfeed]
      simpa [exchangeOn_concat, Obs.exchange, hc] using h.on c
  · rw [addressed_concat, hchans]
    by_cases hc : tx = c
    · subst hc
      have haddressed : (Obs.reply tx response).addressed tx = some response := if_pos rfl
      rw [Function.update_self, haddressed, Option.toList_some]
      obtain ⟨-, hgiven, -⟩ | ⟨-, hsame, -⟩ := (clients.chans tx).trySend_cases response
      · rw [hgiven]
        exact (h.origin tx).append_right [response]
      · rw [hsame]
        exact (h.origin tx).trans (List.sublist_append_left _ _)
    · rw [Function.update_of_ne (Ne.symm hc)]
      simpa [Obs.addressed, hc] using h.origin c

/-- A client joins the list. -/
theorem joined (h : ChannelLaw log clients) (tx : ClientId)
    (hunderway : Underway (exchangeOn tx (log ++ [.clients (.add tx)]))) :
    ChannelLaw (log ++ [.clients (.add tx)]) (clients.apply (.add tx)) := by
  have hown : exchangeOn tx (log ++ [.clients (.add tx)]) = exchangeOn tx log ++ [.added] := by
    simp [exchangeOn_concat, Obs.exchange]
  rw [hown] at hunderway
  have hon := h.on tx
  rw [hunderway.last] at hon
  have hnew : tx ∉ clients.list := by
    intro hmem
    have hadded := hon.listed (by simpa [Clients.feed] using hmem)
    simp at hadded
  refine ⟨?_, fun c => ?_, fun c => ?_⟩
  · show (clients.list ++ [tx]).Nodup
    exact List.nodup_append.mpr ⟨h.nodup, List.nodup_singleton tx, fun a ha b hb heq => hnew
      (List.mem_singleton.mp hb ▸ heq ▸ ha)⟩
  · rw [Clients.feed_apply h.nodup]
    by_cases hc : tx = c
    · subst hc
      rw [hown, hunderway.last]
      simpa [ClientOp.project] using hon.added
    · simpa [exchangeOn_concat, Obs.exchange, hc, ClientOp.project] using h.on c
  · rw [addressed_concat]
    show (clients.chans c).given.Sublist _
    simpa [Obs.addressed] using h.origin c

/-- One more observation: the channels keep in step with the exchanges. -/
theorem after (h : ChannelLaw log clients) (o : Obs)
    (hunderway : ∀ c, Underway (exchangeOn c (log ++ [o])))
    (hmeasures : ∀ response, o.broadcastOf = some response → response.isMeasurement = true) :
    ChannelLaw (log ++ [o]) (o.replay clients) := by
  cases o with
  | request tx request => exact h.asked tx request (hunderway tx)
  | reply tx response => exact h.replied tx response (hunderway tx)
  | clients op =>
    cases op with
    | add tx => exact h.joined tx (hunderway tx)
    | broadcast response =>
      refine h.op rfl fun response' heq => ?_
      cases heq
      exact hmeasures response rfl
    | _ => exact h.op rfl (by simp)
  | meanwhile acts => exact (h.acts acts).silent rfl fun _ => rfl
  | _ => exact h.silent rfl fun _ => rfl

end ChannelLaw

/-- The channels at the end of a log whose exchanges are in order. -/
theorem channelLaw {start : Clients} (hlist : start.list = []) (hchans : ∀ c, start.chans c = .new)
    {log : List Obs} (hunderway : ∀ c, Underway (exchangeOn c log))
    (hmeasures : ∀ o ∈ log, ∀ response, o.broadcastOf = some response →
      response.isMeasurement = true) : ChannelLaw log (log.foldl Obs.replay start) := by
  induction log using List.reverseRecOn with
  | nil =>
    refine ⟨by simp [hlist], fun c => ?_, fun c => by simp [hchans, Chan.new]⟩
    have hfeed : start.feed c = ⟨false, .new⟩ := by simp [Clients.feed, hlist, hchans]
    rw [List.foldl_nil, hfeed]
    constructor <;> simp [exchangeOn, exchanges, Chan.new]
  | append_singleton log o ih =>
    rw [List.foldl_append]
    refine (ih (fun c => ?_) fun o ho => hmeasures o (by simp [ho])).after o hunderway
      (hmeasures o (by simp))
    have hc := hunderway c
    rw [exchangeOn_append] at hc
    exact hc.of_append

theorem Settled.underway {ys : List Exchange} (h : Settled request ys) : Underway ys :=
  ⟨request, ys, h, List.prefix_refl ys⟩

/-- Every request can be settled. -/
theorem exists_settled (request : Request) :
    ∃ ys, Settled request ys ∧ [.asked request] <+: ys := by
  cases request with
  | ping => exact ⟨_, .ping, List.prefix_refl _⟩
  | shutdown => exact ⟨_, .shutdown, List.prefix_refl _⟩
  | subscribe => exact ⟨_, .added, by simp⟩
  | _ => exact ⟨[_, .replied (.error "")], .replied rfl, by simp⟩

theorem ExchangeLaw.underway {labels : List (Event × List Answer)} {agent : Agent}
    (h : ExchangeLaw labels agent) (c : ClientId) : Underway (exchangeOn c agent.log) := by
  by_cases hc : c ∈ (commandsOf labels).map ActorCommand.tx
  · obtain ⟨cmd, hcmd, rfl⟩ := List.mem_map.mp hc
    obtain hsettled | ⟨-, hcut⟩ := h.asked cmd hcmd
    · exact hsettled.underway
    · obtain ⟨ys, hys, hprefix⟩ := exists_settled cmd.request
      exact ⟨_, ys, hys, hcut.trans hprefix⟩
  · rw [h.unasked c hc]
    exact ⟨.ping, _, .ping, List.nil_prefix⟩

/-- What is broadcast is a measurement. -/
theorem StreamLaw.measures {start : Clients} (h : StreamLaw chrono start log a) :
    ∀ o ∈ log, ∀ response, o.broadcastOf = some response → response.isMeasurement = true := by
  intro o ho response hbroadcast
  obtain ⟨pre, post, hlog⟩ := List.append_of_mem ho
  rw [h.broadcast pre o post hlog] at hbroadcast
  obtain ⟨last, -, howed⟩ := Option.bind_eq_some_iff.mp hbroadcast
  unfold owed at howed
  split at howed
  · cases howed
  · obtain ⟨m, -, rfl⟩ := Option.map_eq_some_iff.mp howed
    rfl
  · cases howed

theorem ChannelLaw.of_fan {clients clients' : Clients} (h : ChannelLaw log clients)
    (hfan : clients'.fan = clients.fan) : ChannelLaw log clients' := by
  obtain ⟨list, chans, stats⟩ := clients
  obtain ⟨list', chans', stats'⟩ := clients'
  obtain ⟨rfl, rfl⟩ : list' = list ∧ chans' = chans := Prod.ext_iff.mp hfan
  exact ⟨h.nodup, h.on, h.origin⟩

/-- Over a run, the channels keep in step with the exchanges. -/
theorem channel_run (chrono : Chrono) (conn : Connection) (interval now : Nat)
    (metricsListen : Option String) (pollAlways : Bool) {labels : List (Event × List Answer)}
    {agent : Agent}
    (hrun : Transition.run (Agent.step chrono)
      (.start conn interval now metricsListen pollAlways) labels = some agent)
    (hown : OwnChannels labels) :
    ExchangeLaw labels agent ∧ ChannelLaw agent.log agent.actor.clients := by
  have hexchanges := exchange_run chrono rfl hrun hown
  have hstream := (stable_streamLaw chrono _).run
    (streamLaw_start chrono conn interval now metricsListen pollAlways) hrun
  exact ⟨hexchanges, (channelLaw rfl (fun _ => rfl) hexchanges.underway hstream.measures).of_fan
    hstream.replay⟩

end Zone

end Btwattch2
