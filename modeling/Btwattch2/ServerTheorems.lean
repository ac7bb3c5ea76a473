/-
Btwattch2.ServerTheorems — how each request is answered.

A handler relays what comes out of the channel of its request, which is what the
actor put in, in that order. So a request is answered as its exchange with the
actor went: with one line, or for a subscribe with measurements and at most one
last message (`answered_in_shape`). A line that is not UTF-8 is no request, and
is not answered at all (`unreadable_unanswered`).
-/
import Mathlib.Data.List.ReduceOption
import Btwattch2.ExchangeTheorems
import Btwattch2.Server

namespace Btwattch2

open Lib

/-! ## What a handler does -/

/-- Every line that was due could be written: the client keeps reading. -/
def KeepsUp (log : List ServerObs) : Prop := ∀ response, .wrote response false ∉ log

/-- A line the handler answers itself, with one line, or has not answered yet. -/
structure Once (admits : Response → Bool) (log : List ServerObs) (finished : Bool) : Prop where
  alone : ∀ request, .submitted request ∉ log
  atMost : linesOf log = [] ∨ ∃ response, admits response = true ∧ linesOf log = [response]
  exactly : finished = true → KeepsUp log → linesOf log ≠ []

/-- A request the actor was given. What was received was written, up to where the
handler is, and it ends with a line or with the end of the channel. -/
structure Relays (request : Request) (told : List (Option Response)) (log : List ServerObs)
    (finished : Bool) : Prop where
  submitted : ∀ r, .submitted r ∈ log ↔ r = request
  work : request ≠ .ping ∧ request ≠ .shutdown
  lines : linesOf log <+: told.reduceOption
  all : finished = true → KeepsUp log →
    linesOf log = told.reduceOption ∧ (linesOf log ≠ [] ∨ none ∈ told)

@[simp] theorem linesOf_append (log obs : List ServerObs) :
    linesOf (log ++ obs) = linesOf log ++ linesOf obs := List.filterMap_append

@[simp] theorem linesOf_wrote (response : Response) (ok : Bool) :
    linesOf [.wrote response ok] = if ok then [response] else [] := by
  cases ok <;> rfl

section

variable {told : List (Option Response)} {log : List ServerObs}

theorem wpTold_writeMessage {response : Response}
    {Q : Bool → List (Option Response) → List ServerObs → Unit → Prop}
    {E : List (Option Response) → List ServerObs → Unit → Prop} (hE : E told log ())
    (hQ : ∀ ok, Q ok told (log ++ [.wrote response ok]) ()) :
    Await.wpTold ServerAnswer.asRecv (writeMessage response) Q E told log () := by
  refine Await.wpTold_bind (Await.wpTold_awaitOther (fun a ok hok => ?_) hE fun ok =>
    Await.wpTold_bind (Await.wpTold_observe (Await.wpTold_pure (hQ ok))))
  cases a with
  | recv _ => cases hok
  | _ => rfl

/-- One line, and no more. -/
theorem Once.written {admits : Response → Bool} {response : Response}
    (hadmits : admits response = true) (ok : Bool) : Once admits [.wrote response ok] true := by
  constructor
  case alone => simp
  case atMost =>
    cases ok with
    | false => exact .inl rfl
    | true => exact .inr ⟨response, hadmits, rfl⟩
  case exactly =>
    intro _ hkeeps
    cases ok with
    | false => exact absurd (by simp) (hkeeps response)
    | true => exact List.cons_ne_nil _ _

theorem Once.waiting {admits : Response → Bool} : Once admits [] false :=
  ⟨by simp, .inl rfl, fun h => nomatch h⟩

theorem Once.notified {admits : Response → Bool} {finished : Bool} (h : Once admits log finished) :
    Once admits (log ++ [.notified]) finished := by
  have hlines : linesOf (log ++ [.notified]) = linesOf log := by simp [linesOf]
  constructor
  case alone => simpa using h.alone
  case atMost =>
    rw [hlines]
    exact h.atMost
  case exactly =>
    rw [hlines]
    exact fun hfin hkeeps => h.exactly hfin fun response hmem => hkeeps response (by simp [hmem])

/-- So far, everything that was received was written. -/
structure Relaying (request : Request) (told : List (Option Response)) (log : List ServerObs) :
    Prop where
  submitted : ∀ r, .submitted r ∈ log ↔ r = request
  work : request ≠ .ping ∧ request ≠ .shutdown
  lines : linesOf log = told.reduceOption

namespace Relaying

variable {request : Request}

theorem relays (h : Relaying request told log) : Relays request told log false :=
  ⟨h.submitted, h.work, by rw [h.lines], fun hfin => nomatch hfin⟩

/-- The channel has ended. -/
theorem ended (h : Relaying request told log) : Relays request (told ++ [none]) log true := by
  have hlines : linesOf log = (told ++ [none]).reduceOption := by
    simp [h.lines, List.reduceOption_append, List.reduceOption_cons_of_none]
  exact ⟨h.submitted, h.work, by rw [hlines], fun _ _ => ⟨hlines, .inr (by simp)⟩⟩

/-- A response has come, and is not written yet. -/
theorem waiting (h : Relaying request told log) (response : Response) :
    Relays request (told ++ [some response]) log false := by
  refine ⟨h.submitted, h.work, ?_, fun hfin => nomatch hfin⟩
  rw [h.lines, List.reduceOption_append]
  exact List.prefix_append _ _

/-- It could not be written. -/
theorem broken (h : Relaying request told log) (response : Response) :
    Relays request (told ++ [some response]) (log ++ [.wrote response false]) true := by
  refine ⟨by simp [h.submitted], h.work, ?_, fun _ hkeeps => absurd (by simp) (hkeeps response)⟩
  rw [linesOf_append, h.lines, List.reduceOption_append]
  simp

theorem wrote (h : Relaying request told log) (response : Response) :
    Relaying request (told ++ [some response]) (log ++ [.wrote response true]) :=
  ⟨by simp [h.submitted], h.work, by
    rw [linesOf_append, h.lines, List.reduceOption_append, List.reduceOption_cons_of_some]
    rfl⟩

/-- What was written last ends the request. -/
theorem last (h : Relaying request told log) (hlines : linesOf log ≠ []) :
    Relays request told log true :=
  ⟨h.submitted, h.work, by rw [h.lines], fun _ _ => ⟨h.lines, .inl hlines⟩⟩

end Relaying

/-- The responses are written as they come out of the channel. -/
theorem wpTold_relayResponses {request : Request} (h : Relaying request [] log) :
    Await.wpTold ServerAnswer.asRecv relayResponses
      (fun _ told log' _ => Relays request told log' true)
      (fun told log' _ => Relays request told log' false) [] log () := by
  refine Await.wpTold_loop (I := fun told log' _ => Relaying request told log') h
    (fun _ _ _ h => h.relays) ?_
  intro told log' _ h
  refine Await.wpTold_bind (Await.wpTold_await h.relays fun answer x hx => ?_)
  rw [hx, Option.toList_some]
  cases x with
  | none => exact Await.wpTold_pure h.ended
  | some response =>
    refine Await.wpTold_bind (wpTold_writeMessage (h.waiting response) fun ok => ?_)
    cases ok with
    | false => exact Await.wpTold_pure (h.broken response)
    | true =>
      have hwrote := h.wrote response
      simp only [Bool.true_and]
      split
      · exact Await.wpTold_pure hwrote
      · exact Await.wpTold_pure (hwrote.last (by simp))

theorem controlResponse_admits {request : Request} {gone : Bool} {info : AgentInfo} {now : Nat}
    {response : Response} (h : controlResponse request gone info now = some response) :
    request.admits response = true := by
  unfold controlResponse at h
  split at h
  · split at h <;> cases h <;> rfl
  · cases h
    rfl
  · cases h

theorem controlResponse_work {request : Request} {gone : Bool} {info : AgentInfo} {now : Nat}
    (h : controlResponse request gone info now = none) :
    request ≠ .ping ∧ request ≠ .shutdown := by
  constructor
  · rintro rfl
    unfold controlResponse at h
    dsimp only at h
    split at h <;> cases h
  · rintro rfl
    cases h

/-- All but a shutdown may fail. -/
theorem admits_error {request : Request} (h : request ≠ .shutdown) (message : String) :
    request.admits (.error message) = true := by
  cases request with
  | shutdown => exact absurd rfl h
  | _ => rfl

/-- A request the handler answers itself, or cannot hand on, is answered once;
any other is relayed. -/
theorem wpTold_serveRequest {addr : BDAddr} {request : Request} :
    Await.wpTold ServerAnswer.asRecv (serveRequest addr request)
      (fun _ told log _ => Once request.admits log true ∨ Relays request told log true)
      (fun told log _ => Once request.admits log false ∨
      Relays request told log false) [] [] () := by
  have hwaiting : ∀ told, Once request.admits [] false ∨ Relays request told [] false :=
    fun _ => .inl .waiting
  unfold serveRequest
  refine Await.wpTold_bind (Await.wpTold_awaitOther (fun a seen hseen => ?_)
    (hwaiting _) fun seen => ?_)
  · cases a with
    | recv _ => cases hseen
    | _ => rfl
  obtain ⟨gone, stats, now⟩ := seen
  dsimp only
  split
  case h_1 response hcontrol =>
    refine Await.wpTold_bind (wpTold_writeMessage (hwaiting _) fun ok => ?_)
    have honce := Once.written (controlResponse_admits hcontrol) ok
    split
    · exact Await.wpTold_observe (.inl honce.notified)
    · exact Await.wpTold_pure (.inl honce)
  case h_2 hcontrol =>
    have hwork := controlResponse_work hcontrol
    refine Await.wpTold_bind (Await.wpTold_awaitOther (fun a ok hok => ?_)
      (hwaiting _) fun ok => ?_)
    · cases a with
      | recv _ => cases hok
      | _ => rfl
    cases ok with
    | true =>
      refine Await.wpTold_bind (Await.wpTold_observe ?_)
      exact Await.wpTold_mono (wpTold_relayResponses ⟨by simp, hwork, rfl⟩)
        (fun _ _ _ _ h => .inr h)
        fun _ _ _ h => .inr h
    | false =>
      exact Await.wpTold_bind (wpTold_writeMessage (hwaiting _) fun ok =>
        Await.wpTold_pure (.inl (.written (admits_error hwork.2 _) ok)))

end

/-! ## A connection -/

/-- One connection: the line that was read, and how its handler went on. -/
structure Handling (parse : String → Except String Request) (addr : BDAddr) where
  bytes : List UInt8
  answers : List ServerAnswer
  finished : Bool
  log : List ServerObs
  runs : handleClient parse addr ⟨.line (some bytes) :: answers, [], ()⟩ =
    (if finished then some () else none, ⟨[], log, ()⟩)

namespace Handling

variable {parse : String → Except String Request} {addr : BDAddr} (h : Handling parse addr)

/-- What the channel of the request said. -/
def told : List (Option Response) := h.answers.filterMap ServerAnswer.asRecv

/-- What was received on it. -/
def received : List Response := h.told.reduceOption

def lines : List Response := linesOf h.log

variable {h}

/-- What holds of the handler's work on a line holds of the connection. -/
theorem of_wpTold {x : ServerM Unit} {P : List (Option Response) → List ServerObs → Bool → Prop}
    (hx : handleClient parse addr ⟨.line (some h.bytes) :: h.answers, [], ()⟩ =
      x ⟨h.answers, [], ()⟩)
    (hwp : Await.wpTold ServerAnswer.asRecv x (fun _ told log _ => P told log true)
      (fun told log _ => P told log false) [] [] ()) : P h.told h.log h.finished := by
  obtain ⟨used, htape, hP⟩ := hwp h.answers
  rw [← hx, h.runs] at htape hP
  obtain rfl : h.answers = used := by simpa using htape
  cases hfin : h.finished <;> simpa [hfin, told] using hP

/-- What is no text is not answered. -/
theorem of_unreadable (htext : lineText h.bytes = none) :
    h.finished = true ∧ h.log = [] := by
  have hx : handleClient parse addr ⟨.line (some h.bytes) :: h.answers, [], ()⟩ =
      (pure () : ServerM Unit) ⟨h.answers, [], ()⟩ := by
    simp [handleClient, bind, Await.await, ServerAnswer.asLine, htext]
  refine of_wpTold (P := fun _ log finished => finished = true ∧ log = []) hx ?_
  exact Await.wpTold_pure ⟨rfl, rfl⟩

/-- What is no request is answered with an error that says so. -/
theorem of_invalid {text e : String} (htext : lineText h.bytes = some text)
    (hparse : parse text = .error e) :
    Once (fun response => response == .error s!"invalid request: {e}") h.log h.finished := by
  have hx : handleClient parse addr ⟨.line (some h.bytes) :: h.answers, [], ()⟩ =
      (do
        let _ ← writeMessage (.error s!"invalid request: {e}")
        pure () : ServerM Unit) ⟨h.answers, [], ()⟩ := by
    simp [handleClient, bind, Await.await, ServerAnswer.asLine, htext, hparse]
  refine of_wpTold (P := fun _ log finished => Once _ log finished) hx ?_
  exact Await.wpTold_bind (wpTold_writeMessage .waiting fun ok =>
    Await.wpTold_pure (.written (by simp) ok))

theorem of_request {text : String} {request : Request} (htext : lineText h.bytes = some text)
    (hparse : parse text = .ok request) :
    Once request.admits h.log h.finished ∨ Relays request h.told h.log h.finished := by
  have hx : handleClient parse addr ⟨.line (some h.bytes) :: h.answers, [], ()⟩ =
      serveRequest addr request ⟨h.answers, [], ()⟩ := by
    simp [handleClient, bind, Await.await, ServerAnswer.asLine, htext, hparse]
  exact of_wpTold (P := fun told log finished => Once request.admits log finished ∨
    Relays request told log finished) hx wpTold_serveRequest

/-- What was given to the actor is relayed. -/
theorem relays_of_submitted {request : Request} (hsubmitted : .submitted request ∈ h.log) :
    Relays request h.told h.log h.finished := by
  cases htext : lineText h.bytes with
  | none =>
    rw [(of_unreadable htext).2] at hsubmitted
    cases hsubmitted
  | some text =>
    cases hparse : parse text with
    | error e => exact absurd hsubmitted ((of_invalid htext hparse).alone request)
    | ok r =>
      obtain honce | hrelays := of_request htext hparse
      · exact absurd hsubmitted (honce.alone request)
      · obtain rfl := (hrelays.submitted request).mp hsubmitted
        exact hrelays

end Handling

/-! ## A connection and the actor -/

/-- The channel of a request, between the handler that reads it and a run of the
actor. What comes out of it went into it, in that order. That it has ended is
told when the actor is done with the command or has stopped, and what went in
has come out; the receiver is the handler's own, and still there. -/
structure Attached {parse : String → Except String Request} {addr : BDAddr}
    (handling : Handling parse addr) (chrono : Chrono) (start : Agent)
    (labels : List (Event × List Answer)) (agent : Agent) (c : ClientId) : Prop where
  command : ∀ cmd ∈ commandsOf labels, cmd.tx = c → .submitted cmd.request ∈ handling.log
  received : handling.received <+: (agent.actor.clients.chans c).given
  ended : none ∈ handling.told → ∃ labels₁ agent₁, labels₁ <+: labels ∧
    Transition.run (Agent.step chrono) start labels₁ = some agent₁ ∧
    (c ∈ (commandsOf labels₁).map ActorCommand.tx ∨ agent₁.running = false) ∧
    (agent₁.actor.clients.chans c).closed = false ∧
    (agent₁.actor.clients.chans c).given <+: handling.received

/-- Measurements, and after them at most one last line. -/
def Streams (lines : List Response) : Prop :=
  ∃ (ms : List Response) (final : Option Response), lines = ms ++ final.toList ∧
    (∀ m ∈ ms, m.isMeasurement = true) ∧ ∀ x ∈ final, x.isFinal = true

/-- The lines a request has been answered with, in its own shape; and when its
connection is `ended`, it has been answered. -/
def Request.AnsweredBy (request : Request) (lines : List Response) (ended : Prop) : Prop :=
  match request with
  | .subscribe => Streams lines
  | _ => (lines = [] ∨ ∃ response, request.admits response = true ∧ lines = [response]) ∧
    (ended → lines ≠ [])

/-- Only a subscribe is answered by a stream. -/
theorem Request.answeredBy_of_ne {request : Request} (hone : request ≠ .subscribe)
    {lines : List Response} {ended : Prop}
    (h : (lines = [] ∨ ∃ response, request.admits response = true ∧ lines = [response]) ∧
      (ended → lines ≠ [])) : request.AnsweredBy lines ended := by
  cases request <;> first | exact h | exact absurd rfl hone

theorem Streams.empty : Streams [] := ⟨[], none, rfl, by simp, by simp⟩

theorem Streams.of_admitted {response : Response} (h : Request.subscribe.admits response = true) :
    Streams [response] := by
  refine ⟨[], some response, rfl, by simp, fun x hx => ?_⟩
  cases hx
  cases response <;> first | rfl | cases h

theorem Streams.of_prefix {lines lines' : List Response} (h : Streams lines')
    (hpre : lines <+: lines') : Streams lines := by
  obtain ⟨ms, final, rfl, hms, hfinal⟩ := h
  have hshort : lines <+: ms → Streams lines := fun hlines =>
    ⟨lines, none, by simp, fun m hm => hms m (hlines.subset hm), by simp⟩
  cases final with
  | none => exact hshort (by simpa using hpre)
  | some x =>
    obtain rfl | hlines := List.prefix_concat_iff.mp hpre
    · exact ⟨ms, some x, rfl, hms, hfinal⟩
    · exact hshort hlines

section Zone

variable {chrono : Chrono} {agent : Agent} {labels : List (Event × List Answer)}

/-- A loop that is running has been running. -/
theorem running_of_run {agent₁ : Agent}
    (hrun : Transition.run (Agent.step chrono) agent₁ labels = some agent)
    (hrunning : agent.running = true) : agent₁.running = true := by
  cases labels with
  | nil =>
    cases hrun
    exact hrunning
  | cons label labels =>
    obtain ⟨agent₂, hstep, -⟩ := Transition.run_cons hrun
    exact Agent.running_of_step hstep

variable {cmd : ActorCommand}

/-- What the channel of a request that is no subscribe is given: one reply. -/
theorem given_oneshot (hlaw : ExchangeLaw labels agent)
    (hchannels : ChannelLaw agent.log agent.actor.clients) (hcmd : cmd ∈ commandsOf labels)
    (hone : cmd.request ≠ .subscribe) :
    cmd.tx ∉ agent.actor.clients.list ∧ ((agent.actor.clients.chans cmd.tx).given = [] ∨
      ∃ response, cmd.request.admits response = true ∧
        (agent.actor.clients.chans cmd.tx).given = [response]) ∧
    (cmd.request ≠ .ping ∧ cmd.request ≠ .shutdown → agent.running = true →
      (agent.actor.clients.chans cmd.tx).closed = false →
      (agent.actor.clients.chans cmd.tx).given ≠ []) := by
  obtain ⟨request, tx⟩ := cmd
  have hasked := hlaw.asked _ hcmd
  have hon := hchannels.on tx
  have hlisted : .added ∉ exchangeOn tx agent.log → tx ∉ agent.actor.clients.list := by
    intro hnot hmem
    exact hnot (hon.listed (by simpa [Clients.feed] using hmem))
  dsimp only at hasked hone ⊢
  generalize exchangeOn tx agent.log = xs at hasked hon hlisted
  obtain hsettled | ⟨hstopped, hcut⟩ := hasked
  · cases hsettled with
    | @replied _ response hadmits =>
      have hgiven := hon.replied response (by simp)
      refine ⟨hlisted (by simp), ?_, fun _ _ hopen hnil => ?_⟩
      · exact hgiven.symm.imp And.left fun hgiven => ⟨response, hadmits, hgiven⟩
      · obtain hsome | ⟨-, hclosed⟩ := hgiven
        · exact absurd (hsome.symm.trans hnil) (by simp)
        · exact absurd (hclosed.symm.trans hopen) (by simp)
    | added => exact absurd rfl hone
    | ping => exact ⟨hlisted (by simp), .inl (hon.quiet (by simp) (by simp)), by simp⟩
    | shutdown => exact ⟨hlisted (by simp), .inl (hon.quiet (by simp) (by simp)), by simp⟩
  · obtain ⟨hadded, hgiven⟩ := hon.cut hcut
    refine ⟨hlisted hadded, .inl hgiven, fun _ hrun => ?_⟩
    rw [hstopped] at hrun
    cases hrun

/-- What the channel of a subscribe is given. -/
theorem given_subscribe (hlaw : ExchangeLaw labels agent)
    (hchannels : ChannelLaw agent.log agent.actor.clients) (hcmd : cmd ∈ commandsOf labels)
    (hsubscribe : cmd.request = .subscribe) :
    Streams (agent.actor.clients.chans cmd.tx).given := by
  obtain ⟨request, tx⟩ := cmd
  obtain rfl : request = .subscribe := hsubscribe
  have hasked := hlaw.asked _ hcmd
  have hon := hchannels.on tx
  have hnil : (agent.actor.clients.chans tx).given = [] →
      Streams (agent.actor.clients.chans tx).given := fun h => h ▸ Streams.empty
  dsimp only at hasked ⊢
  generalize exchangeOn tx agent.log = xs at hasked hon
  obtain hsettled | ⟨-, hcut⟩ := hasked
  · cases hsettled with
    | @replied _ response hadmits =>
      obtain hsome | ⟨hnone, -⟩ := hon.replied response (by simp)
      · have hgiven : (agent.actor.clients.chans tx).given = [response] := hsome
        rw [hgiven]
        exact .of_admitted hadmits
      · exact hnil hnone
    | added =>
      obtain ⟨ms, final, hgiven, hms, hfinal, -⟩ := hon.streamed (by simp)
      exact ⟨ms, final, hgiven, hms, hfinal⟩
  · exact hnil (hon.cut hcut).2

/-! ## Every request is answered in its own shape -/

/-- How the line of a connection is answered, on a channel of a run. -/
structure AnsweredInShape {parse : String → Except String Request} {addr : BDAddr}
    (handling : Handling parse addr) (labels : List (Event × List Answer)) (agent : Agent)
    (c : ClientId) : Prop where
  unreadable : lineText handling.bytes = none → handling.finished = true ∧ handling.lines = []
  invalid : ∀ text e, lineText handling.bytes = some text → parse text = .error e →
    (handling.lines = [] ∨ handling.lines = [.error s!"invalid request: {e}"]) ∧
      (handling.finished = true → handling.lines ≠ [])
  request : ∀ text request, lineText handling.bytes = some text → parse text = .ok request →
    request.AnsweredBy handling.lines (handling.finished = true ∧ agent.running = true)
  /-- Nothing that was meant for another channel. -/
  own : ∀ request, .submitted request ∈ handling.log →
    handling.lines.Sublist (agent.log.filterMap (Obs.addressed c))
  /-- A reply is not waited for in vain: it is there, and nothing comes after it. -/
  due : ∀ cmd ∈ commandsOf labels, cmd.tx = c → cmd.request ≠ .subscribe → agent.running = true →
    c ∉ agent.actor.clients.list ∧ ((agent.actor.clients.chans c).closed = false →
      (agent.actor.clients.chans c).given ≠ [])

section

variable {parse : String → Except String Request} {addr : BDAddr} {handling : Handling parse addr}
  {start : Agent} {c : ClientId} {request : Request}

/-- The command on the channel is the request that was read. -/
theorem Attached.request_eq (h : Attached handling chrono start labels agent c)
    (hrelays : Relays request handling.told handling.log handling.finished)
    (hcmd : cmd ∈ commandsOf labels) (htx : cmd.tx = c) : cmd.request = request :=
  (hrelays.submitted _).mp (h.command cmd hcmd htx)

theorem Attached.lines_prefix (h : Attached handling chrono start labels agent c)
    (hrelays : Relays request handling.told handling.log handling.finished) :
    handling.lines <+: (agent.actor.clients.chans c).given :=
  hrelays.lines.trans h.received

/-- A channel no command came on is given nothing. -/
theorem given_unasked (hlaw : ExchangeLaw labels agent)
    (hchannels : ChannelLaw agent.log agent.actor.clients)
    (hc : c ∉ (commandsOf labels).map ActorCommand.tx) :
    (agent.actor.clients.chans c).given = [] := by
  have hon := hchannels.on c
  rw [hlaw.unasked c hc] at hon
  exact hon.quiet (by simp) (by simp)

theorem Attached.atMost (h : Attached handling chrono start labels agent c)
    (hlaw : ExchangeLaw labels agent) (hchannels : ChannelLaw agent.log agent.actor.clients)
    (hrelays : Relays request handling.told handling.log handling.finished)
    (hone : request ≠ .subscribe) :
    handling.lines = [] ∨ ∃ response, request.admits response = true ∧
    handling.lines = [response] := by
  have hlines := h.lines_prefix hrelays
  by_cases hc : c ∈ (commandsOf labels).map ActorCommand.tx
  · obtain ⟨cmd, hcmd, rfl⟩ := List.mem_map.mp hc
    have hrequest := h.request_eq hrelays hcmd rfl
    obtain ⟨-, hgiven, -⟩ := given_oneshot hlaw hchannels hcmd (hrequest ▸ hone)
    obtain hnil | ⟨response, hadmits, hgiven⟩ := hgiven
    · rw [hnil] at hlines
      exact .inl (List.prefix_nil.mp hlines)
    · rw [hgiven] at hlines
      obtain hnil | ⟨rest, hcons, hrest⟩ := List.prefix_cons_iff.mp hlines
      · exact .inl hnil
      · rw [List.prefix_nil.mp hrest] at hcons
        exact .inr ⟨response, hrequest ▸ hadmits, hcons⟩
  · rw [given_unasked hlaw hchannels hc] at hlines
    exact .inl (List.prefix_nil.mp hlines)

/-- The channel does not end before the reply has come out of it. -/
theorem Attached.answered (h : Attached handling chrono start labels agent c)
    (hlaws : ∀ labels₁ agent₁, labels₁ <+: labels →
      Transition.run (Agent.step chrono) start labels₁ = some agent₁ →
      ExchangeLaw labels₁ agent₁ ∧ ChannelLaw agent₁.log agent₁.actor.clients)
    (hrun : Transition.run (Agent.step chrono) start labels = some agent)
    (hrelays : Relays request handling.told handling.log handling.finished)
    (hone : request ≠ .subscribe) (hkeeps : KeepsUp handling.log)
    (hfinished : handling.finished = true) (hrunning : agent.running = true) :
    handling.lines ≠ [] := by
  obtain ⟨hall, hlines | hended⟩ := hrelays.all hfinished hkeeps
  · exact hlines
  obtain ⟨labels₁, agent₁, ⟨rest, rfl⟩, hrun₁, hdone, hopen, hgiven⟩ := h.ended hended
  obtain ⟨hlaw, hchannels⟩ := hlaws labels₁ agent₁ (List.prefix_append _ _) hrun₁
  rw [Transition.run_append, hrun₁] at hrun
  have hrunning₁ := running_of_run hrun hrunning
  have htaken := hdone.resolve_right (by simp [hrunning₁])
  obtain ⟨cmd, hcmd, rfl⟩ := List.mem_map.mp htaken
  have hrequest := h.request_eq hrelays (by rw [commandsOf_append]; simp [hcmd]) rfl
  obtain ⟨-, -, hreply⟩ := given_oneshot hlaw hchannels hcmd (hrequest ▸ hone)
  have hsome := hreply (hrequest ▸ hrelays.work) hrunning₁ hopen
  intro hnil
  have hreceived : handling.received = [] := hall.symm.trans hnil
  rw [hreceived] at hgiven
  exact hsome (List.prefix_nil.mp hgiven)

theorem Attached.streams (h : Attached handling chrono start labels agent c)
    (hlaw : ExchangeLaw labels agent) (hchannels : ChannelLaw agent.log agent.actor.clients)
    (hrelays : Relays .subscribe handling.told handling.log handling.finished) :
    Streams handling.lines := by
  refine Streams.of_prefix ?_ (h.lines_prefix hrelays)
  by_cases hc : c ∈ (commandsOf labels).map ActorCommand.tx
  · obtain ⟨cmd, hcmd, rfl⟩ := List.mem_map.mp hc
    exact given_subscribe hlaw hchannels hcmd (h.request_eq hrelays hcmd rfl)
  · exact ⟨[], none, given_unasked hlaw hchannels hc, by simp, by simp⟩

end

/-- A request answered by the handler alone is answered in its shape. -/
theorem Once.answeredBy {parse : String → Except String Request} {addr : BDAddr}
    {handling : Handling parse addr} {request : Request} {ended : Prop}
    (h : Once request.admits handling.log handling.finished) (hkeeps : KeepsUp handling.log)
    (hended : ended → handling.finished = true) : request.AnsweredBy handling.lines ended := by
  by_cases hone : request = .subscribe
  · subst hone
    show Streams (linesOf handling.log)
    obtain hnil | ⟨response, hadmits, hlines⟩ := h.atMost
    · rw [hnil]
      exact .empty
    · rw [hlines]
      exact .of_admitted hadmits
  · exact Request.answeredBy_of_ne hone
      ⟨h.atMost, fun ho => h.exactly (hended ho) hkeeps⟩

/-- **Every request is answered in its own shape**: whatever other requests are
served meanwhile, a line that is no request is answered with one error, a request
with one line that fits it, and a subscribe with measurements and at most one
last line; none of them with what was meant for another. Before the request is
over, and when the agent is shut down, it may be answered with less. A line that
is not UTF-8 is not answered. -/
theorem answered_in_shape (parse : String → Except String Request) (addr : BDAddr) (chrono : Chrono)
    (conn : Connection) (interval now : Nat) (metricsListen : Option String) (pollAlways : Bool)
    {labels : List (Event × List Answer)} {agent : Agent}
    (hrun : Transition.run (Agent.step chrono)
      (.start conn interval now metricsListen pollAlways) labels = some agent)
    (hown : OwnChannels labels) {handling : Handling parse addr} {c : ClientId}
    (hattached : Attached handling chrono (.start conn interval now metricsListen pollAlways) labels
      agent c)
    (hkeeps : KeepsUp handling.log) : AnsweredInShape handling labels agent c := by
  have hlaws : ∀ labels₁ agent₁, labels₁ <+: labels →
      Transition.run (Agent.step chrono)
        (.start conn interval now metricsListen pollAlways) labels₁ = some agent₁ →
      ExchangeLaw labels₁ agent₁ ∧ ChannelLaw agent₁.log agent₁.actor.clients := by
    rintro labels₁ agent₁ ⟨rest, rfl⟩ hrun₁
    rw [OwnChannels, commandsOf_append, List.map_append] at hown
    exact channel_run chrono conn interval now metricsListen pollAlways hrun₁ hown.of_append_left
  obtain ⟨hlaw, hchannels⟩ := hlaws labels agent (List.prefix_refl _) hrun
  constructor
  case unreadable =>
    intro htext
    obtain ⟨hfinished, hlog⟩ := Handling.of_unreadable htext
    exact ⟨hfinished, by rw [Handling.lines, hlog]; rfl⟩
  case invalid =>
    intro text e htext hparse
    have honce := Handling.of_invalid htext hparse
    refine ⟨honce.atMost.imp_right ?_, fun hfin => honce.exactly hfin hkeeps⟩
    rintro ⟨response, heq, hlines⟩
    rw [beq_iff_eq.mp heq] at hlines
    exact hlines
  case request =>
    intro text request htext hparse
    obtain honce | hrelays := Handling.of_request htext hparse
    · exact honce.answeredBy hkeeps And.left
    · by_cases hone : request = .subscribe
      · subst hone
        exact hattached.streams hlaw hchannels hrelays
      · exact Request.answeredBy_of_ne hone ⟨hattached.atMost hlaw hchannels hrelays hone,
          fun h => hattached.answered hlaws hrun hrelays hone hkeeps h.1 h.2⟩
  case own =>
    intro request hsubmitted
    have hlines := hattached.lines_prefix (Handling.relays_of_submitted hsubmitted)
    exact hlines.sublist.trans (hchannels.origin c)
  case due =>
    rintro cmd hcmd rfl hone hrunning
    have hrelays := Handling.relays_of_submitted (hattached.command cmd hcmd rfl)
    obtain ⟨hunlisted, -, hreply⟩ := given_oneshot hlaw hchannels hcmd hone
    exact ⟨hunlisted, hreply hrelays.work hrunning⟩

/-- One client streams while another asks for the time. -/
def rtcAsked : List (Event × List Answer) :=
  let sample := generate
    [8, 0, 0, 0, 0, 100, 0, 0, 0, 0, 0, 0, 0, 0, 0, 0, 0, 0, 0, 0, 23, 9, 5, 30, 11, 120, 0]
  [(.command (some ⟨.subscribe, 0⟩), [.meanwhile [] 0, .meanwhile [] 0, .subscribe (.ok ())]),
    (.command (some ⟨.getRtc, 1⟩), [.meanwhile [] 0, .meanwhile [] 0, .deviceWrite (.ok ()),
      .meanwhile [] 0, .next (some ⟨cRx, sample⟩)])]

def rtcReply : Response := .measurement 100 0 0 0 1609304963

def rtcLine : String := "\x7b\"cmd\":\"get_rtc\"\x7d"

def readRtcLine (line : String) : Except String Request :=
  if line = rtcLine then .ok .getRtc else .error "expected value at line 1 column 1"

/-- The connection of the second client. -/
def rtcHandling : Handling readRtcLine 0xCBDF6B123456#48 where
  bytes := rtcLine.toUTF8.data.toList
  answers := [.actor false (AgentStats.new 0 nanosPerSec none) 0, .send true,
    .recv (some rtcReply), .write true, .recv none]
  finished := true
  log := [.submitted .getRtc, .wrote rtcReply true]
  runs := rfl

theorem answered_in_shape_rtc : ∃ agent,
    Transition.run (Agent.step (.utc fun _ => .error "too short"))
      (.start ⟨1⟩ nanosPerSec 0 none false) rtcAsked = some agent ∧
    agent.running = true ∧ rtcHandling.lines = [rtcReply] ∧
    AnsweredInShape rtcHandling rtcAsked agent 1 := by
  have hchecks : (Transition.run (Agent.step (.utc fun _ => .error "too short"))
      (.start ⟨1⟩ nanosPerSec 0 none false) rtcAsked).any (fun agent => agent.running &&
        !(agent.actor.clients.chans 1).closed &&
        decide ((agent.actor.clients.chans 1).given = [rtcReply])) = true := by decide +kernel
  obtain ⟨agent, hrun, hagent⟩ := (Option.any_eq_true _ _).mp hchecks
  simp only [Bool.and_eq_true, Bool.not_eq_true', decide_eq_true_eq] at hagent
  obtain ⟨⟨hrunning, hopen⟩, hgiven⟩ := hagent
  have hreceived : rtcHandling.received = [rtcReply] := rfl
  refine ⟨agent, hrun, hrunning, rfl, answered_in_shape _ _ _ _ _ _ _ _ hrun (by decide +kernel)
    ⟨by decide +kernel, ?_, fun _ => ?_⟩ (by simp [KeepsUp, rtcHandling])⟩
  · rw [hreceived, hgiven]
  · refine ⟨rtcAsked, agent, List.prefix_refl _, hrun, .inl (by decide +kernel), hopen, ?_⟩
    rw [hreceived, hgiven]

/-- A line that is not UTF-8: the handler closes the connection without a word. -/
theorem unreadable_unanswered : ∃ handling : Handling readRtcLine 0xCBDF6B123456#48,
    handling.bytes = [0xFF] ∧ lineText handling.bytes = none ∧ handling.finished = true ∧
    KeepsUp handling.log ∧ ¬ ∃ response, handling.lines = [response] := by
  refine ⟨⟨[0xFF], [], true, [], rfl⟩, rfl, by decide +kernel, rfl, ?_, ?_⟩
  · intro response hmem
    cases hmem
  · rintro ⟨response, hlines⟩
    cases hlines

end Zone

end Btwattch2
