/-
Btwattch2.PollTheorems — which notification streams are polled after their end.

The select polls the subscription in place, and so does a one-shot request that
waits for its reply. A stream that ends under the select is replaced or dropped
before the select comes round again, and so is one a one-shot request took out
for itself. The stream a one-shot request found in place is not
(`never_again_iff`).
-/
import Btwattch2.ActorConduct

namespace Btwattch2

open Lib

/-! ## Polls -/

/-- One poll of a notification stream. -/
structure Poll where
  /-- Which stream, by how many had been put in place by then. -/
  stream : Nat
  ended : Bool
  deriving DecidableEq, Repr

/-- How many subscriptions have been put in place. -/
def opens (log : List Obs) : Nat := log.count .opened

/-- No stream is polled after its end. -/
def NeverAgain (polls : List Poll) : Prop :=
  polls.Pairwise fun p q => p.ended = true → q.stream ≠ p.stream

instance (polls : List Poll) : Decidable (NeverAgain polls) :=
  inferInstanceAs (Decidable (polls.Pairwise _))

namespace Agent

/-- The poll the select makes of the subscription in place. Whatever it is that
wakes the select, the stream may be polled before that. -/
def selectPoll (agent : Agent) (ended : Bool) : List Poll :=
  if agent.running && agent.actor.notifications.isSome then [⟨opens agent.log, ended⟩] else []

/-- The polls of an event: that of the select, and those of the wait for a reply,
which is on the subscription that was put in place last. -/
def polls (agent agent' : Agent) (label : Event × List Answer) : List Poll :=
  agent.selectPoll (label.1 == .notification none) ++
    (label.2.filterMap Answer.asNext).map fun told => ⟨opens agent'.log, told == some none⟩

/-- The polls of a run, up to that of the select it arrives at. -/
def runPolls (chrono : Chrono) : Agent → List (Event × List Answer) → List Poll
  | agent, [] => agent.selectPoll false
  | agent, label :: labels =>
    match agent.step chrono label with
    | some agent' => agent.polls agent' label ++ runPolls chrono agent' labels
    | none => []

end Agent

/-- The stream a one-shot request finds in place, or puts there, does not end
while it waits for its reply. -/
def Outlives (agent : Agent) (label : Event × List Answer) : Prop :=
  label.1.isOneshot = true → agent.actor.notifications.isSome = true →
    some none ∉ label.2.filterMap Answer.asNext

instance (agent : Agent) (label : Event × List Answer) : Decidable (Outlives agent label) :=
  inferInstanceAs (Decidable (_ → _ → _))

/-! ## What is left of a subscription -/

/-- The log goes on from one to the other, and a subscription that is in place now,
or was waited on, is one that was there before or was put in place since. -/
def Follows (log : List Obs) (a : Actor) (told : List (Option (Option ValueNotification)))
    (log' : List Obs) (a' : Actor) : Prop :=
  ∃ obs, log' = log ++ obs ∧ (a'.notifications.isSome = true ∨ told ≠ [] →
    .opened ∈ obs ∨ a.notifications.isSome = true)

section Zone

variable {chrono : Chrono} {log log' : List Obs} {a a' a'' : Actor}
  {told : List (Option (Option ValueNotification))}

theorem Follows.refl (log : List Obs) (a : Actor) : Follows log a [] log a :=
  ⟨[], by simp, fun h => .inr (h.resolve_right fun hne => hne rfl)⟩

theorem Follows.extend (h : Follows log a told log' a') (seg : List Obs)
    (hn : a''.notifications.isSome = true → a'.notifications.isSome = true) :
    Follows log a told (log' ++ seg) a'' := by
  obtain ⟨obs, rfl, hopened⟩ := h
  refine ⟨obs ++ seg, by simp, fun hlive => ?_⟩
  exact (hopened (hlive.imp_left hn)).imp_left fun hmem => by simp [hmem]

theorem Follows.congr (h : Follows log a told log' a')
    (hn : a''.notifications.isSome = true → a'.notifications.isSome = true) :
    Follows log a told log' a'' := by
  simpa using h.extend [] hn

/-- The subscription in place is waited on. -/
theorem Follows.tell (h : Follows log a told log' a') (hsome : a'.notifications.isSome = true)
    (told' : List (Option (Option ValueNotification))) : Follows log a told' log' a' := by
  obtain ⟨obs, rfl, hopened⟩ := h
  exact ⟨obs, rfl, fun _ => hopened (.inl hsome)⟩

/-- A subscription is there only where one was put in place. -/
theorem stable_follows (chrono : Chrono) (log : List Obs) (a : Actor)
    (told : List (Option (Option ValueNotification))) :
    Stable chrono fun log' a' => Follows log a told log' a' where
  meanwhile _ _ h := h.extend _ id
  awaiting _ h := h.extend _ id
  feedMiss _ _ _ _ h := h.extend _ fun hn => (fed_link _ _).1 ▸ hn
  feedHit _ _ _ _ _ h := (h.extend _ fun hn => (fed_link _ _).1 ▸ hn).extend _ id
  note _ h := h.extend _ id
  connected h := h.extend _ id
  recordReconnect h := h.congr id
  disconnected h := h.congr id
  clients _ h := h.extend _ id
  drop h := h.extend _ fun hn => nomatch hn
  subscribe {log' a'} n h := by
    obtain ⟨obs, rfl, -⟩ := h
    exact ⟨obs ++ a'.closing ++ [.opened], by simp, fun _ => .inl (by simp)⟩
  feed _ _ h := h.extend _ fun hn => (fed_link _ _).1 ▸ hn
  request _ _ h := h.extend _ id
  reply _ h := h.extend _ id
  result _ h := h.extend _ id

/-! ## What a one-shot request is told -/

/-- What comes of it: the stream can end only last, and a subscription that was
waited on is still in place. -/
structure Waits (log : List Obs) (a : Actor) (told : List (Option (Option ValueNotification)))
    (log' : List Obs) (a' : Actor) : Prop where
  follows : Follows log a told log' a'
  last : some none ∉ told.dropLast
  kept : told ≠ [] → a'.notifications.isSome = true

/-- What it is abandoned with: the stream has not ended. -/
def Waiting (log : List Obs) (a : Actor) (told : List (Option (Option ValueNotification)))
    (log' : List Obs) (a' : Actor) : Prop :=
  Follows log a told log' a' ∧ some none ∉ told

theorem Waits.untold (h : Follows log a [] log' a') : Waits log a [] log' a' :=
  ⟨h, by simp, fun hne => absurd rfl hne⟩

theorem wpTold_nextMatchingFrame {kind : FrameKind} (h : Follows log a [] log' a')
    (hsome : a'.notifications.isSome = true) :
    Await.wpTold Answer.asNext (nextMatchingFrame chrono kind)
      (fun _ told log' a' => Waits log a told log' a') (Waiting log a) [] log' a' := by
  -- so far every answer was a notification
  refine Await.wpTold_loop (I := fun told log' a' => Follows log a told log' a' ∧
    a'.notifications.isSome = true ∧ ∀ x ∈ told, ∃ event, x = some (some event)) ⟨h, hsome, by simp⟩
    (fun told log' a' h => ⟨h.1, fun hend => ?_⟩) ?_
  · obtain ⟨event, heq⟩ := h.2.2 _ hend
    cases heq
  · intro told log' a' h
    obtain ⟨hfollows, hsome, hevents⟩ := h
    have hgoing : some none ∉ told := by
      intro hend
      obtain ⟨event, heq⟩ := hevents _ hend
      cases heq
    have hstable := fun told => stable_follows chrono log a told
    unfold nextMatchingTurn
    refine Await.wpTold_bind (Await.wpTold_of_confined still_meanwhile
      (wp_meanwhile ⟨hfollows, hgoing⟩ fun acts elapsed => ?_))
    have hm := (hstable told).meanwhile acts elapsed hfollows
    refine Await.wpTold_bind (Await.wpTold_await ⟨hm, hgoing⟩ fun answer x hx => ?_)
    rw [hx, Option.toList_some]
    have hm' := hm.tell hsome (told ++ [x])
    have hdone : Waits log a (told ++ [x]) (log' ++ [.meanwhile acts]) (a'.elapse acts elapsed) :=
      ⟨hm', by simpa using hgoing, fun _ => hsome⟩
    match x with
    | none => exact Await.wpTold_pure hdone
    | some none => exact Await.wpTold_pure hdone
    | some (some event) =>
      have hevents' : ∀ x ∈ told ++ [some (some event)], ∃ event, x = some (some event) := by
        intro x hx
        obtain hx | hx := List.mem_append.mp hx
        · exact hevents x hx
        · exact ⟨event, List.mem_singleton.mp hx⟩
      dsimp only
      split
      · exact Await.wpTold_pure ⟨hm', hsome, hevents'⟩
      · have hfed : ((a'.elapse acts elapsed).fed chrono kind.matches event.value).notifications =
            (a'.elapse acts elapsed).notifications := (fed_link kind.matches event.value).1
        refine Await.wpTold_bind (Await.wpTold_of_confined (aside_feedUntil chrono _ _ _)
          (wp_feedUntil chrono ?_))
        cases hpull : ((a'.elapse acts elapsed).pulled kind.matches event.value).2.1 with
        | none =>
          exact Await.wpTold_pure ⟨(hstable _).feedMiss kind event.value hsome hpull hm',
            hfed ▸ hsome, hevents'⟩
        | some frame =>
          refine Await.wpTold_bind (Await.wpTold_observe
            (Await.wpTold_pure ⟨?_, hdone.last, fun _ => hfed ▸ hsome⟩))
          exact (hstable _).feedHit kind event.value frame hsome hpull hm'

theorem wpTold_waitForFrame {kind : FrameKind} (h : Follows log a [] log' a') :
    Await.wpTold Answer.asNext (waitForFrame chrono kind)
      (fun _ told log' a' => Waits log a told log' a') (Waiting log a) [] log' a' := by
  unfold waitForFrame
  refine Await.wpTold_bind (Await.wpTold_get ?_)
  split
  case h_1 => exact Await.wpTold_pure (.untold h)
  case h_2 n hn =>
    have hawaiting := (stable_follows chrono log a []).awaiting kind h
    refine Await.wpTold_bind (Await.wpTold_observe (Await.wpTold_bind
      (Await.wpTold_mono (wpTold_nextMatchingFrame hawaiting (by simp [hn])) ?_ fun _ _ _ h => h)))
    intro r told log' a' h
    cases r <;> exact Await.wpTold_pure h

theorem wpTold_writeAndWait {payload : List UInt8} {kind : FrameKind}
    (h : Follows log a [] log' a') :
    Await.wpTold Answer.asNext (writeAndWait chrono payload kind)
      (fun _ told log' a' => Waits log a told log' a') (Waiting log a) [] log' a' := by
  have hstable := (stable_follows chrono log a []).toSteady
  have hwaiting : ∀ log' a', Follows log a [] log' a' → Waiting log a [] log' a' :=
    fun _ _ h => ⟨h, by simp⟩
  unfold writeAndWait
  refine Await.wpTold_bind (Await.wpTold_of_confined (still_onLink (Connection.still_write _))
    (Await.wp_mono (hstable.wp_write h) ?_ hwaiting))
  intro r log' a' hr
  obtain e | _ | _ := r
  · exact Await.wpTold_pure (.untold hr.1)
  · exact wpTold_waitForFrame hr.1
  · refine Await.wpTold_bind (Await.wpTold_of_confined still_relisten
      (Await.wp_mono (hstable.wp_relisten hr.1) ?_ hwaiting))
    intro r log' a' hr
    cases r with
    | error e => exact Await.wpTold_pure (.untold hr.1)
    | ok _ => exact wpTold_waitForFrame hr.1

/-- What comes of a one-shot request: a subscription it found in place is left in
place, and one of its own is dropped. -/
structure Asks (log : List Obs) (a : Actor) (told : List (Option (Option ValueNotification)))
    (log' : List Obs) (a' : Actor) : Prop where
  follows : Follows log a told log' a'
  last : some none ∉ told.dropLast
  kept : a.notifications.isSome = true → told ≠ [] → a'.notifications.isSome = true
  dropped : a.notifications = none → a'.notifications = none

theorem wpTold_oneshot {payload : List UInt8} {kind : FrameKind} (h : Follows log a [] log' a')
    (hn : a'.notifications = a.notifications) :
    Await.wpTold Answer.asNext (oneshot chrono payload kind)
      (fun _ told log' a' => Asks log a told log' a') (Waiting log a) [] log' a' := by
  unfold oneshot
  refine Await.wpTold_bind (Await.wpTold_get ?_)
  split
  case h_1 n hsome =>
    refine Await.wpTold_mono (wpTold_writeAndWait h) ?_ fun _ _ _ h => h
    intro _ told log' a' hw
    refine ⟨hw.follows, hw.last, fun _ => hw.kept, fun hnone => ?_⟩
    rw [hn, hnone] at hsome
    cases hsome
  case h_2 hnone =>
    have hnone' : a.notifications = none := hn.symm.trans hnone
    have hstable := (stable_follows chrono log a []).toSteady
    refine Await.wpTold_bind (Await.wpTold_of_confined still_relisten
      (Await.wp_mono (Await.wp_and (hstable.wp_relisten h) wp_relisten_sound) ?_
        fun _ _ h => ⟨h.1, by simp⟩))
    intro r log' a' hr
    obtain ⟨⟨hfollows, -⟩, -, obs, -, hlisten⟩ := hr
    cases r with
    | error e =>
      exact Await.wpTold_pure ⟨hfollows, by simp, fun _ hne => absurd rfl hne, fun _ => hlisten.1⟩
    | ok _ =>
      refine Await.wpTold_bind (Await.wpTold_mono
        (wpTold_writeAndWait hfollows) ?_ fun _ _ _ h => h)
      intro r told log' a' hw
      refine Await.wpTold_bind (Await.wpTold_of_confined (still_setNotifications none)
        (wp_setNotifications (Await.wpTold_pure ⟨?_, hw.last, fun hsome => ?_, fun _ => rfl⟩)))
      · exact (stable_follows chrono log a told).drop hw.follows
      · rw [hnone'] at hsome
        cases hsome

theorem Asks.reply {tx : ClientId} {response : Response} (h : Asks log a told log' a') :
    Asks log a told (log' ++ [.reply tx response]) (a'.trySend tx response) :=
  ⟨h.follows.extend _ id, h.last, h.kept, h.dropped⟩

theorem wpTold_reply {tx : ClientId} {result : Except StreamError Response}
    {E : List (Option (Option ValueNotification)) → List Obs → Actor → Prop}
    (h : Asks log a told log' a') :
    Await.wpTold Answer.asNext (reply tx result) (fun _ told log' a' => Asks log a told log' a') E
      told log' a' :=
  Await.wpTold_of_confined (untold_reply tx result)
    (wp_reply (fun _ _ => h.reply) fun _ _ => h.reply)

/-- A one-shot request, and what is done with its outcome. -/
theorem wpTold_asked {payload : List UInt8} {kind : FrameKind} {tx : ClientId}
    (f : Except StreamError (List UInt8) → Except StreamError Response)
    (h : Follows log a [] log' a') (hn : a'.notifications = a.notifications) :
    Await.wpTold Answer.asNext (do reply tx (f (← oneshot chrono payload kind)))
      (fun _ told log' a' => Asks log a told log' a') (Waiting log a) [] log' a' :=
  Await.wpTold_bind (Await.wpTold_mono (wpTold_oneshot h hn) (fun _ _ _ _ h => wpTold_reply h)
    fun _ _ _ h => h)

theorem wpTold_handle {cmd : ActorCommand} (hone : cmd.request.isOneshot = true)
    (h : Follows log a [] log' a') (hn : a'.notifications = a.notifications) :
    Await.wpTold Answer.asNext (handle chrono cmd)
      (fun _ told log' a' => Asks log a told log' a') (Waiting log a) [] log' a' := by
  have hbegun : Follows log a [] (log' ++ [.request cmd.tx cmd.request] ++ [.clients .reap])
      (a'.applyOp .reap) := (h.extend _ id).extend _ id
  unfold handle
  refine Await.wpTold_bind (Await.wpTold_observe (Await.wpTold_bind
    (Await.wpTold_of_confined (still_clientOp rfl) (wp_clientOp ?_))))
  obtain ⟨request, tx⟩ := cmd
  cases request with
  | ping => cases hone
  | shutdown => cases hone
  | subscribe => cases hone
  | getRtc =>
    exact Await.wpTold_bind (Await.wpTold_get (wpTold_asked _ hbegun hn))
  | power on => exact wpTold_asked _ hbegun hn
  | testLed => exact wpTold_asked _ hbegun hn
  | setRtc time =>
    dsimp only
    split
    · exact wpTold_asked _ hbegun hn
    · exact wpTold_reply ⟨hbegun, by simp, fun _ hne => absurd rfl hne, fun hnone => hn.trans hnone⟩

/-! ## What an event is told -/

/-- How an event went that left the loop running. -/
structure Event.Went (event : Event) (log : List Obs) (a : Actor)
    (told : List (Option (Option ValueNotification))) (log' : List Obs) (a' : Actor) : Prop where
  follows : Follows log a told log' a'
  last : some none ∉ told.dropLast
  spared : event.isOneshot = false → told = []
  kept : event.isOneshot = true → a.notifications.isSome = true → told ≠ [] →
    a'.notifications.isSome = true
  dropped : event.isOneshot = true → a.notifications = none → a'.notifications = none
  renewed : event = .notification none → a'.notifications.isSome = true → opens log < opens log'

/-- A stream that has ended is replaced, or dropped with the clients told. -/
theorem wp_handleNotification_renewed {log' : List Obs} (h : opens log ≤ opens log') :
    Await.wp (handleNotification chrono none)
      (fun _ log' a' => a'.notifications.isSome = true → opens log < opens log')
      (fun _ _ => True) log' a := by
  unfold handleNotification
  refine Await.wp_bind (wp_onLink trivial fun acts elapsed => ?_)
  refine Connection.wp_reconnectStream trivial trivial ?_ (fun e => ?_) fun e => ?_
  · refine Await.wp_bind (wp_setStats (wp_applySubscription fun _ => ?_))
    simp only [opens, List.count_append, List.count_singleton_self] at h ⊢
    omega
  · exact wp_abortStream fun hsome => nomatch hsome
  · exact wp_abortStream fun hsome => nomatch hsome

theorem wpTold_handleEvent {event : Event} (henabled : event.enabled a = true) :
    Await.wpTold Answer.asNext (handleEvent chrono event)
      (fun goesOn told log' a' => event.Went log a told log' a' ∧ (goesOn = false → told = []))
      (fun told log' a' => Waiting log a told log' a' ∧ (event.isOneshot = false → told = []))
      [] log a := by
  cases hone : event.isOneshot with
  | true =>
    obtain ⟨cmd, rfl⟩ : ∃ cmd, event = .command (some cmd) := by
      match event with
      | .command (some cmd) => exact ⟨cmd, rfl⟩
    have hstart : Follows log a [] log a := .refl log a
    unfold handleEvent
    refine Await.wpTold_bind (Await.wpTold_of_confined still_meanwhile
      (wp_meanwhile ⟨⟨hstart, by simp⟩, by simp⟩ fun acts elapsed => Await.wpTold_bind
        (Await.wpTold_mono (wpTold_handle hone (hstart.extend _ id) rfl) ?_ ?_)))
    · intro _ told log' a' h
      exact Await.wpTold_pure ⟨⟨h.follows, h.last, by simp [hone], fun _ => h.kept,
        fun _ => h.dropped, fun heq => nomatch heq⟩, fun hstop => nomatch hstop⟩
    · exact fun _ _ _ h => ⟨h, by simp⟩
  | false =>
    refine Await.wpTold_of_confined (untold_handleEvent chrono hone) ?_
    have hrenewed : Await.wp (handleEvent chrono event)
        (fun _ log' a' => event = .notification none → a'.notifications.isSome = true →
          opens log < opens log') (fun _ _ => True) log a := by
      by_cases hnone : event = .notification none
      · subst hnone
        unfold handleEvent
        refine Await.wp_bind (wp_meanwhile trivial fun acts elapsed => Await.wp_bind (Await.wp_mono
          (wp_handleNotification_renewed ?_) (fun _ _ _ h => Await.wp_pure.mpr fun _ => h)
          fun _ _ h => h))
        simp [opens]
      · exact Await.wp_mono ((stable_follows chrono log a []).wp_handleEvent henabled (.refl log a))
          (fun _ _ _ _ heq => absurd heq hnone) fun _ _ _ => trivial
    have hfollows : Await.wp (handleEvent chrono event) (fun _ => Follows log a [])
      (Follows log a [])
        log a := (stable_follows chrono log a []).wp_handleEvent henabled (.refl log a)
    refine Await.wp_mono (Await.wp_and hfollows hrenewed) ?_ ?_
    · intro _ log' a' h
      exact ⟨⟨h.1, by simp, fun _ => rfl, by simp [hone], by simp [hone], h.2⟩, fun _ => rfl⟩
    · exact fun _ _ h => ⟨⟨h.1, by simp⟩, fun _ => rfl⟩

/-! ## Steps and runs -/

/-- How a step went, by what it was told of the stream. -/
structure StepWent (agent agent' : Agent) (event : Event)
    (told : List (Option (Option ValueNotification))) : Prop where
  running : agent.running = true
  follows : Follows agent.log agent.actor told agent'.log agent'.actor
  last : some none ∉ told.dropLast
  spared : event.isOneshot = false → told = []
  /-- The end of the stream does not end the loop. -/
  goesOn : some none ∈ told → agent'.running = true
  went : agent'.running = true → event.Went agent.log agent.actor told agent'.log agent'.actor

theorem stepWent {agent agent' : Agent} {event : Event} {tape : List Answer}
    (hstep : agent.step chrono (event, tape) = some agent') :
    StepWent agent agent' event (tape.filterMap Answer.asNext) := by
  obtain ⟨used, htape, hx⟩ :=
    @wpTold_handleEvent chrono agent.log agent.actor event (enabled_of_step chrono hstep) tape
  simp only [Agent.step] at hstep
  split at hstep
  case isFalse => cases hstep
  case isTrue hrun =>
    have hrunning := (Bool.and_eq_true_iff.mp hrun).1
    revert hx htape
    split at hstep
    case h_1 heq =>
      cases hstep
      rw [heq]
      rintro htape ⟨hwent, -⟩
      obtain rfl : tape = used := by simpa using htape
      exact ⟨hrunning, hwent.follows, hwent.last, hwent.spared, fun _ => rfl, fun _ => hwent⟩
    case h_2 heq =>
      cases hstep
      rw [heq]
      rintro htape ⟨hwent, hnone⟩
      obtain rfl : tape = used := by simpa using htape
      refine ⟨hrunning, hwent.follows.extend _ id, hwent.last, hwent.spared, fun hend => ?_,
        fun hgo => absurd hgo Bool.false_ne_true⟩
      have hnil : tape.filterMap Answer.asNext = [] := hnone rfl
      rw [hnil] at hend
      cases hend
    case h_3 heq =>
      cases hstep
      rw [heq]
      rintro htape ⟨⟨hfollows, hgoing⟩, hspared⟩
      obtain rfl : tape = used := by simpa using htape
      exact ⟨hrunning, hfollows.extend _ id, fun hend =>
        hgoing (List.dropLast_subset _ hend), hspared,
        fun hend => absurd hend hgoing, fun hgo => absurd hgo Bool.false_ne_true⟩
    case h_4 => cases hstep

theorem Follows.opens (h : Follows log a told log' a') : opens log ≤ opens log' ∧
    (a'.notifications.isSome = true ∨ told ≠ [] →
      opens log < opens log' ∨ a.notifications.isSome = true) := by
  obtain ⟨obs, rfl, hopened⟩ := h
  simp only [Btwattch2.opens, List.count_append]
  refine ⟨Nat.le_add_right _ _, fun hlive => (hopened hlive).imp_left fun hmem => ?_⟩
  exact Nat.lt_add_of_pos_right (List.count_pos_iff.mpr hmem)

/-- What the polls so far say about where a run has arrived: the stream in place
is none of those that have ended. -/
structure Retired (past : List Poll) (agent : Agent) : Prop where
  again : NeverAgain past
  older : ∀ p ∈ past, p.stream ≤ opens agent.log
  live : agent.running = true → agent.actor.notifications.isSome = true →
    ∀ p ∈ past, p.ended = true → p.stream ≠ opens agent.log

theorem mem_selectPoll {agent : Agent} {ended : Bool} {p : Poll} :
    p ∈ agent.selectPoll ended ↔
      (agent.running = true ∧ agent.actor.notifications.isSome = true) ∧
        p = ⟨opens agent.log, ended⟩ := by
  unfold Agent.selectPoll
  split
  case isTrue h => simp [Bool.and_eq_true_iff.mp h]
  case isFalse h =>
    rw [Bool.and_eq_true_iff] at h
    simp [h]

theorem Retired.select {past : List Poll} {agent : Agent} (h : Retired past agent) :
    NeverAgain (past ++ agent.selectPoll false) := by
  refine List.pairwise_append.mpr ⟨h.again, ?_, fun p hp q hq hended => ?_⟩
  · unfold Agent.selectPoll
    split <;> simp
  · obtain ⟨⟨hrunning, hsome⟩, rfl⟩ := mem_selectPoll.mp hq
    exact (h.live hrunning hsome p hp hended).symm

/-- Answers of which none but the last is the end of the stream. -/
theorem neverAgain_told {stream : Nat} {told : List (Option (Option ValueNotification))}
    (h : some none ∉ told.dropLast) :
    NeverAgain (told.map fun x => ⟨stream, x == some none⟩) := by
  refine List.pairwise_map.mpr ?_
  induction told with
  | nil => exact .nil
  | cons x told ih =>
    cases told with
    | nil => simp
    | cons y told =>
      rw [List.dropLast_cons_cons, List.mem_cons, not_or] at h
      refine .cons (fun z _ hend => absurd ?_ h.1) (ih h.2)
      exact (beq_iff_eq.mp hend).symm

theorem mem_polls {agent agent' : Agent} {label : Event × List Answer} {p : Poll} :
    p ∈ agent.polls agent' label ↔ p ∈ agent.selectPoll (label.1 == .notification none) ∨
      ∃ x ∈ label.2.filterMap Answer.asNext, p = ⟨opens agent'.log, x == some none⟩ := by
  rw [Agent.polls, List.mem_append, List.mem_map]
  simp only [eq_comm]

theorem Retired.step {past : List Poll} {agent agent' : Agent} {label : Event × List Answer}
    (h : Retired past agent) (hstep : agent.step chrono label = some agent')
    (hok : Outlives agent label) : Retired (past ++ agent.polls agent' label) agent' := by
  obtain ⟨event, tape⟩ := label
  have hwent := stepWent hstep
  obtain ⟨hle, hheld⟩ := hwent.follows.opens
  -- a stream that ended before is neither in place now nor waited on in this event
  have hpast : ∀ p ∈ past, p.ended = true → opens agent.log < opens agent'.log ∨
      agent.actor.notifications.isSome = true → p.stream ≠ opens agent'.log := by
    intro p hp hended hlive heq
    have hold := h.older p hp
    obtain hlt | hsome := hlive
    · omega
    · have hne := h.live hwent.running hsome p hp hended
      omega
  constructor
  case again =>
    refine List.pairwise_append.mpr ⟨h.again, List.pairwise_append.mpr
      ⟨?_, neverAgain_told hwent.last, ?_⟩, ?_⟩
    · unfold Agent.selectPoll
      split <;> simp
    · intro p hp q hq hended
      obtain ⟨-, rfl⟩ := mem_selectPoll.mp hp
      obtain rfl : event = .notification none := beq_iff_eq.mp hended
      rw [hwent.spared rfl] at hq
      cases hq
    · intro p hp q hq hended
      obtain hq | ⟨x, hx, rfl⟩ := mem_polls.mp hq
      · obtain ⟨⟨hrunning, hsome⟩, rfl⟩ := mem_selectPoll.mp hq
        exact (h.live hrunning hsome p hp hended).symm
      · exact (hpast p hp hended (hheld (.inr (List.ne_nil_of_mem hx)))).symm
  case older =>
    intro p hp
    obtain hp | hp := List.mem_append.mp hp
    · exact (h.older p hp).trans hle
    · obtain hp | ⟨x, -, rfl⟩ := mem_polls.mp hp
      · obtain ⟨-, rfl⟩ := mem_selectPoll.mp hp
        exact hle
      · exact Nat.le_refl _
  case live =>
    intro hrunning hsome p hp hended
    have hgone := hwent.went hrunning
    obtain hp | hp := List.mem_append.mp hp
    · exact hpast p hp hended (hheld (.inl hsome))
    · obtain hp | ⟨x, hx, rfl⟩ := mem_polls.mp hp
      · obtain ⟨-, rfl⟩ := mem_selectPoll.mp hp
        exact Nat.ne_of_lt (hgone.renewed (beq_iff_eq.mp hended) hsome)
      · -- the stream ended under a one-shot request, which had taken it out itself
        obtain rfl : x = some none := beq_iff_eq.mp hended
        have hone : event.isOneshot = true := by
          cases hone : event.isOneshot with
          | true => rfl
          | false =>
            rw [hwent.spared hone] at hx
            cases hx
        cases hn : agent.actor.notifications with
        | some n => exact absurd hx (hok hone (by simp [hn]))
        | none => simp [hgone.dropped hone hn] at hsome

/-- A loop that goes on polls the subscription in place next. -/
theorem runPolls_head {agent agent' : Agent} {labels : List (Event × List Answer)}
    (hrun : Transition.run (Agent.step chrono) agent labels = some agent')
    (hrunning : agent.running = true) (hsome : agent.actor.notifications.isSome = true) :
    ∃ p ∈ agent.runPolls chrono labels, p.stream = opens agent.log := by
  have hmem : ∀ ended, ⟨opens agent.log, ended⟩ ∈ agent.selectPoll ended :=
    fun ended => mem_selectPoll.mpr ⟨⟨hrunning, hsome⟩, rfl⟩
  cases labels with
  | nil => exact ⟨_, hmem false, rfl⟩
  | cons label labels =>
    obtain ⟨v, hv, -⟩ := Transition.run_cons hrun
    rw [Agent.runPolls, hv]
    exact ⟨_, List.mem_append_left _ (mem_polls.mpr (.inl (hmem _))), rfl⟩

theorem neverAgain_runPolls (labels : List (Event × List Answer)) :
    ∀ {past : List Poll} {agent agent' : Agent}, Retired past agent →
      Transition.run (Agent.step chrono) agent labels = some agent' →
      (NeverAgain (past ++ agent.runPolls chrono labels) ↔
        Transition.Meets (Agent.step chrono) Outlives agent labels) := by
  induction labels with
  | nil => exact fun h _ => iff_of_true h.select trivial
  | cons label labels ih =>
    intro past agent agent' h hrun
    obtain ⟨v, hv, hrun'⟩ := Transition.run_cons hrun
    rw [Agent.runPolls, hv, ← List.append_assoc]
    by_cases hok : Outlives agent label
    · rw [ih (h.step hv hok) hrun']
      exact ⟨fun hrest => .cons hv hok hrest, fun hmeets => hmeets.2 v hv⟩
    · refine iff_of_false (fun hagain => ?_) fun hmeets => hok hmeets.1
      -- the stream is left in place, and polled again by the select
      obtain ⟨event, tape⟩ := label
      have hwent := stepWent hv
      simp only [Outlives, Classical.not_imp, not_not] at hok
      obtain ⟨hone, hsome, hend⟩ := hok
      have hrunning := hwent.goesOn hend
      have hkept := (hwent.went hrunning).kept hone hsome (List.ne_nil_of_mem hend)
      obtain ⟨q, hq, hstream⟩ := runPolls_head hrun' hrunning hkept
      have hp : ⟨opens v.log, true⟩ ∈ past ++ agent.polls v (event, tape) :=
        List.mem_append_right _ (mem_polls.mpr (.inr ⟨_, hend, by simp⟩))
      exact (List.pairwise_append.mp hagain).2.2 _ hp q hq rfl hstream

/-- **When no stream is polled after its end**: in any run, exactly when no stream
ends under a one-shot request that found a subscription in place. -/
theorem never_again_iff (chrono : Chrono) (conn : Connection) (interval now : Nat)
    (metricsListen : Option String) (pollAlways : Bool) {labels : List (Event × List Answer)}
    {agent : Agent}
    (hrun : Transition.run (Agent.step chrono)
      (.start conn interval now metricsListen pollAlways) labels = some agent) :
    NeverAgain ((Agent.start conn interval now metricsListen pollAlways).runPolls chrono labels) ↔
      Transition.Meets (Agent.step chrono) Outlives
        (.start conn interval now metricsListen pollAlways) labels := by
  have hstart : Retired [] (Agent.start conn interval now metricsListen pollAlways) :=
    ⟨.nil, by simp, by simp⟩
  exact neverAgain_runPolls labels hstart hrun

/-- A client streams, the stream ends and is replaced, and then it is lost again
for good. -/
def replaced : List (Event × List Answer) :=
  [(.command (some ⟨.subscribe, 0⟩), [.meanwhile [] 0, .meanwhile [] 0, .subscribe (.ok ())]),
    (.notification none, [.meanwhile [] 0, .meanwhile [] 0, .attempt (.ok [cTx, cRx]),
      .subscribe (.ok ())]),
    (.notification none, [.meanwhile [] 0, .meanwhile [] 0, .attempt (.ok [])])]

theorem never_again_iff_replaced : ∃ agent,
    Transition.run (Agent.step (.utc fun _ => .error "too short"))
      (.start ⟨1⟩ nanosPerSec 0 none false) replaced = some agent ∧
    (Agent.start ⟨1⟩ nanosPerSec 0 none false).runPolls (.utc fun _ => .error "too short") replaced =
      [⟨1, true⟩, ⟨2, true⟩] ∧
    (NeverAgain ((Agent.start ⟨1⟩ nanosPerSec 0 none false).runPolls
        (.utc fun _ => .error "too short") replaced) ↔
      Transition.Meets (Agent.step (.utc fun _ => .error "too short")) Outlives
        (.start ⟨1⟩ nanosPerSec 0 none false) replaced) := by
  have hsome : (Transition.run (Agent.step (.utc fun _ => .error "too short"))
      (.start ⟨1⟩ nanosPerSec 0 none false) replaced).isSome = true := by decide +kernel
  obtain ⟨agent, hrun⟩ := Option.isSome_iff_exists.mp hsome
  exact ⟨agent, hrun, by decide +kernel, never_again_iff _ _ _ _ _ _ hrun⟩

/-- A client streams; the stream ends while a command waits for its reply, and the
select finds it ended once more. -/
def endedUnderCommand : List (Event × List Answer) :=
  [(.command (some ⟨.subscribe, 0⟩), [.meanwhile [] 0, .meanwhile [] 0, .subscribe (.ok ())]),
    (.command (some ⟨.testLed, 1⟩), [.meanwhile [] 0, .meanwhile [] 0, .deviceWrite (.ok ()),
      .meanwhile [] 0, .next none]),
    (.notification none, [.meanwhile [] 0, .meanwhile [] 0, .attempt (.ok [cTx, cRx]),
      .subscribe (.ok ())])]

theorem polled_again : ∃ agent,
    Transition.run (Agent.step (.utc fun _ => .error "too short"))
      (.start ⟨1⟩ nanosPerSec 0 none false) endedUnderCommand = some agent ∧
    ¬ NeverAgain ((Agent.start ⟨1⟩ nanosPerSec 0 none false).runPolls
      (.utc fun _ => .error "too short") endedUnderCommand) := by
  have hsome : (Transition.run (Agent.step (.utc fun _ => .error "too short"))
      (.start ⟨1⟩ nanosPerSec 0 none false) endedUnderCommand).isSome = true := by decide +kernel
  obtain ⟨agent, hrun⟩ := Option.isSome_iff_exists.mp hsome
  exact ⟨agent, hrun, by decide +kernel⟩

end Zone

end Btwattch2
