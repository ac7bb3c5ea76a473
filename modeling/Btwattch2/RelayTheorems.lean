/-
Btwattch2.RelayTheorems — a stream that the agent relays is rendered like one
that is followed directly.

While the link holds, a subscriber is told the measurements in the bytes the
stream has brought since it subscribed, and nothing else (`carried_run`). A client
that keeps reading is given all of that, up to where it has enough
(`supplied_run`), and its handler writes it in that order. A direct run renders
the same bytes, so the two differ at most in what is still on its way
(`relayed_as_direct`).
-/
import Btwattch2.MainTheorems
import Btwattch2.PollTheorems
import Btwattch2.RenderTheorems
import Btwattch2.ServerTheorems

namespace Btwattch2

open Lib

/-! ## The link -/

/-- The link was lost, or an operation on it failed. -/
def Obs.lost : Obs → Bool
  | .connected => true
  | o => o.linkOp == some false

/-- No link failure. -/
def LinkHeld (log : List Obs) : Prop := ∀ o ∈ log, o.lost = false

instance (log : List Obs) : Decidable (LinkHeld log) :=
  inferInstanceAs (Decidable (∀ o ∈ log, o.lost = false))

theorem linkHeld_append {log obs : List Obs} :
    LinkHeld (log ++ obs) ↔ LinkHeld log ∧ LinkHeld obs := by
  simp [LinkHeld, or_imp, forall_and]

theorem not_linkHeld {log : List Obs} {o : Obs} (ho : o ∈ log) (hlost : o.lost = true) :
    ¬ LinkHeld log := by
  intro h
  rw [h o ho] at hlost
  cases hlost

/-- The link failed after `log`. -/
def Broken (log log' : List Obs) : Prop := ∃ seg, log' = log ++ seg ∧ ¬ LinkHeld seg

section Zone

variable {chrono : Chrono} {log log' obs : List Obs} {a a' : Actor}

theorem Broken.append (h : Broken log log') (obs : List Obs) : Broken log (log' ++ obs) := by
  obtain ⟨seg, rfl, hlost⟩ := h
  refine ⟨seg ++ obs, by simp, fun hheld => hlost ?_⟩
  exact (linkHeld_append.mp hheld).1

/-- What failed before stays so. -/
theorem Broken.wp {α : Type} {takes : Answer → Prop} {logs : Obs → Prop} {x : ActorM α}
    (hx : Await.Confined takes logs x) (h : Broken log log') :
    Await.wp x (fun _ log'' _ => Broken log log'') (fun _ _ => True) log' a' := by
  refine Await.wp_mono (Await.Confined.wp hx) (fun _ log'' _ hlog => ?_) fun _ _ _ => trivial
  obtain ⟨obs, rfl, -⟩ := hlog
  exact h.append obs

/-! ## What the subscribers are told -/

/-- The bytes an event brings for the assembler. -/
def Event.received : Event → List UInt8
  | .notification (some event) => if event.uuid = cRx then event.value else []
  | _ => []

/-- What is told to every client on the list. -/
def Obs.told : Obs → Option Response
  | .clients (.broadcast response) => some response
  | .clients (.abort reason) => some (.error reason)
  | .clients .end_ => some .streamEnd
  | _ => none

/-- The lines that tell measurements. -/
def tells (ms : List Measurement) : List Response := ms.map .fromMeasurement

/-- Since `log`, unless the link failed, the subscription in place has brought
`bytes`, and the clients were told the measurements in them. -/
def Carried (chrono : Chrono) (log : List Obs) (bytes : List UInt8) (log' : List Obs) (a' : Actor) :
    Prop :=
  ∃ seg, log' = log ++ seg ∧ (LinkHeld seg → a'.notifications.isSome = true ∧
    a'.assembler = residue bytes ∧ seg.filterMap Obs.told = tells (measurementsIn chrono bytes))

namespace Carried

variable {bytes : List UInt8}

theorem of_broken (h : Broken log log') : Carried chrono log bytes log' a' := by
  obtain ⟨seg, rfl, hlost⟩ := h
  exact ⟨seg, rfl, fun hheld => absurd hheld hlost⟩

/-- Whoever is told nothing. -/
theorem quiet (h : Carried chrono log bytes log' a) (hobs : ∀ o ∈ obs, o.told = none)
    (hn : a'.notifications = a.notifications) (hasm : a'.assembler = a.assembler) :
    Carried chrono log bytes (log' ++ obs) a' := by
  obtain ⟨seg, rfl, hseg⟩ := h
  refine ⟨seg ++ obs, by simp, fun hheld => ?_⟩
  obtain ⟨hsome, hrest, htold⟩ := hseg (linkHeld_append.mp hheld).1
  refine ⟨by rw [hn, hsome], by rw [hasm, hrest], ?_⟩
  rw [List.filterMap_append, htold, List.filterMap_eq_nil_iff.mpr hobs, List.append_nil]

theorem lose (h : Carried chrono log bytes log' a) (hlost : ¬ LinkHeld obs) :
    Broken log (log' ++ obs) := by
  obtain ⟨seg, rfl, -⟩ := h
  exact ⟨seg ++ obs, by simp, fun hheld => hlost (linkHeld_append.mp hheld).2⟩

/-- Without a subscription, the link has failed. -/
theorem cases (h : Carried chrono log bytes log' a) :
    Broken log log' ∨ a.notifications.isSome = true := by
  obtain ⟨seg, rfl, hseg⟩ := h
  by_cases hheld : LinkHeld seg
  · exact .inr (hseg hheld).1
  · exact .inl ⟨seg, rfl, hheld⟩

end Carried

theorem told_feedObs (stop : List UInt8 → Bool) (taker : Taker) (value : List UInt8) :
    (feedObs chrono a stop taker value).filterMap Obs.told =
      tells ((a.pulled stop value).1.filterMap (tryMeasurement chrono)) := by
  have hframes : ∀ frames : List (List UInt8),
      (frames.flatMap (takeObs chrono taker)).filterMap Obs.told =
        tells (frames.filterMap (tryMeasurement chrono)) := by
    intro frames
    induction frames with
    | nil => rfl
    | cons frame frames ih =>
      rw [List.flatMap_cons, List.filterMap_append, ih]
      cases hm : tryMeasurement chrono frame with
      | none =>
        simp only [takeObs, forwardObs, hm, List.filterMap_cons_none hm]
        rfl
      | some m =>
        simp only [takeObs, forwardObs, hm, List.filterMap_cons_some hm]
        rfl
  exact hframes _

/-! ## One event -/

section Rules

variable {bytes : List UInt8}

/-- After a failure nothing is promised. -/
theorem Broken.wp_carried {takes : Answer → Prop} {logs : Obs → Prop} {x : ActorM Unit}
    (hx : Await.Confined takes logs x) (h : Broken log log') :
    Await.wp x (fun _ log'' a'' => Carried chrono log bytes log'' a'') (fun _ _ => True) log' a :=
  Await.wp_mono (Broken.wp hx h) (fun _ _ _ h => .of_broken h) fun _ _ h => h

theorem wp_pollWrite_carried (h : Carried chrono log bytes log' a) :
    Await.wp pollWrite (fun _ log'' a'' => Carried chrono log bytes log'' a'') (fun _ _ => True)
      log' a := by
  unfold pollWrite
  refine Await.wp_bind (Await.wp_get.mpr (Await.wp_bind (wp_onLink trivial fun acts elapsed => ?_)))
  refine Connection.wp_write (fun _ _ => trivial) (fun tries htries => ?_) fun tries e htries => ?_
  · by_cases hconnected : .connected ∈ tries
    -- the link was re-established along the way
    · simp only [hconnected, decide_true]
      refine Broken.wp_carried (still_reconnected _) ?_
      rw [List.append_assoc, List.append_assoc]
      exact h.lose (not_linkHeld (o := .connected) (by simp [hconnected]) rfl)
    · simp only [hconnected, decide_false]
      refine Await.wp_pure.mpr ?_
      rw [List.append_assoc, List.append_assoc]
      refine h.quiet (fun o ho => ?_) rfl rfl
      simp only [List.mem_append, List.mem_cons, List.not_mem_nil, or_false] at ho
      obtain rfl | ho | rfl | rfl := ho
      · rfl
      · obtain rfl | rfl := htries o ho <;> rfl
      · rfl
      · rfl
  · refine Broken.wp_carried (still_abortStream _) ?_
    rw [List.append_assoc, List.append_assoc]
    exact h.lose (not_linkHeld (List.mem_append_right _ (List.mem_append_right _
      (List.mem_singleton_self _))) rfl)

theorem wp_pollDevice_carried (h : Carried chrono log bytes log' a) :
    Await.wp pollDevice (fun _ log'' a'' => Carried chrono log bytes log'' a'') (fun _ _ => True)
      log' a := by
  obtain hbroken | hsome := h.cases
  · exact hbroken.wp_carried still_pollDevice
  · have hreap : Carried chrono log bytes (log' ++ [.clients .reap]) (a.applyOp .reap) :=
      h.quiet (by simp [Obs.told]) rfl rfl
    unfold pollDevice
    refine Await.wp_bind (wp_clientOp (Await.wp_bind (Await.wp_get.mpr ?_)))
    split
    · split
      case h_1 hnone =>
        have hnone' : a.notifications = none := hnone
        rw [hnone'] at hsome
        cases hsome
      case h_2 => exact wp_pollWrite_carried hreap
    · exact Await.wp_pure.mpr hreap

/-- A value of the stream joins what it has brought. -/
theorem wp_handleNotification_carried {event : Option ValueNotification}
    (h : Carried chrono log bytes log' a) :
    Await.wp (handleNotification chrono event)
      (fun _ log'' a'' => Carried chrono log
        (bytes ++ (Event.notification event).received) log'' a'')
      (fun _ _ => True) log' a := by
  unfold handleNotification
  cases event with
  | none =>
    refine Await.wp_bind (wp_onLink trivial fun acts elapsed => ?_)
    have hlose : ∀ {obs : List Obs} {o : Obs}, o ∈ obs → o.lost = true →
        Broken log (log' ++ [.meanwhile acts] ++ obs) := by
      intro obs o ho hlost
      rw [List.append_assoc]
      exact h.lose (not_linkHeld (List.mem_append_right _ ho) hlost)
    refine Connection.wp_reconnectStream trivial trivial ?_ (fun e => ?_) fun e => ?_
    · refine Broken.wp_carried (Await.confined_bind (Await.confined_modify _) fun _ =>
        still_applySubscription _) (hlose (o := .connected) (by simp) rfl)
    · exact Broken.wp_carried (still_abortStream _) (hlose (o := .connected) (by simp) rfl)
    · exact Broken.wp_carried (still_abortStream _)
        (hlose (o := .reconnectStream false) (by simp) rfl)
  | some event =>
    dsimp only
    split
    case isTrue huuid =>
      refine Await.wp_pure.mpr ?_
      simpa [Event.received, huuid] using h
    case isFalse huuid =>
      have hrx : event.uuid = cRx := not_not.mp huuid
      refine Await.wp_bind (wp_feedUntil chrono (Await.wp_pure.mpr ?_))
      obtain ⟨seg, rfl, hseg⟩ := h
      refine ⟨seg ++ feedObs chrono a (fun _ => false) .notification event.value, by simp,
        fun hheld => ?_⟩
      obtain ⟨hsome, hrest, htold⟩ := hseg (linkHeld_append.mp hheld).1
      obtain ⟨hn, hasm⟩ := forwardedAll_stream chrono (a.pulled (fun _ => false) event.value).1
        { a with assembler := (a.pulled (fun _ => false) event.value).2.2 }
      have hpulled : a.pulled (fun _ => false) event.value =
        ((residue bytes).feed event.value).pull fun _ => false := by rw [Actor.pulled, hrest]
      simp only [Event.received, hrx, if_true]
      refine ⟨?_, ?_, ?_⟩
      · rw [Actor.fed, hn]
        exact hsome
      · rw [Actor.fed, hasm, residue_append, hpulled]
        rfl
      · rw [List.filterMap_append, htold, told_feedObs, measurementsIn_append, hpulled,
          tells, tells,
          tells, List.map_append]
        rfl

/-- A request that is no one-shot leaves the stream alone. -/
theorem wp_handle_carried {cmd : ActorCommand} (hone : cmd.request.isOneshot = false)
    (h : Carried chrono log bytes log' a) :
    Await.wp (handle chrono cmd) (fun _ log'' a'' => Carried chrono log bytes log'' a'')
      (fun _ _ => True) log' a := by
  obtain ⟨request, tx⟩ := cmd
  have hbegun : Carried chrono log bytes (log' ++ [.request tx request] ++ [.clients .reap])
      (a.applyOp .reap) := by
    rw [List.append_assoc]
    exact h.quiet (by simp [Obs.told]) rfl rfl
  unfold handle
  refine Await.wp_bind (Await.wp_observe.mpr (Await.wp_bind (wp_clientOp ?_)))
  cases request with
  | ping => exact Await.wp_pure.mpr hbegun
  | shutdown => exact Await.wp_pure.mpr hbegun
  | subscribe =>
    unfold handleSubscribe
    refine Await.wp_bind (Await.wp_get.mpr ?_)
    split
    case h_1 hnone =>
      have hbroken := hbegun.cases.resolve_right (by simp [hnone])
      refine Await.wp_bind (Await.wp_mono (Broken.wp still_relisten hbroken)
        (fun result log'' _ hlog => ?_) fun _ _ h => h)
      cases result with
      | error e => exact wp_sendError (.of_broken (hlog.append _))
      | ok _ => exact wp_clientOp (.of_broken (hlog.append _))
    case h_2 => exact wp_clientOp (hbegun.quiet (by simp [Obs.told]) rfl rfl)
  | getRtc => cases hone
  | power on => cases hone
  | testLed => cases hone
  | setRtc time => cases hone

theorem wp_handleEvent_carried {event : Event} (hone : event.isOneshot = false)
    (h : Carried chrono log bytes log' a) :
    Await.wp (handleEvent chrono event)
      (fun goesOn log'' a'' => goesOn = true →
        Carried chrono log (bytes ++ event.received) log'' a'')
      (fun _ _ => True) log' a := by
  have hmeanwhile : ∀ acts elapsed, Carried chrono log bytes (log' ++ [.meanwhile acts])
      (a.elapse acts elapsed) := fun acts elapsed => h.quiet (by simp [Obs.told]) rfl rfl
  refine wp_handleEvent chrono trivial (fun _ _ hgo => absurd hgo Bool.false_ne_true) ?_ ?_ ?_
  · rintro cmd rfl acts elapsed
    refine Await.wp_mono (wp_handle_carried hone (hmeanwhile acts elapsed)) (fun _ _ _ h _ => ?_)
      fun _ _ h => h
    show Carried chrono log (bytes ++ []) _ _
    rwa [List.append_nil]
  · rintro rfl acts elapsed
    refine Await.wp_mono (wp_pollDevice_carried (hmeanwhile acts elapsed)) (fun _ _ _ h _ => ?_)
      fun _ _ h => h
    show Carried chrono log (bytes ++ []) _ _
    rwa [List.append_nil]
  · rintro event rfl acts elapsed
    exact Await.wp_mono (wp_handleNotification_carried (hmeanwhile acts elapsed))
      (fun _ _ _ h _ => h) fun _ _ h => h

end Rules

/-- The bytes a run has received. -/
def received (labels : List (Event × List Answer)) : List UInt8 :=
  labels.flatMap fun label => label.1.received

theorem carried_step {agent agent' : Agent} {label : Event × List Answer} {bytes : List UInt8}
    (h : Carried chrono log bytes agent.log agent.actor) (hone : label.1.isOneshot = false)
    (hstep : agent.step chrono label = some agent') (hrunning : agent'.running = true) :
    Carried chrono log (bytes ++ label.1.received) agent'.log agent'.actor := by
  obtain ⟨event, tape⟩ := label
  obtain ⟨-, -, ⟨-, hgo⟩ | ⟨log', a', rfl, -⟩⟩ :=
    step_of_wp chrono (wp_handleEvent_carried hone h) hstep
  · exact hgo rfl
  · cases hrunning

/-- While no one-shot interferes, the clients are told what the stream brings. -/
theorem carried_run {agent agent' : Agent} {labels : List (Event × List Answer)}
    {bytes : List UInt8}
    (h : Carried chrono log bytes agent.log agent.actor)
    (halone : ∀ label ∈ labels, label.1.isOneshot = false)
    (hrun : Transition.run (Agent.step chrono) agent labels = some agent')
    (hrunning : agent'.running = true) :
    Carried chrono log (bytes ++ received labels) agent'.log agent'.actor := by
  induction labels generalizing agent bytes with
  | nil =>
    cases hrun
    simpa [received] using h
  | cons label labels ih =>
    obtain ⟨agent₁, hstep, hrun'⟩ := Transition.run_cons hrun
    have hnext := carried_step h (halone label (by simp)) hstep (running_of_run hrun' hrunning)
    have hrest := ih hnext (fun label' hlabel' => halone label' (by simp [hlabel'])) hrun'
    rwa [List.append_assoc] at hrest

/-- Since `log`, unless the link failed, a client joined the list last, and the
assembler was empty. -/
def Joined (log : List Obs) (tx : ClientId) (log' : List Obs) (a' : Actor) : Prop :=
  ∃ seg, log' = log ++ seg ∧ (LinkHeld seg → (∃ pre, log' = pre ++ [.clients (.add tx)]) ∧
    a'.notifications.isSome = true ∧ a'.assembler = .new)

theorem wp_handle_joined {tx : ClientId} (hfresh : a.notifications = none ∨ a.assembler = .new)
    (hlog : ∃ obs, log' = log ++ obs) :
    Await.wp (handle chrono ⟨.subscribe, tx⟩) (fun _ log'' a'' => Joined log tx log'' a'')
      (fun _ _ => True) log' a := by
  obtain ⟨obs, rfl⟩ := hlog
  unfold handle
  refine Await.wp_bind (Await.wp_observe.mpr (Await.wp_bind (wp_clientOp ?_)))
  unfold handleSubscribe
  refine Await.wp_bind (Await.wp_get.mpr ?_)
  split
  case h_1 =>
    refine Await.wp_bind (wp_relisten trivial (fun _ _ => trivial) (fun _ _ => ?_) fun _ _ e => ?_)
    · exact wp_clientOp ⟨_, by simp only [List.append_assoc]; rfl, fun _ => ⟨⟨_, rfl⟩, rfl, rfl⟩⟩
    · refine wp_sendError ⟨_, by simp only [List.append_assoc]; rfl, fun hheld => ?_⟩
      exact absurd hheld (not_linkHeld (o := .listen false) (by simp) rfl)
  case h_2 n hsome =>
    have hn : a.notifications = some n := hsome
    have hnew : a.assembler = .new := hfresh.resolve_left (by simp [hn])
    refine wp_clientOp ⟨_, by simp only [List.append_assoc]; rfl, fun _ => ⟨⟨_, rfl⟩, ?_, hnew⟩⟩
    show a.notifications.isSome = true
    rw [hn]
    rfl

/-- A client subscribes where nothing is half received. -/
theorem joined_step {agent agent' : Agent} {tx : ClientId} {tape : List Answer}
    (hfresh : agent.actor.notifications = none ∨ agent.actor.assembler = .new)
    (hstep : agent.step chrono (.command (some ⟨.subscribe, tx⟩), tape) = some agent')
    (hrunning : agent'.running = true) : Joined agent.log tx agent'.log agent'.actor := by
  have hwp : Await.wp (handleEvent chrono (.command (some ⟨.subscribe, tx⟩)))
      (fun goesOn log' a' => goesOn = true → Joined agent.log tx log' a') (fun _ _ => True)
      agent.log agent.actor := by
    refine wp_handleEvent chrono trivial (fun _ _ hgo => absurd hgo Bool.false_ne_true) ?_
      (by simp) (by simp)
    intro cmd hcmd acts elapsed
    cases hcmd
    exact Await.wp_mono (wp_handle_joined hfresh ⟨_, rfl⟩) (fun _ _ _ h _ => h) fun _ _ h => h
  obtain ⟨-, -, ⟨-, hgo⟩ | ⟨log', a', rfl, -⟩⟩ := step_of_wp chrono hwp hstep
  · exact hgo rfl
  · cases hrunning

/-! ## What the client is given -/

/-- The client is still there, and has room for what it is about to be told. -/
def Chan.keepsPace (chan : Chan) (o : Obs) : Prop :=
  chan.closed = false ∧ (o.told.isSome = true → chan.queue.length < clientQueueLen)

instance (chan : Chan) (o : Obs) : Decidable (chan.keepsPace o) :=
  inferInstanceAs (Decidable (_ ∧ _))

/-- From the `n`th observation on, a client never falls a whole queue behind, until
it has enough. -/
def KeepsPace (count : Option Nat) (start : Clients) (c : ClientId) (n : Nat) (log : List Obs) :
    Prop :=
  Always (fun pre o => n ≤ pre.length →
    Enough count ((pre.foldl Obs.replay start).chans c).given.length ∨
      ((pre.foldl Obs.replay start).chans c).keepsPace o) log

instance (count : Option Nat) (start : Clients) (c : ClientId) (n : Nat) (log : List Obs) :
    Decidable (KeepsPace count start c n log) :=
  inferInstanceAs (Decidable (Always _ log))

/-- A client on the list was given all that was told; one that left had enough. -/
def Supplied (count : Option Nat) (feed : Feed) (told : List Response) : Prop :=
  (feed.listed = true ∧ feed.chan.given = told) ∨
    (feed.listed = false ∧ Enough count feed.chan.given.length ∧ feed.chan.given <+: told)

namespace Supplied

variable {count : Option Nat} {feed : Feed} {told : List Response} {o : Obs}

theorem given_prefix (h : Supplied count feed told) : feed.chan.given <+: told := by
  obtain ⟨-, hgiven⟩ | ⟨-, -, hgiven⟩ := h
  · rw [hgiven]
  · exact hgiven

theorem enough_or (h : Supplied count feed told) :
    feed.chan.given = told ∨ Enough count feed.chan.given.length :=
  h.imp And.right fun h => h.2.1

theorem broadcast (h : Supplied count feed told) {response : Response}
    (hpace : Enough count feed.chan.given.length ∨ feed.chan.keepsPace o)
    (ho : o.told = some response) :
    Supplied count (feed.apply (.broadcast response)) (told ++ [response]) := by
  obtain ⟨hlisted, hgiven⟩ | ⟨hlisted, henough, hgiven⟩ := h
  · simp only [Feed.apply, hlisted, if_true]
    obtain ⟨hkept, hsent⟩ | ⟨hleft, hsame, hwhy⟩ := Feed.retainSent_cases response feed.chan
    · exact .inl ⟨hkept, by rw [hsent, hgiven]⟩
    · rw [hsame]
      refine .inr ⟨hleft, hpace.resolve_right fun hkeeps => ?_, by simp [hgiven]⟩
      obtain ⟨hopen, hroom⟩ := hkeeps
      obtain hclosed | hfull := hwhy
      · rw [hopen] at hclosed
        cases hclosed
      · have hlt := hroom (by simp [ho])
        omega
  · refine .inr ⟨?_, ?_, ?_⟩
    · simp [Feed.apply, hlisted]
    · simpa [Feed.apply, hlisted] using henough
    · simpa [Feed.apply, hlisted] using hgiven.trans (List.prefix_append _ _)

theorem reap (h : Supplied count feed told)
    (hpace : Enough count feed.chan.given.length ∨ feed.chan.keepsPace o) :
    Supplied count (feed.apply .reap) told := by
  obtain ⟨hlisted, hgiven⟩ | ⟨hlisted, hrest⟩ := h
  · cases hclosed : feed.chan.closed with
    | false => exact .inl ⟨by simp [Feed.apply, hlisted, hclosed], hgiven⟩
    | true =>
      refine .inr ⟨by simp [Feed.apply, hclosed], hpace.resolve_right fun hkeeps => ?_, ?_⟩
      · rw [hkeeps.1] at hclosed
        cases hclosed
      · show feed.chan.given <+: told
        rw [hgiven]
  · exact .inr ⟨by simp [Feed.apply, hlisted], hrest⟩

theorem act (h : Supplied count feed told) (act : ClientAct) :
    Supplied count (feed.apply (.act act)) told := by
  unfold Supplied
  rw [show (feed.apply (.act act)).chan.given = feed.chan.given from Feed.given_act feed.chan act]
  exact h

end Supplied

/-- The clients act on their queues. -/
theorem supplied_acts {count : Option Nat} {clients : Clients} {c : ClientId} {told : List Response}
    (h : Supplied count (clients.feed c) told) (hnodup : clients.list.Nodup)
    (acts : List (ClientId × ClientAct)) :
    Supplied count ((clients.run (acts.map fun x => .act x.1 x.2)).feed c) told := by
  induction acts generalizing clients with
  | nil => exact h
  | cons x acts ih =>
    refine ih ?_ hnodup
    rw [Clients.feed_apply hnodup]
    by_cases hx : x.1 = c
    · simpa [ClientOp.project, hx] using h.act x.2
    · simpa [ClientOp.project, hx] using h

/-- One observation more, which is no part of an exchange with the client. -/
theorem supplied_concat {count : Option Nat} {clients : Clients} {c : ClientId}
    {told : List Response} {o : Obs} (h : Supplied count (clients.feed c) told)
    (hnodup : clients.list.Nodup)
    (hpace : Enough count (clients.chans c).given.length ∨ (clients.chans c).keepsPace o)
    (hapart : ∀ x, o.exchange ≠ some (c, x))
    (hmeasures : ∀ response ∈ o.told, response.isMeasurement = true) :
    Supplied count ((o.replay clients).feed c) (told ++ o.told.toList) := by
  have hquiet : Supplied count (clients.feed c) (told ++ []) := by rwa [List.append_nil]
  cases o with
  | clients op =>
    show Supplied count ((clients.apply op).feed c) _
    rw [Clients.feed_apply hnodup]
    cases op with
    | add tx =>
      have hne : tx ≠ c := by
        intro htx
        exact hapart .added (by rw [Obs.exchange, htx])
      simpa [ClientOp.project, hne, Obs.told] using h
    | broadcast response => exact h.broadcast hpace rfl
    | reap => simpa [ClientOp.project, Obs.told] using h.reap hpace
    | abort reason => exact absurd (hmeasures _ rfl) (by simp [Response.isMeasurement])
    | end_ => exact absurd (hmeasures _ rfl) (by simp [Response.isMeasurement])
    | act tx act =>
      by_cases htx : tx = c
      · simpa [ClientOp.project, htx, Obs.told] using h.act act
      · simpa [ClientOp.project, htx, Obs.told] using h
  | meanwhile acts =>
    show Supplied count ((clients.run (acts.map fun x => .act x.1 x.2)).feed c) (told ++ [])
    exact supplied_acts hquiet hnodup acts
  | reply tx response =>
    have hne : c ≠ tx := by
      intro htx
      exact hapart (.replied response) (by rw [Obs.exchange, htx])
    have hchans : ((Obs.reply tx response).replay clients).chans =
        Function.update clients.chans tx ((clients.chans tx).trySend response).2 := rfl
    have hfeed : ((Obs.reply tx response).replay clients).feed c = clients.feed c := by
      rw [Clients.feed, hchans, Function.update_of_ne hne]
      rfl
    rw [hfeed]
    exact hquiet
  | _ => exact hquiet

/-- Over a part of a log that is no exchange with the client. -/
theorem supplied_run {count : Option Nat} {start : Clients} {c : ClientId} {log seg : List Obs}
    (hstart : Supplied count ((log.foldl Obs.replay start).feed c) [])
    (hnodup : ∀ pre, pre <+: log ++ seg → (pre.foldl Obs.replay start).list.Nodup)
    (hpace : KeepsPace count start c log.length (log ++ seg))
    (hapart : exchangeOn c seg = [])
    (hmeasures : ∀ response ∈ seg.filterMap Obs.told, response.isMeasurement = true) :
    Supplied count (((log ++ seg).foldl Obs.replay start).feed c) (seg.filterMap Obs.told) := by
  induction seg using List.reverseRecOn with
  | nil => simpa using hstart
  | append_singleton seg o ih =>
    rw [exchangeOn_append] at hapart
    obtain ⟨hapart', ho⟩ := List.append_eq_nil_iff.mp hapart
    rw [← List.append_assoc] at hpace hnodup
    obtain ⟨hpace', hnow⟩ := always_concat.mp hpace
    have hpre : log ++ seg <+: log ++ seg ++ [o] := List.prefix_append _ _
    have hseg := ih (fun pre h => hnodup pre (h.trans hpre)) hpace' hapart'
      fun response hresponse => hmeasures response (by simp [hresponse])
    have hconcat := supplied_concat hseg (hnodup _ hpre) (hnow (by simp)) (fun x hx => ?_)
      fun response hresponse => hmeasures response (List.mem_filterMap.mpr ⟨o, by simp, hresponse⟩)
    · have htold : (seg ++ [o]).filterMap Obs.told = seg.filterMap Obs.told ++ o.told.toList := by
        cases h : o.told <;> simp [h]
      rw [htold, ← List.append_assoc, List.foldl_append]
      exact hconcat
    · simp [exchangeOn, exchanges, hx] at ho

end Zone

/-! ## A relayed stream -/

theorem feed_of_fan {clients clients' : Clients} (h : clients.fan = clients'.fan) (c : ClientId) :
    clients.feed c = clients'.feed c := by
  obtain ⟨hlist, hchans⟩ := Prod.ext_iff.mp h
  simp only [Clients.fan] at hlist hchans
  rw [Clients.feed, Clients.feed, hlist, hchans]

/-- A client subscribes to a running agent where nothing is half received, and
from then on the link holds and no one-shot request is made. -/
structure Relay (chrono : Chrono) (start : Agent) where
  client : ClientId
  before : List (Event × List Answer)
  answers : List Answer
  after : List (Event × List Answer)
  /-- Before it subscribes, once it has, and at the end. -/
  idle : Agent
  joined : Agent
  agent : Agent
  reached : Transition.run (Agent.step chrono) start before = some idle
  subscribes : idle.step chrono (.command (some ⟨.subscribe, client⟩), answers) = some joined
  goesOn : Transition.run (Agent.step chrono) joined after = some agent
  running : agent.running = true
  own : OwnChannels (before ++ (.command (some ⟨.subscribe, client⟩), answers) :: after)
  fresh : idle.actor.notifications = none ∨ idle.actor.assembler = .new
  alone : ∀ label ∈ after, label.1.isOneshot = false
  linked : LinkHeld (agent.log.drop idle.log.length)

namespace Relay

variable {chrono : Chrono} {start : Agent} (relay : Relay chrono start)

/-- The whole run. -/
def labels : List (Event × List Answer) :=
  relay.before ++ (.command (some ⟨.subscribe, relay.client⟩), relay.answers) :: relay.after

/-- What the stream has brought since the client subscribed. -/
def brought : List UInt8 := received relay.after

/-- The channel of the client. -/
def chan : Chan := relay.agent.actor.clients.chans relay.client

/-- The client keeps up, until it has enough. -/
def KeepsPace (count : Option Nat) : Prop :=
  Btwattch2.KeepsPace count start.actor.clients relay.client relay.joined.log.length relay.agent.log

theorem runs : Transition.run (Agent.step chrono) start relay.labels = some relay.agent := by
  rw [labels, Transition.run_append, relay.reached]
  simp [Transition.run, relay.subscribes, relay.goesOn]

theorem running_joined : relay.joined.running = true := running_of_run relay.goesOn relay.running

/-- The client joined last, and was told what the stream brought since. -/
theorem carries : ∃ pre seg, relay.joined.log = pre ++ [.clients (.add relay.client)] ∧
    relay.agent.log = relay.joined.log ++ seg ∧
    seg.filterMap Obs.told = tells (measurementsIn chrono relay.brought) := by
  obtain ⟨seg₀, hlog₀, hjoined⟩ := joined_step relay.fresh relay.subscribes relay.running_joined
  obtain ⟨seg, hlog, -⟩ :=
    (stable_follows chrono relay.joined.log relay.joined.actor []).run (.refl _ _) relay.goesOn
  have hheld : LinkHeld (seg₀ ++ seg) := by
    have hlinked := relay.linked
    rwa [hlog, hlog₀, List.append_assoc, List.drop_left] at hlinked
  obtain ⟨hheld₀, hheld'⟩ := linkHeld_append.mp hheld
  obtain ⟨⟨pre, hpre⟩, hsome, hnew⟩ := hjoined hheld₀
  have hcarried : Carried chrono relay.joined.log [] relay.joined.log relay.joined.actor :=
    ⟨[], by simp, fun _ => ⟨hsome, hnew, rfl⟩⟩
  obtain ⟨seg', hlog', hseg'⟩ := carried_run hcarried relay.alone relay.goesOn relay.running
  obtain rfl := List.append_cancel_left (hlog.symm.trans hlog')
  exact ⟨pre, seg, hpre, hlog, (hseg' hheld').2.2⟩

/-- The client was given what it was told, up to where it had enough. -/
theorem supplied {conn : Connection} {interval now : Nat} {metricsListen : Option String}
    {pollAlways : Bool} {count : Option Nat}
    (relay : Relay chrono (.start conn interval now metricsListen pollAlways))
    (hpace : relay.KeepsPace count) :
    Supplied count (relay.agent.actor.clients.feed relay.client)
      (tells (measurementsIn chrono relay.brought)) := by
  obtain ⟨pre, seg, hpre, hlog, htold⟩ := relay.carries
  have hexchanges : ExchangeLaw relay.labels relay.agent :=
    exchange_run chrono rfl relay.runs relay.own
  have hstream := (stable_streamLaw chrono _).run
    (streamLaw_start chrono conn interval now metricsListen pollAlways) relay.runs
  have hlaw : ∀ log, log <+: relay.agent.log → ChannelLaw log (log.foldl Obs.replay
      (Agent.start conn interval now metricsListen pollAlways).actor.clients) := by
    intro log hprefix
    obtain ⟨rest, hrest⟩ := hprefix
    refine channelLaw rfl (fun _ => rfl) (fun c => ?_) fun o ho =>
      hstream.measures o (by rw [← hrest]; simp [ho])
    have hunderway := hexchanges.underway c
    rw [← hrest, exchangeOn_append] at hunderway
    exact hunderway.of_append
  have hjoined : relay.joined.log <+: relay.agent.log := ⟨seg, hlog.symm⟩
  have hbefore : pre <+: relay.agent.log := by
    rw [hlog, hpre, List.append_assoc]
    exact List.prefix_append _ _
  -- the exchange is over when the client has joined
  have hadded : exchangeOn relay.client relay.joined.log =
      exchangeOn relay.client pre ++ [.added] := by
    simp [hpre, exchangeOn, exchanges, Obs.exchange]
  have hasked : exchangeOn relay.client pre = [.asked .subscribe] := by
    have hunderway := hexchanges.underway relay.client
    rw [hlog, exchangeOn_append, hadded] at hunderway
    exact hunderway.of_append.last
  have hapart : exchangeOn relay.client seg = [] := by
    have hlength := (hexchanges.underway relay.client).length_le
    rw [hlog, exchangeOn_append, hadded, hasked] at hlength
    exact List.length_eq_zero_iff.mp (by simpa using hlength)
  have hbegins : Supplied count ((relay.joined.log.foldl Obs.replay
      (Agent.start conn interval now metricsListen pollAlways).actor.clients).feed relay.client) [] := by
    have hgiven := ((hlaw pre hbefore).on relay.client).quiet (by simp [hasked]) (by simp [hasked])
    rw [hpre, List.foldl_append]
    show Supplied count ((Clients.apply _ (.add relay.client)).feed relay.client) []
    rw [Clients.feed_apply (hlaw pre hbefore).nodup]
    exact .inl ⟨by simp [ClientOp.project, Feed.apply],
      by simpa [ClientOp.project, Feed.apply] using hgiven⟩
  have hpaced : Btwattch2.KeepsPace count _ relay.client relay.joined.log.length relay.agent.log := hpace
  rw [hlog] at hpaced
  have hrun := supplied_run hbegins (fun log h => (hlaw log (hlog ▸ h)).nodup) hpaced hapart
    (by simp [htold, tells, Response.fromMeasurement, Response.isMeasurement])
  have hfeed : relay.agent.actor.clients.feed relay.client = (relay.agent.log.foldl Obs.replay
      (Agent.start conn interval now metricsListen pollAlways).actor.clients).feed relay.client :=
    feed_of_fan hstream.replay relay.client
  rwa [hfeed, ← htold, hlog]

/-- The handler writes it in that order. -/
theorem lines_prefix {conn : Connection} {interval now : Nat} {metricsListen : Option String}
    {pollAlways : Bool} (relay : Relay chrono (.start conn interval now metricsListen pollAlways))
    {parse : String → Except String Request} {addr : BDAddr} {handling : Handling parse addr}
    (hattached : Attached handling chrono (.start conn interval now metricsListen pollAlways)
      relay.labels relay.agent relay.client) : handling.lines <+: relay.chan.given := by
  have hmem : ⟨.subscribe, relay.client⟩ ∈ commandsOf relay.labels := by
    rw [labels, commandsOf_append]
    exact List.mem_append_right _ (by simp [commandsOf])
  exact hattached.lines_prefix (Handling.relays_of_submitted (hattached.command _ hmem rfl))

end Relay

/-! ## The two ways of streaming -/

/-- What `runViaDaemon` comes to when the agent writes these lines. -/
def viaDaemon (platform : Platform) (mode : Mode) (cli : Cli) (paths : AgentPaths)
    (lines : List Response) :
    Option (Except String Unit) × Stage ClientAnswer ClientObs Unit :=
  runViaDaemon platform mode cli paths
    ⟨.connect (.ok ()) :: .write (.ok ()) :: lines.map fun response => .line (.response response),
      [], ()⟩

/-- **A relayed stream is rendered like a direct one**: whatever else the agent
does, what `runViaDaemon` renders of the bytes the stream has brought since the
client subscribed is what a direct run renders of the same bytes, but for what is
still on its way to it; and with all of it the two have stopped after the same
sample or both go on. -/
theorem relayed_as_direct (platform : Platform) (chrono : Chrono)
    (hsingle : SingleValued platform chrono) {conn : Connection} {interval now : Nat}
    {metricsListen : Option String} {pollAlways : Bool}
    (relay : Relay chrono (.start conn interval now metricsListen pollAlways)) {mode : Mode}
    (hmode : mode.streams = true) (cli : Cli) (hpace : relay.KeepsPace (cli.sampleCount mode))
    {parse : String → Except String Request} {addr : BDAddr} {handling : Handling parse addr}
    (hattached : Attached handling chrono (.start conn interval now metricsListen pollAlways)
      relay.labels relay.agent relay.client) (paths : AgentPaths) {link : Connection}
    {tape : List Answer} {labels : List (Direct.Event × List Answer)}
    {s t : Direct.Subscription Recording}
    (hstart : Direct.Subscription.start link (Recording.new mode cli) tape = some s)
    (hrun : Transition.run (Direct.Subscription.stepMeasure chrono Recording.record) s labels = some t)
    (hlasts : ∀ label ∈ labels, label.1 ≠ .notification none)
    -- the direct run has received the same bytes, or enough of them to stop
    (hsame : t.progress = .running ∧ Direct.received labels = relay.brought ∨
      t.progress = .returned (.ok ()) ∧ Direct.received labels <+: relay.brought) :
    let relayed := viaDaemon platform mode cli paths handling.lines
    renderedIn relayed.2.log <+: renderedIn t.direct.captured.log ∧
    (handling.lines = relay.chan.given ∨ relayed.1 = some (.ok ()) →
      renderedIn relayed.2.log = renderedIn t.direct.captured.log ∧
      (relayed.1 = some (.ok ()) ↔ t.progress = .returned (.ok ()))) := by
  have hsupplied := relay.supplied hpace
  have hdirect := Direct.hasRendered_run hstart hrun hlasts
  -- the lines tell a part of the measurements
  obtain ⟨ms, hms, hlines⟩ := List.prefix_map_iff.mp
    ((relay.lines_prefix hattached).trans hsupplied.given_prefix)
  have hround : ∀ m ∈ ms, toMeasurement platform (.fromMeasurement m) = some m := by
    intro m hm
    obtain ⟨frame, hframe⟩ := exists_frame (hms.subset hm)
    exact toMeasurement_of_frame hsingle hframe
  obtain ⟨r, u, hvia, hrendered, hend⟩ :=
    @runViaDaemon_renders platform Unit mode cli paths () hmode
    ms hround
  have hrelayed : viaDaemon platform mode cli paths handling.lines = (r, u) := by
    rw [viaDaemon, hlines, List.map_map]
    exact hvia
  -- and so do the bytes of the direct run
  have hpart : measurementsIn chrono (Direct.received labels) <+:
      measurementsIn chrono relay.brought := by
    obtain ⟨-, hall⟩ | ⟨-, hpart⟩ := hsame
    · rw [hall]
    · exact measurementsIn_mono hpart
  have hstops : t.progress = .returned (.ok ()) ↔
      Enough (cli.sampleCount mode) (measurementsIn chrono (Direct.received labels)).length := by
    obtain ⟨hrunning, -⟩ | ⟨hreturned, -⟩ := hsame
    · exact iff_of_false (by simp [hrunning]) (hdirect.running hrunning).2
    · exact iff_of_true hreturned (hdirect.returned hreturned)
  obtain ⟨hsamples, henough⟩ :=
    sampled_eq hpart (hsame.imp (fun h => by rw [h.2]) fun h => hstops.mp h.1)
  simp only [hrelayed, hrendered, hdirect.renders.log, hsamples]
  refine ⟨sampled_mono hms, fun hcaught => ?_⟩
  have hall : ms = measurementsIn chrono relay.brought ∨
    Enough (cli.sampleCount mode) ms.length := by
    obtain hwritten | hdone := hcaught
    · have hgiven : relay.chan.given = tells ms := hwritten.symm.trans hlines
      refine hsupplied.enough_or.imp (fun htold => hms.eq_of_length ?_) fun hmany => ?_
      · have hlength := congrArg List.length (hgiven.symm.trans htold)
        simpa [tells] using hlength
      · have hlength : (relay.agent.actor.clients.feed relay.client).chan.given.length =
          ms.length := by
          show relay.chan.given.length = ms.length
          simp [hgiven, tells]
        rwa [hlength] at hmany
    · exact .inr (hend.mp hdone)
  obtain ⟨hrest, hmore⟩ := sampled_eq hms hall
  exact ⟨hrest, by rw [hend, hstops, hmore, henough]⟩

/-- The sample that both runs render. -/
def sampleFrame : List UInt8 := generate
  [8, 0, 0, 0, 0, 100, 0, 0, 0, 0, 0, 0, 0, 0, 0, 0, 0, 0, 0, 0, 23, 9, 5, 30, 11, 120, 0]

/-- The agent receives it in two values, after a client has subscribed. -/
def sampleRelayed : List (Event × List Answer) :=
  [(.notification (some ⟨cRx, sampleFrame.take 12⟩), [.meanwhile [] 0]),
    (.tick, [.meanwhile [] 0, .meanwhile [] 0, .deviceWrite (.ok ())]),
    (.notification (some ⟨cRx, sampleFrame.drop 12⟩), [.meanwhile [] 0])]

def subscribeLine : String := "\x7b\"cmd\":\"subscribe\"\x7d"

def readSubscribeLine (line : String) : Except String Request :=
  if line = subscribeLine then .ok .subscribe else .error "expected value at line 1 column 1"

def sampleLine : Response := .measurement 100 0 0 0 1609304963

def subscribeHandling : Handling readSubscribeLine 0xCBDF6B123456#48 where
  bytes := subscribeLine.toUTF8.data.toList
  answers := [.actor false (AgentStats.new 0 nanosPerSec none) 0, .send true,
    .recv (some sampleLine), .write true]
  finished := false
  log := [.submitted .subscribe, .wrote sampleLine true]
  runs := rfl

/-- One sample is asked for. The link of the direct run brings it in one value. -/
theorem relayed_as_direct_split :
    ∃ (relay : Relay (.utc fun _ => .error "too short") (.start ⟨1⟩ nanosPerSec 0 none false))
      (t : Direct.Subscription Recording),
      relay.brought = sampleFrame ∧ t.progress = .returned (.ok ()) ∧
      let relayed := viaDaemon bench .monitor { count := some 1 } ⟨"/run/btwattch2.sock"⟩
        subscribeHandling.lines
      relayed.1 = some (.ok ()) ∧
      renderedIn relayed.2.log = renderedIn t.direct.captured.log := by
  have hagent : (Agent.step (.utc fun _ => .error "too short")
      (.start ⟨1⟩ nanosPerSec 0 none false) (.command (some ⟨.subscribe, 0⟩),
        [.meanwhile [] 0, .meanwhile [] 0, .subscribe (.ok ())])).any (fun joined =>
      (Transition.run (Agent.step (.utc fun _ => .error "too short")) joined sampleRelayed).any
        fun agent => agent.running && decide (LinkHeld agent.log) &&
          decide (KeepsPace (some 1) (Agent.start ⟨1⟩ nanosPerSec 0 none false).actor.clients 0
            joined.log.length agent.log) &&
          decide ((agent.actor.clients.chans 0).given = [sampleLine])) = true := by decide +kernel
  have hdirect : ((Direct.Subscription.start ⟨1⟩ (Recording.new .monitor { count := some 1 })
      [.subscribe (.ok ())]).any fun s =>
        (Transition.run (Direct.Subscription.stepMeasure (.utc fun _ => .error "too short")
          Recording.record) s [(.notification (some ⟨cRx, sampleFrame⟩), [])]).any
            fun t => decide (t.progress = .returned (.ok ()))) = true := by decide +kernel
  obtain ⟨joined, hjoined, hjoined'⟩ := (Option.any_eq_true _ _).mp hagent
  obtain ⟨agent, hagent, hchecks⟩ := (Option.any_eq_true _ _).mp hjoined'
  simp only [Bool.and_eq_true, decide_eq_true_eq] at hchecks
  obtain ⟨⟨⟨hrunning, hlinked⟩, hpace⟩, hgiven⟩ := hchecks
  obtain ⟨s, hstart, hs⟩ := (Option.any_eq_true _ _).mp hdirect
  obtain ⟨t, hrun, hreturned⟩ := (Option.any_eq_true _ _).mp hs
  have hreturned' := of_decide_eq_true hreturned
  let relay : Relay (.utc fun _ => .error "too short") (.start ⟨1⟩ nanosPerSec 0 none false) :=
    { client := 0
      before := []
      answers := [.meanwhile [] 0, .meanwhile [] 0, .subscribe (.ok ())]
      after := sampleRelayed
      idle := .start ⟨1⟩ nanosPerSec 0 none false
      joined
      agent
      reached := rfl
      subscribes := hjoined
      goesOn := hagent
      running := hrunning
      own := by decide +kernel
      fresh := .inl rfl
      alone := by decide
      linked := hlinked }
  have hsingle : SingleValued bench (.utc fun _ => .error "too short") := by
    intro naive time htime
    cases htime
    rfl
  have hcommand : ∀ cmd ∈ commandsOf ((.command (some ⟨.subscribe, 0⟩),
      [.meanwhile [] 0, .meanwhile [] 0, .subscribe (.ok ())]) :: sampleRelayed),
      cmd.tx = 0 → .submitted cmd.request ∈ subscribeHandling.log := by decide
  have hnone : none ∉ subscribeHandling.told := by decide
  have hattached : Attached subscribeHandling (.utc fun _ => .error "too short")
      (.start ⟨1⟩ nanosPerSec 0 none false) relay.labels relay.agent relay.client := by
    refine ⟨hcommand, ?_, fun hmem => absurd hmem hnone⟩
    show [sampleLine] <+: (agent.actor.clients.chans 0).given
    rw [hgiven]
  have hbrought : received sampleRelayed = sampleFrame := by decide +kernel
  have hdone : (viaDaemon bench .monitor { count := some 1 } ⟨"/run/btwattch2.sock"⟩
      subscribeHandling.lines).1 = some (.ok ()) := rfl
  have hstreams : Mode.monitor.streams = true := rfl
  have hbytes : Direct.received [(.notification (some ⟨cRx, sampleFrame⟩), [])] <+:
      relay.brought := by
    show Direct.received _ <+: received sampleRelayed
    rw [hbrought]
    exact ⟨[], by decide +kernel⟩
  have hsame := relayed_as_direct bench _ hsingle relay hstreams { count := some 1 } hpace hattached
    ⟨"/run/btwattch2.sock"⟩ hstart hrun (by decide) (.inr ⟨hreturned', hbytes⟩)
  exact ⟨relay, t, hbrought, hreturned', hdone, (hsame.2 (.inr hdone)).1⟩

end Btwattch2
