/-
Btwattch2.LinkTheorems — when a dead link is reported as connected.

A tick or a lost stream that ends with a failed link operation goes through
`abort_stream`, which clears the flag. A request does not: a failure that ends
it leaves the flag as the request found it (`step_flag`).
-/
import Btwattch2.ActorInvariants

namespace Btwattch2

open Lib

/-! ## The last link operation -/

/-- The last link operation that returned: whether it succeeded. -/
def lastLinkOp (obs : List Obs) : Option Bool := (obs.filterMap Obs.linkOp).getLast?

theorem lastLinkOp_append (obs obs' : List Obs) :
    lastLinkOp (obs ++ obs') = (lastLinkOp obs').or (lastLinkOp obs) := by
  simp [lastLinkOp, List.getLast?_append]

theorem lastLinkOp_eq_none {obs : List Obs} (h : ∀ o ∈ obs, o.linkOp = none) :
    lastLinkOp obs = none := by
  simpa [lastLinkOp, List.filterMap_eq_nil_iff] using h

theorem Calm.lastLinkOp {obs : List Obs} (h : Calm obs) : lastLinkOp obs = none := by
  refine lastLinkOp_eq_none fun o ho => ?_
  have hcalm := h o ho
  cases o <;> first | rfl | cases hcalm

theorem lastLinkOp_writeTries {payload : List UInt8} {tries : List Obs}
    (h : Connection.WriteTries payload tries) : lastLinkOp tries = none := by
  refine lastLinkOp_eq_none fun o ho => ?_
  rcases h o ho with rfl | rfl <;> rfl

/-- What has been logged since an earlier moment. -/
def Agent.since (agent agent' : Agent) : List Obs := agent'.log.drop agent.log.length

/-! ## The flag -/

/-- Whether the agent reports its link as up. -/
def Actor.connected (a : Actor) : Bool := a.clients.stats.connected

theorem stats_run_act : ∀ (acts : List (ClientId × ClientAct)) (clients : Clients),
    (clients.run (acts.map fun x => .act x.1 x.2)).stats = clients.stats
  | [], _ => rfl
  | x :: acts, clients => stats_run_act acts (clients.act x.1 x.2)

@[simp] theorem Actor.connected_elapse (a : Actor) (acts : List (ClientId × ClientAct))
    (elapsed : Nat) : (a.elapse acts elapsed).connected = a.connected :=
  congrArg AgentStats.connected (stats_run_act acts a.clients)

/-- An operation on the clients publishes their count, and no more. -/
theorem stats_apply (clients : Clients) (op : ClientOp) :
    ∃ n, (clients.apply op).stats = clients.stats.setClients n := by
  cases op with
  | broadcast response =>
    show ∃ n, (clients.broadcast response).stats = _
    unfold Clients.broadcast
    dsimp only
    split
    · exact ⟨_, rfl⟩
    · exact ⟨clients.stats.clients, rfl⟩
  | reap =>
    show ∃ n, clients.reap.stats = _
    unfold Clients.reap
    split
    · exact ⟨_, rfl⟩
    · exact ⟨clients.stats.clients, rfl⟩
  | act tx act => exact ⟨clients.stats.clients, rfl⟩
  | _ => exact ⟨_, rfl⟩

/-- No operation on the clients touches the flag. -/
@[simp] theorem Actor.connected_applyOp (a : Actor) (op : ClientOp) :
    (a.applyOp op).connected = a.connected := by
  obtain ⟨n, hstats⟩ := stats_apply a.clients op
  show (a.clients.apply op).stats.connected = a.clients.stats.connected
  rw [hstats]
  rfl

@[simp] theorem Actor.connected_aborted (a : Actor) (reason : StreamError) :
    (a.aborted reason).connected = false := by
  rw [Actor.aborted, Actor.connected_applyOp]
  rfl

/-! ## What an event leaves -/

/-- A part was added to the log, and this is its last link operation. -/
def Adds (log : List Obs) (last : Option Bool) (log' : List Obs) : Prop :=
  ∃ obs, log' = log ++ obs ∧ lastLinkOp obs = last

theorem Adds.intro (log obs : List Obs) : Adds log (lastLinkOp obs) (log ++ obs) := ⟨obs, rfl, rfl⟩

theorem Adds.refl (log : List Obs) : Adds log none log := ⟨[], by simp, rfl⟩

theorem Adds.trans {log log' log'' : List Obs} {last last' : Option Bool} (h : Adds log last log')
    (h' : Adds log' last' log'') : Adds log (last'.or last) log'' := by
  obtain ⟨obs, rfl, rfl⟩ := h
  obtain ⟨obs', rfl, rfl⟩ := h'
  exact ⟨obs ++ obs', by simp, lastLinkOp_append obs obs'⟩

theorem Adds.calm {log obs : List Obs} (h : Calm obs) : Adds log none (log ++ obs) :=
  ⟨obs, rfl, h.lastLinkOp⟩

/-- A part was added to the log, and if its last link operation failed the flag
is `c`. -/
def Leaves (c : Bool) (log log' : List Obs) (a' : Actor) : Prop :=
  ∃ last, Adds log last log' ∧ (last = some false → a'.connected = c)

theorem Adds.leaves {c : Bool} {log log' : List Obs} {last : Option Bool} {a' : Actor}
    (h : Adds log last log') (hlast : last ≠ some false) : Leaves c log log' a' :=
  ⟨last, h, fun hfail => absurd hfail hlast⟩

theorem Adds.leaves_flag {c : Bool} {log log' : List Obs} {last : Option Bool} {a' : Actor}
    (h : Adds log last log') (hflag : a'.connected = c) : Leaves c log log' a' :=
  ⟨last, h, fun _ => hflag⟩

/-- What comes before does not matter as long as it did not end in a failure. -/
theorem Leaves.prepend {c : Bool} {log log' log'' : List Obs} {last : Option Bool} {a' : Actor}
    (h : Leaves c log' log'' a') (hadds : Adds log last log') (hlast : last ≠ some false) :
    Leaves c log log'' a' := by
  obtain ⟨last', hadds', hflag⟩ := h
  refine ⟨last'.or last, hadds.trans hadds', fun hfail => hflag ?_⟩
  cases last' with
  | none => exact absurd hfail hlast
  | some ok => exact hfail

theorem Leaves.append {c : Bool} {log log' log'' : List Obs} {a a' : Actor}
    (h : Leaves c log log' a) (hadds : Adds log' none log'') (hflag : a'.connected = a.connected) :
    Leaves c log log'' a' := by
  obtain ⟨last, hadds', hflag'⟩ := h
  exact ⟨last, hadds'.trans hadds, fun hfail => hflag.trans (hflag' hfail)⟩

section Zone

variable {chrono : Chrono} {c : Bool} {log : List Obs} {a : Actor}

/-! ### The link operations -/

theorem wp_relisten_flag :
    Await.wp relisten (fun r log' a' => Adds log (some r.isOk) log' ∧ a'.connected = a.connected)
      (fun log' _ => Adds log none log') log a := by
  have hclosing := (calm_closing a).lastLinkOp
  refine wp_relisten (.refl log) (fun acts elapsed => .intro log [.meanwhile acts])
    (fun acts elapsed => ⟨⟨_, by rw [List.append_assoc, List.append_assoc], ?_⟩,
      Actor.connected_elapse a acts elapsed⟩)
    (fun acts elapsed e => ⟨⟨_, List.append_assoc _ _ _, ?_⟩,
      Actor.connected_elapse a acts elapsed⟩)
  · rw [lastLinkOp_append, lastLinkOp_append, hclosing]
    rfl
  · rw [lastLinkOp_append, hclosing]
    rfl

theorem wp_write_flag {payload : List UInt8} :
    Await.wp (onLink (Connection.write payload))
      (fun r log' a' => Adds log (some r.isOk) log' ∧ a'.connected = a.connected)
      (fun log' _ => Adds log none log') log a := by
  refine wp_onLink (.refl log) fun acts elapsed => ?_
  have hflag := Actor.connected_elapse a acts elapsed
  refine Connection.wp_write (fun tries htries => ?_)
    (fun tries htries => ⟨⟨_, by rw [List.append_assoc, List.append_assoc], ?_⟩, hflag⟩)
    (fun tries e htries => ⟨⟨_, by rw [List.append_assoc, List.append_assoc], ?_⟩, hflag⟩)
  · refine ⟨_, List.append_assoc _ _ _, ?_⟩
    rw [lastLinkOp_append, lastLinkOp_writeTries htries]
    rfl
  · rw [lastLinkOp_append, lastLinkOp_append]
    rfl
  · rw [lastLinkOp_append, lastLinkOp_append]
    rfl

theorem wp_reconnectStream_flag :
    Await.wp (onLink Connection.reconnectStream)
      (fun r log' _ => Adds log (some r.isOk) log') (fun log' _ => Adds log none log') log a := by
  refine wp_onLink (.refl log) fun acts elapsed => ?_
  refine Connection.wp_reconnectStream (.intro log [.meanwhile acts]) ?_ ?_ (fun e => ?_)
    (fun e => ?_)
  all_goals exact ⟨_, List.append_assoc _ _ _, rfl⟩

/-! ### Requests leave the flag alone -/

theorem wp_waitForFrame_flag {kind : FrameKind} (chrono : Chrono) :
    Await.wp (waitForFrame chrono kind) (fun _ log' _ => Adds log none log')
      (fun log' _ => Adds log none log') log a := by
  have htrivial : Patient chrono fun _ _ => True := by constructor <;> intros <;> trivial
  refine Await.wp_mono (htrivial.wp_waitForFrame trivial) ?_ ?_
  · rintro _ log' a' ⟨-, -, obs, hcalm, rfl⟩
    exact .calm hcalm
  · rintro log' a' ⟨-, obs, hcalm, rfl⟩
    exact .calm hcalm

/-- A wait after an operation that succeeded. -/
theorem wp_wait_after {kind : FrameKind} {log' : List Obs} (h : Adds log (some true) log') :
    Await.wp (waitForFrame chrono kind) (fun _ log' a' => Leaves c log log' a')
      (fun log' a' => Leaves c log log' a') log' a :=
  Await.wp_mono (wp_waitForFrame_flag chrono) (fun _ _ _ h' => (h.trans h').leaves (by simp))
    fun _ _ h' => (h.trans h').leaves (by simp)

theorem wp_writeAndWait_flag {payload : List UInt8} {kind : FrameKind} :
    Await.wp (writeAndWait chrono payload kind) (fun _ log' a' => Leaves a.connected log log' a')
      (fun log' a' => Leaves a.connected log log' a') log a := by
  unfold writeAndWait
  refine Await.wp_bind (Await.wp_mono wp_write_flag ?_ fun _ _ h => h.leaves (by simp))
  rintro (e | _ | _) log' a' ⟨hwrite, hflag⟩
  · exact Await.wp_pure.mpr (hwrite.leaves_flag hflag)
  · exact wp_wait_after hwrite
  · have hok : some (Except.isOk (.ok true : Except String Bool)) ≠ some false := by
      simp [Except.isOk, Except.toBool]
    refine Await.wp_bind (Await.wp_mono wp_relisten_flag ?_
      fun _ _ h => (h.leaves (by simp)).prepend hwrite hok)
    rintro (e | _) log'' a'' ⟨hlisten, hflag'⟩
    · exact Await.wp_pure.mpr ((hlisten.leaves_flag (hflag'.trans hflag)).prepend hwrite hok)
    · exact wp_wait_after (hwrite.trans hlisten)

theorem wp_oneshot_flag {payload : List UInt8} {kind : FrameKind} :
    Await.wp (oneshot chrono payload kind) (fun _ log' a' => Leaves a.connected log log' a')
      (fun log' a' => Leaves a.connected log log' a') log a := by
  unfold oneshot
  refine Await.wp_bind (Await.wp_get.mpr ?_)
  split
  · exact wp_writeAndWait_flag
  · refine Await.wp_bind (Await.wp_mono wp_relisten_flag ?_ fun _ _ h => h.leaves (by simp))
    rintro (e | _) log' a' ⟨hlisten, hflag⟩
    · exact Await.wp_pure.mpr (hlisten.leaves_flag hflag)
    · have hok : some (Except.isOk (.ok () : Except StreamError Unit)) ≠ some false := by
        simp [Except.isOk, Except.toBool]
      refine Await.wp_bind (Await.wp_mono wp_writeAndWait_flag ?_ fun _ _ h => ?_)
      · rintro r log'' a'' h
        rw [hflag] at h
        exact Await.wp_bind (wp_setNotifications (Await.wp_pure.mpr
          ((h.prepend hlisten hok).append (.calm (calm_closing a'')) rfl)))
      · rw [hflag] at h
        exact h.prepend hlisten hok

/-- A reply is no link operation. -/
theorem wp_reply_flag {tx : ClientId} {result : Except StreamError Response} {log' : List Obs}
    (h : Leaves c log log' a) :
    Await.wp (reply tx result) (fun _ log' a' => Leaves c log log' a')
      (fun log' a' => Leaves c log log' a') log' a :=
  wp_reply (fun _ _ => h.append (.intro _ [_]) rfl) fun _ _ => h.append (.intro _ [_]) rfl

/-- An operation on the clients is none either. -/
theorem wp_clientOp_flag {op : ClientOp} {log' : List Obs} (h : Leaves c log log' a) :
    Await.wp (clientOp op) (fun _ log' a' => Leaves c log log' a')
      (fun log' a' => Leaves c log log' a') log' a :=
  wp_clientOp (h.append (.intro _ [_]) (Actor.connected_applyOp a op))

theorem wp_handle_flag {cmd : ActorCommand} (hc : a.connected = c) :
    Await.wp (handle chrono cmd) (fun _ log' a' => Leaves c log log' a')
      (fun log' a' => Leaves c log log' a') log a := by
  subst hc
  have hflag : (a.applyOp .reap).connected = a.connected := Actor.connected_applyOp a .reap
  have hbegun : Adds log none (log ++ cmd.begun) := .intro log cmd.begun
  have hnone : (none : Option Bool) ≠ some false := by simp
  have hstart : Leaves a.connected log (log ++ cmd.begun) (a.applyOp .reap) := hbegun.leaves hnone
  -- a one-shot request and what is done with its outcome
  have honeshot : ∀ payload kind (f : Except StreamError (List UInt8) →
    Except StreamError Response),
      Await.wp (do reply cmd.tx (f (← oneshot chrono payload kind)))
        (fun _ log' a' => Leaves a.connected log log' a')
        (fun log' a' => Leaves a.connected log log' a') (log ++ cmd.begun) (a.applyOp .reap) := by
    intro payload kind f
    refine Await.wp_bind (Await.wp_mono wp_oneshot_flag ?_ fun _ _ h => ?_)
    · intro r log' a' h
      rw [hflag] at h
      exact wp_reply_flag (h.prepend hbegun hnone)
    · rw [hflag] at h
      exact h.prepend hbegun hnone
  refine wp_handle chrono hstart ?_ (fun _ payload => honeshot payload _ _)
    (fun _ payload => honeshot payload _ _) fun message => wp_reply_flag hstart
  unfold handleSubscribe
  refine Await.wp_bind (Await.wp_get.mpr ?_)
  split
  · refine Await.wp_bind (Await.wp_mono wp_relisten_flag ?_
      fun _ _ h => (h.leaves hnone).prepend hbegun hnone)
    rintro (e | _) log' a' ⟨hlisten, hflag'⟩
    · exact wp_reply_flag ((hlisten.leaves_flag (hflag'.trans hflag)).prepend hbegun hnone)
    · exact wp_clientOp_flag ((hlisten.leaves_flag (hflag'.trans hflag)).prepend hbegun hnone)
  · exact wp_clientOp_flag hstart

/-! ### Ticks and lost streams clear it -/

theorem wp_abortStream_flag {reason : StreamError} {last : Option Bool} {log' : List Obs}
    (h : Adds log last log') :
    Await.wp (abortStream reason) (fun _ log' a' => Leaves false log log' a')
      (fun log' a' => Leaves false log log' a') log' a :=
  wp_abortStream (((h.trans (.calm (calm_closing a))).trans (.intro _ [_])).leaves_flag
    (Actor.connected_aborted a reason))

theorem wp_pollWrite_flag :
    Await.wp pollWrite (fun _ log' a' => Leaves false log log' a')
      (fun log' a' => Leaves false log log' a') log a := by
  unfold pollWrite
  refine Await.wp_bind (Await.wp_get.mpr (Await.wp_bind (Await.wp_mono wp_write_flag ?_
    fun _ _ h => h.leaves (by simp))))
  rintro (e | _ | _) log' a' ⟨hwrite, -⟩
  · exact wp_abortStream_flag hwrite
  · exact Await.wp_pure.mpr (hwrite.leaves (by simp [Except.isOk, Except.toBool]))
  · refine Await.wp_bind (wp_setStats (Await.wp_bind (Await.wp_mono wp_relisten_flag ?_ fun _ _ h =>
      (hwrite.trans h).leaves (by simp [Except.isOk, Except.toBool]))))
    rintro (e | _) log'' a'' ⟨hlisten, -⟩
    · exact wp_abortStream_flag (hwrite.trans hlisten)
    · exact Await.wp_pure.mpr ((hwrite.trans hlisten).leaves (by simp [Except.isOk, Except.toBool]))

theorem wp_pollDevice_flag :
    Await.wp pollDevice (fun _ log' a' => Leaves false log log' a')
      (fun log' a' => Leaves false log log' a') log a := by
  have hreap : Adds log none (log ++ [.clients .reap]) := .intro log [_]
  have hpoll : ∀ {last log' a'}, Adds log last log' → last ≠ some false →
      Await.wp pollWrite (fun _ log' a' => Leaves false log log' a')
        (fun log' a' => Leaves false log log' a') log' a' := fun h hlast =>
    Await.wp_mono wp_pollWrite_flag (fun _ _ _ h' => h'.prepend h hlast)
      fun _ _ h' => h'.prepend h hlast
  unfold pollDevice
  refine Await.wp_bind (wp_clientOp (Await.wp_bind (Await.wp_get.mpr ?_)))
  split
  · split
    · refine Await.wp_bind (Await.wp_mono wp_relisten_flag ?_
        fun _ _ h => (hreap.trans h).leaves (by simp))
      rintro (e | _) log' a' ⟨hlisten, -⟩
      · exact wp_abortStream_flag (hreap.trans hlisten)
      · exact hpoll (hreap.trans hlisten) (by simp [Except.isOk, Except.toBool])
    · exact hpoll hreap (by simp)
  · exact Await.wp_pure.mpr (hreap.leaves (by simp))

theorem wp_handleNotification_flag {event : Option ValueNotification} :
    Await.wp (handleNotification chrono event) (fun _ log' a' => Leaves false log log' a')
      (fun log' a' => Leaves false log log' a') log a := by
  unfold handleNotification
  cases event with
  | none =>
    refine Await.wp_bind (Await.wp_mono wp_reconnectStream_flag ?_ fun _ _ h => h.leaves (by simp))
    rintro (e | n) log' a' h
    · exact wp_abortStream_flag h
    · refine Await.wp_bind (wp_setStats (wp_applySubscription ?_))
      exact ((h.trans (.calm (calm_closing a'))).trans (.intro _ [_])).leaves
        (by simp [lastLinkOp, Obs.linkOp, Except.isOk, Except.toBool])
  | some event =>
    dsimp only
    split
    · exact Await.wp_pure.mpr ((Adds.refl log).leaves (by simp))
    · refine Await.wp_bind (wp_feedUntil chrono (Await.wp_pure.mpr ?_))
      exact (Adds.calm (calm_feedObs a _ _ _)).leaves (by simp)

/-! ## Events and runs -/

/-- Whether a client's request is what wakes the loop. -/
def Event.isRequest : Event → Bool
  | .command (some _) => true
  | _ => false

/-- What the flag is after an event whose last link operation failed. -/
def Event.flagAfter (event : Event) (before : Bool) : Bool := event.isRequest && before

theorem wp_handleEvent_flag {event : Event} :
    Await.wp (handleEvent chrono event)
      (fun _ log' a' => Leaves (event.flagAfter a.connected) log log' a')
      (fun log' a' => Leaves (event.flagAfter a.connected) log log' a') log a := by
  have hmeanwhile : ∀ acts, Adds log none (log ++ [.meanwhile acts]) := fun _ => .intro log [_]
  have hnone : (none : Option Bool) ≠ some false := by simp
  -- what a handler leaves, with the time before it
  have hrest : ∀ {x : ActorM Unit} {c acts a'},
      Await.wp x (fun _ log' a' => Leaves c (log ++ [.meanwhile acts]) log' a')
        (fun log' a' => Leaves c (log ++ [.meanwhile acts]) log' a') (log ++ [.meanwhile acts]) a' →
      Await.wp x (fun _ log' a' => Leaves c log log' a') (fun log' a' => Leaves c log log' a')
        (log ++ [.meanwhile acts]) a' := fun h =>
    Await.wp_mono h (fun _ _ _ h => h.prepend (hmeanwhile _) hnone)
      fun _ _ h => h.prepend (hmeanwhile _) hnone
  refine wp_handleEvent chrono ((Adds.refl log).leaves hnone)
    (fun acts elapsed => (hmeanwhile acts).leaves hnone) ?_ ?_ ?_
  · rintro cmd rfl acts elapsed
    exact hrest (wp_handle_flag (Actor.connected_elapse a acts elapsed))
  · rintro rfl acts elapsed
    exact hrest wp_pollDevice_flag
  · rintro n rfl acts elapsed
    exact hrest wp_handleNotification_flag

theorem step_flag {agent agent' : Agent} {event : Event} {tape : List Answer}
    (hstep : agent.step chrono (event, tape) = some agent')
    (hfailed : lastLinkOp (agent.since agent') = some false) :
    agent'.actor.connected = event.flagAfter agent.actor.connected := by
  have hleaves : Leaves (event.flagAfter agent.actor.connected) agent.log agent'.log agent'.actor := by
    obtain ⟨-, -, ⟨-, h⟩ | ⟨log, a, rfl, h⟩⟩ := step_of_wp chrono wp_handleEvent_flag hstep
    · exact h
    · exact (h.elim id id).append (.intro log [_]) (Actor.connected_applyOp a .end_)
  obtain ⟨last, ⟨obs, hlog, hlast⟩, hflag⟩ := hleaves
  refine hflag ?_
  rw [← hlast, ← hfailed, Agent.since, hlog, List.drop_left]

/-- A link that failed last is not reported as up. -/
def ReportsDown (chrono : Chrono) (agent : Agent) (label : Event × List Answer) : Prop :=
  ∀ agent' ∈ agent.step chrono label,
    lastLinkOp (agent.since agent') = some false → agent'.actor.connected = false

instance (agent : Agent) (label : Event × List Answer) :
    Decidable (ReportsDown chrono agent label) :=
  inferInstanceAs (Decidable (∀ _ ∈ agent.step chrono label, _ → _))

/-- An event that ends with a failed link operation is a tick or about the
stream, or finds the link reported as down already. -/
def FailsUnreported (chrono : Chrono) (agent : Agent) (label : Event × List Answer) : Prop :=
  ∀ agent' ∈ agent.step chrono label,
    lastLinkOp (agent.since agent') = some false →
    label.1.isRequest = false ∨ agent.actor.connected = false

/-- **When a dead link is reported as down**: throughout a run, exactly when no
request ends with a failed link operation while the link is reported as up. -/
theorem reportsDown_iff (chrono : Chrono) (conn : Connection) (interval now : Nat)
    (metricsListen : Option String) (pollAlways : Bool) (labels : List (Event × List Answer)) :
    Transition.Meets (Agent.step chrono) (ReportsDown chrono)
      (.start conn interval now metricsListen pollAlways) labels ↔
    Transition.Meets (Agent.step chrono) (FailsUnreported chrono)
      (.start conn interval now metricsListen pollAlways) labels := by
  refine Transition.meets_congr fun agent label => ?_
  obtain ⟨event, tape⟩ := label
  refine forall_congr' fun agent' => forall_congr' fun hstep => forall_congr' fun hfailed => ?_
  rw [step_flag hstep hfailed, Event.flagAfter, Bool.and_eq_false_iff]

/-- A command while nobody streams, and the device refuses the subscription its
reply needs. -/
def refused : Event × List Answer :=
  (.command (some ⟨.power true, 0⟩),
    [.meanwhile [] 0, .meanwhile [] 0, .subscribe (.error "Not connected")])

/-- The link is still reported as up. -/
theorem not_reportsDown : ¬ Transition.Meets (Agent.step (.utc fun _ => .error "too short"))
    (ReportsDown (.utc fun _ => .error "too short")) (.start ⟨1⟩ nanosPerSec 0 none false)
    [refused] := by
  decide +kernel

end Zone

end Btwattch2
