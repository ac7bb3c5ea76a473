/-
Btwattch2.ReconnectTheorems — which of the links that are re-established are
counted.

A tick and a lost stream count the link they re-establish. A one-shot request
re-establishes links just the same and counts none of them
(`wp_handleEvent_tally`), so the counter is exact in the runs in which no
one-shot request does (`reconnects_iff`).
-/
import Btwattch2.SubscriptionTheorems

namespace Btwattch2

open Lib

/-! ## Tallies -/

/-- A link operation that returned having re-established the link. -/
def Obs.reestablishes : Obs → Bool
  | .write true true | .reconnectStream true => true
  | _ => false

/-- How many links were re-established in a part of a log. -/
def reestablishments (obs : List Obs) : Nat := obs.countP Obs.reestablishes

/-- The reconnects that are reported. -/
def Actor.reconnects (a : Actor) : Nat := (a.clients.stats.snapshot a.now).reconnects

@[simp] theorem Actor.reconnects_elapse (a : Actor) (acts : List (ClientId × ClientAct))
    (elapsed : Nat) : (a.elapse acts elapsed).reconnects = a.reconnects :=
  congrArg AgentStats.reconnects (stats_run_act acts a.clients)

@[simp] theorem Actor.reconnects_applyOp (a : Actor) (op : ClientOp) :
    (a.applyOp op).reconnects = a.reconnects := by
  obtain ⟨n, hstats⟩ := stats_apply a.clients op
  show (a.clients.apply op).stats.reconnects = a.clients.stats.reconnects
  rw [hstats]
  rfl

@[simp] theorem Actor.reconnects_aborted (a : Actor) (reason : StreamError) :
    (a.aborted reason).reconnects = a.reconnects := by
  rw [Actor.aborted, Actor.reconnects_applyOp]
  rfl

/-- A part was added to the log in which `n` links were re-established, and
`counted` more are reported. -/
def Tallies (log : List Obs) (a : Actor) (n counted : Nat) (log' : List Obs) (a' : Actor) : Prop :=
  (∃ obs, log' = log ++ obs ∧ reestablishments obs = n) ∧ a'.reconnects = a.reconnects + counted

theorem Tallies.refl (log : List Obs) (a : Actor) : Tallies log a 0 0 log a :=
  ⟨⟨[], by simp, rfl⟩, rfl⟩

theorem Tallies.trans {log log' log'' : List Obs} {a a' a'' : Actor} {n n' counted counted' : Nat}
    (h : Tallies log a n counted log' a') (h' : Tallies log' a' n' counted' log'' a'') :
    Tallies log a (n + n') (counted + counted') log'' a'' := by
  obtain ⟨⟨obs, rfl, rfl⟩, hcounted⟩ := h
  obtain ⟨⟨obs', rfl, rfl⟩, hcounted'⟩ := h'
  refine ⟨⟨obs ++ obs', by simp, List.countP_append⟩, ?_⟩
  rw [hcounted', hcounted, Nat.add_assoc]

/-- Nothing was re-established, and nothing counted. -/
theorem Tallies.idle {log obs : List Obs} {a a' : Actor} (h : ∀ o ∈ obs, o.reestablishes = false)
    (hsame : a'.reconnects = a.reconnects) : Tallies log a 0 0 (log ++ obs) a' := by
  refine ⟨⟨obs, rfl, ?_⟩, hsame⟩
  rw [reestablishments, List.countP_eq_zero]
  simpa using h

theorem Calm.idle {obs : List Obs} (h : Calm obs) : ∀ o ∈ obs, o.reestablishes = false := by
  intro o ho
  have hcalm := h o ho
  cases o <;> first | rfl | cases hcalm

theorem idle_append {obs obs' : List Obs} (h : ∀ o ∈ obs, o.reestablishes = false)
    (h' : ∀ o ∈ obs', o.reestablishes = false) : ∀ o ∈ obs ++ obs', o.reestablishes = false :=
  fun o ho => (List.mem_append.mp ho).elim (h o) (h' o)

section Zone

variable {chrono : Chrono} {log : List Obs} {a : Actor}

/-! ## The link operations -/

theorem wp_relisten_tally :
    Await.wp relisten (fun _ log' a' => Tallies log a 0 0 log' a')
      (fun log' a' => Tallies log a 0 0 log' a')
      log a := by
  have hclosing := (calm_closing a).idle
  refine wp_relisten (.refl log a)
    (fun acts elapsed => .idle (by simp [Obs.reestablishes]) (by simp))
    (fun acts elapsed => ?_) (fun acts elapsed e => ?_)
  · rw [List.append_assoc, List.append_assoc]
    refine .idle (idle_append (by simp [Obs.reestablishes]) (idle_append hclosing ?_)) ?_
    · simp [Obs.reestablishes]
    · exact Actor.reconnects_elapse a acts elapsed
  · rw [List.append_assoc]
    exact .idle (idle_append (by simp [Obs.reestablishes]) hclosing)
      (Actor.reconnects_elapse a acts elapsed)

/-- A write re-establishes the link if it says so. -/
theorem wp_write_tally {payload : List UInt8} :
    Await.wp (onLink (Connection.write payload))
      (fun r log' a' => Tallies log a (if r.toOption = some true then 1 else 0) 0 log' a')
      (fun log' a' => Tallies log a 0 0 log' a') log a := by
  have htries : ∀ {tries : List Obs}, Connection.WriteTries payload tries →
      ∀ o ∈ tries, o.reestablishes = false := by
    intro tries h o ho
    rcases h o ho with rfl | rfl <;> rfl
  refine wp_onLink (.refl log a) fun acts elapsed => ?_
  have hsame := Actor.reconnects_elapse a acts elapsed
  refine Connection.wp_write (fun tries h => ?_) (fun tries h => ?_) (fun tries e h => ?_)
  · rw [List.append_assoc]
    exact .idle (idle_append (by simp [Obs.reestablishes]) (htries h)) hsame
  · have hzero : tries.countP Obs.reestablishes = 0 := by
      rw [List.countP_eq_zero]
      simpa using htries h
    refine ⟨⟨_, by rw [List.append_assoc, List.append_assoc], ?_⟩, hsame⟩
    by_cases hconnected : .connected ∈ tries <;>
      simp [reestablishments, List.countP_append, List.countP_cons, hzero, hconnected,
        Obs.reestablishes, Except.toOption]
  · rw [List.append_assoc, List.append_assoc]
    exact .idle (idle_append (by simp [Obs.reestablishes])
      (idle_append (htries h) (by simp [Obs.reestablishes]))) hsame

theorem wp_reconnectStream_tally :
    Await.wp (onLink Connection.reconnectStream)
      (fun r log' a' => Tallies log a (if r.isOk then 1 else 0) 0 log' a')
      (fun log' a' => Tallies log a 0 0 log' a') log a := by
  refine wp_onLink (.refl log a) fun acts elapsed => ?_
  have hsame := Actor.reconnects_elapse a acts elapsed
  refine Connection.wp_reconnectStream ?_ ?_ ?_ (fun e => ?_) (fun e => ?_)
  · exact .idle (by simp [Obs.reestablishes]) hsame
  · rw [List.append_assoc]
    exact .idle (by simp [Obs.reestablishes]) hsame
  all_goals exact ⟨⟨_, List.append_assoc _ _ _, rfl⟩, hsame⟩

/-! ## One-shot requests count nothing -/

theorem reconnects_forwardedAll (chrono : Chrono) (frames : List (List UInt8)) (a : Actor) :
    (frames.foldl (Actor.forwarded chrono) a).reconnects = a.reconnects := by
  induction frames generalizing a with
  | nil => rfl
  | cons frame frames ih =>
    rw [List.foldl_cons, ih]
    unfold Actor.forwarded
    split
    · rfl
    · rw [Actor.reconnects_applyOp]
      rfl

theorem reconnects_fed (chrono : Chrono) (a : Actor) (stop : List UInt8 → Bool)
    (value : List UInt8) : (a.fed chrono stop value).reconnects = a.reconnects :=
  reconnects_forwardedAll chrono _ _

theorem wp_waitForFrame_tally {kind : FrameKind} :
    Await.wp (waitForFrame chrono kind) (fun _ log' a' => Tallies log a 0 0 log' a')
      (fun log' a' => Tallies log a 0 0 log' a') log a := by
  have hpatient : Patient chrono fun _ a' => a'.reconnects = a.reconnects := by
    constructor
    · exact fun acts elapsed h => (Actor.reconnects_elapse _ acts elapsed).trans h
    · exact fun _ h => h
    · exact fun _ _ _ _ h => (reconnects_fed chrono _ _ _).trans h
    · exact fun _ _ _ _ _ h => (reconnects_fed chrono _ _ _).trans h
  refine Await.wp_mono (hpatient.wp_waitForFrame rfl) ?_ ?_
  · rintro _ log' a' ⟨hsame, -, obs, hcalm, rfl⟩
    exact .idle hcalm.idle hsame
  · rintro log' a' ⟨hsame, obs, hcalm, rfl⟩
    exact .idle hcalm.idle hsame

/-- Some links were re-established, and none of them was counted. -/
def Uncounted (log : List Obs) (a : Actor) (log' : List Obs) (a' : Actor) : Prop :=
  ∃ n, Tallies log a n 0 log' a'

theorem Uncounted.trans {log log' log'' : List Obs} {a a' a'' : Actor}
    (h : Uncounted log a log' a') (h' : Uncounted log' a' log'' a'') :
    Uncounted log a log'' a'' := by
  obtain ⟨n, h⟩ := h
  obtain ⟨n', h'⟩ := h'
  exact ⟨n + n', h.trans h'⟩

/-- What is done next counts nothing either. -/
theorem Uncounted.wp {α : Type} {x : ActorM α} {log log' : List Obs} {a a' : Actor}
    (h : Uncounted log a log' a')
    (hx : Await.wp x (fun _ log'' a'' => Uncounted log' a' log'' a'')
      (fun log'' a'' => Uncounted log' a' log'' a'') log' a') :
    Await.wp x (fun _ log'' a'' => Uncounted log a log'' a'')
      (fun log'' a'' => Uncounted log a log'' a'') log' a' :=
  Await.wp_mono hx (fun _ _ _ hrest => h.trans hrest) fun _ _ hrest => h.trans hrest

theorem wp_wait_uncounted {kind : FrameKind} :
    Await.wp (waitForFrame chrono kind) (fun _ log' a' => Uncounted log a log' a')
      (fun log' a' => Uncounted log a log' a') log a :=
  Await.wp_mono wp_waitForFrame_tally (fun _ _ _ h => ⟨0, h⟩) fun _ _ h => ⟨0, h⟩

theorem wp_writeAndWait_uncounted {payload : List UInt8} {kind : FrameKind} :
    Await.wp (writeAndWait chrono payload kind) (fun _ log' a' => Uncounted log a log' a')
      (fun log' a' => Uncounted log a log' a') log a := by
  unfold writeAndWait
  refine Await.wp_bind (Await.wp_mono wp_write_tally ?_ fun _ _ h => ⟨0, h⟩)
  rintro (e | _ | _) log' a' hwrite
  · exact Await.wp_pure.mpr ⟨_, hwrite⟩
  · exact Uncounted.wp ⟨_, hwrite⟩ wp_wait_uncounted
  · refine Await.wp_bind (Await.wp_mono wp_relisten_tally ?_ fun _ _ h => ⟨_, hwrite.trans h⟩)
    rintro (e | _) log'' a'' hlisten
    · exact Await.wp_pure.mpr ⟨_, hwrite.trans hlisten⟩
    · exact Uncounted.wp ⟨_, hwrite.trans hlisten⟩ wp_wait_uncounted

theorem wp_oneshot_uncounted (chrono : Chrono) (payload : List UInt8) (kind : FrameKind) :
    Await.wp (oneshot chrono payload kind) (fun _ log' a' => Uncounted log a log' a')
      (fun log' a' => Uncounted log a log' a') log a := by
  unfold oneshot
  refine Await.wp_bind (Await.wp_get.mpr ?_)
  split
  · exact wp_writeAndWait_uncounted
  · refine Await.wp_bind (Await.wp_mono wp_relisten_tally ?_ fun _ _ h => ⟨0, h⟩)
    rintro (e | _) log' a' hlisten
    · exact Await.wp_pure.mpr ⟨0, hlisten⟩
    · have hstart : Uncounted log a log' a' := ⟨0, hlisten⟩
      refine Await.wp_bind (Await.wp_mono (hstart.wp wp_writeAndWait_uncounted) ?_ fun _ _ h => h)
      intro r log'' a'' h
      refine Await.wp_bind (wp_setNotifications (Await.wp_pure.mpr ?_))
      exact h.trans ⟨0, .idle (calm_closing a'').idle rfl⟩

theorem wp_reply_uncounted (tx : ClientId) (result : Except StreamError Response) :
    Await.wp (reply tx result) (fun _ log' a' => Uncounted log a log' a')
      (fun log' a' => Uncounted log a log' a') log a := by
  have hreply : ∀ response, Uncounted log a (log ++ [.reply tx response]) (a.trySend tx response) :=
    fun _ => ⟨0, .idle (by simp [Obs.reestablishes]) rfl⟩
  exact wp_reply (fun response _ => hreply response) fun message _ => hreply (.error message)

/-- A request counts nothing; one that is no one-shot has nothing to count. -/
theorem wp_handle_tally {cmd : ActorCommand} :
    Await.wp (handle chrono cmd)
      (fun _ log' a' => ∃ n, Tallies log a n 0 log' a' ∧ (cmd.request.isOneshot = false → n = 0))
      (fun log' a' => ∃ n, Tallies log a n 0 log' a' ∧ (cmd.request.isOneshot = false → n = 0))
      log a := by
  have hbegun : Tallies log a 0 0 (log ++ cmd.begun) (a.applyOp .reap) :=
    .idle (by simp [ActorCommand.begun, Obs.reestablishes]) (by simp)
  have hreply : ∀ {log' a'} tx result, Tallies log a 0 0 log' a' →
      Await.wp (reply tx result)
        (fun _ log' a' => ∃ n, Tallies log a n 0 log' a' ∧ (cmd.request.isOneshot = false → n = 0))
        (fun log' a' => ∃ n, Tallies log a n 0 log' a' ∧ (cmd.request.isOneshot = false → n = 0))
        log' a' := by
    intro log' a' tx result h
    have hidle : ∀ response,
        Tallies log a 0 0 (log' ++ [.reply tx response]) (a'.trySend tx response) :=
      fun _ => h.trans (.idle (by simp [Obs.reestablishes]) rfl)
    exact wp_reply (fun response _ => ⟨0, hidle response, fun _ => rfl⟩)
      fun message _ => ⟨0, hidle (.error message), fun _ => rfl⟩
  -- a one-shot request and what is done with its outcome
  have honeshot : ∀ payload kind (f : Except StreamError (List UInt8) →
    Except StreamError Response),
      cmd.request.isOneshot = true →
      Await.wp (do reply cmd.tx (f (← oneshot chrono payload kind)))
        (fun _ log' a' => ∃ n, Tallies log a n 0 log' a' ∧ (cmd.request.isOneshot = false → n = 0))
        (fun log' a' => ∃ n, Tallies log a n 0 log' a' ∧ (cmd.request.isOneshot = false → n = 0))
        (log ++ cmd.begun) (a.applyOp .reap) := by
    intro payload kind f hone
    have hstart : Uncounted log a (log ++ cmd.begun) (a.applyOp .reap) := ⟨0, hbegun⟩
    have hall := Await.wp_bind (Await.wp_mono (hstart.wp (wp_oneshot_uncounted chrono payload kind))
      (fun r _ _ h => h.wp (wp_reply_uncounted cmd.tx (f r))) fun _ _ h => h)
    refine Await.wp_mono hall ?_ ?_
    · rintro _ log' a' ⟨n, h⟩
      exact ⟨n, h, by simp [hone]⟩
    · rintro log' a' ⟨n, h⟩
      exact ⟨n, h, by simp [hone]⟩
  refine wp_handle chrono ⟨0, hbegun, fun _ => rfl⟩ ?_
    (fun hone payload => honeshot payload _ _ hone)
    (fun hone payload => honeshot payload _ _ hone) fun message => hreply _ _ hbegun
  unfold handleSubscribe
  refine Await.wp_bind (Await.wp_get.mpr ?_)
  split
  · refine Await.wp_bind (Await.wp_mono wp_relisten_tally ?_
      fun _ _ h => ⟨0, hbegun.trans h, fun _ => rfl⟩)
    rintro (e | _) log' a' hlisten
    · exact hreply _ _ (hbegun.trans hlisten)
    · exact wp_clientOp ⟨0, (hbegun.trans hlisten).trans
        (.idle (by simp [Obs.reestablishes]) (by simp)), fun _ => rfl⟩
  · exact wp_clientOp ⟨0, hbegun.trans (.idle (by simp [Obs.reestablishes]) (by simp)),
      fun _ => rfl⟩

/-! ## Ticks and lost streams count what they re-establish -/

/-- Every link that was re-established was counted. -/
def Counted (log : List Obs) (a : Actor) (log' : List Obs) (a' : Actor) : Prop :=
  ∃ n, Tallies log a n n log' a'

theorem Counted.trans {log log' log'' : List Obs} {a a' a'' : Actor}
    (h : Counted log a log' a') (h' : Counted log' a' log'' a'') : Counted log a log'' a'' := by
  obtain ⟨n, h⟩ := h
  obtain ⟨n', h'⟩ := h'
  exact ⟨n + n', h.trans h'⟩

/-- What is done next counts what it re-establishes too. -/
theorem Counted.wp {α : Type} {x : ActorM α} {log log' : List Obs} {a a' : Actor}
    (h : Counted log a log' a')
    (hx : Await.wp x (fun _ log'' a'' => Counted log' a' log'' a'')
      (fun log'' a'' => Counted log' a' log'' a'') log' a') :
    Await.wp x (fun _ log'' a'' => Counted log a log'' a'')
      (fun log'' a'' => Counted log a log'' a'') log' a' :=
  Await.wp_mono hx (fun _ _ _ hrest => h.trans hrest) fun _ _ hrest => h.trans hrest

theorem wp_abortStream_counted {reason : StreamError} :
    Await.wp (abortStream reason) (fun _ log' a' => Counted log a log' a')
      (fun log' a' => Counted log a log' a') log a := by
  refine wp_abortStream ⟨0, ?_⟩
  rw [List.append_assoc]
  exact .idle (idle_append (calm_closing a).idle (by simp [Obs.reestablishes])) (by simp)

/-- A link was re-established, and now it is counted. -/
theorem Tallies.count {log log' : List Obs} {a a' : Actor} (h : Tallies log a 1 0 log' a') :
    Counted log a log' (a'.withStats fun stats => stats.recordReconnect) :=
  ⟨1, h.1, congrArg (· + 1) h.2⟩

theorem wp_pollWrite_counted :
    Await.wp pollWrite (fun _ log' a' => Counted log a log' a')
      (fun log' a' => Counted log a log' a') log a := by
  unfold pollWrite
  refine Await.wp_bind (Await.wp_get.mpr (Await.wp_bind (Await.wp_mono wp_write_tally ?_
    fun _ _ h => ⟨0, h⟩)))
  rintro (e | _ | _) log' a' hwrite
  · exact Counted.wp ⟨0, hwrite⟩ wp_abortStream_counted
  · exact Await.wp_pure.mpr ⟨0, hwrite⟩
  · have hcounted := hwrite.count
    refine Await.wp_bind (wp_setStats (Await.wp_bind (Await.wp_mono wp_relisten_tally ?_
      fun _ _ h => hcounted.trans ⟨0, h⟩)))
    rintro (e | _) log'' a'' hlisten
    · exact Counted.wp (hcounted.trans ⟨0, hlisten⟩) wp_abortStream_counted
    · exact Await.wp_pure.mpr (hcounted.trans ⟨0, hlisten⟩)

theorem wp_pollDevice_counted :
    Await.wp pollDevice (fun _ log' a' => Counted log a log' a')
      (fun log' a' => Counted log a log' a') log a := by
  have hreap : Counted log a (log ++ [.clients .reap]) (a.applyOp .reap) :=
    ⟨0, .idle (by simp [Obs.reestablishes]) (by simp)⟩
  unfold pollDevice
  refine Await.wp_bind (wp_clientOp (Await.wp_bind (Await.wp_get.mpr ?_)))
  split
  · split
    · refine Await.wp_bind (Await.wp_mono wp_relisten_tally ?_ fun _ _ h => hreap.trans ⟨0, h⟩)
      rintro (e | _) log' a' hlisten
      · exact Counted.wp (hreap.trans ⟨0, hlisten⟩) wp_abortStream_counted
      · exact Counted.wp (hreap.trans ⟨0, hlisten⟩) wp_pollWrite_counted
    · exact hreap.wp wp_pollWrite_counted
  · exact Await.wp_pure.mpr hreap

theorem wp_handleNotification_counted {event : Option ValueNotification} :
    Await.wp (handleNotification chrono event) (fun _ log' a' => Counted log a log' a')
      (fun log' a' => Counted log a log' a') log a := by
  unfold handleNotification
  cases event with
  | none =>
    refine Await.wp_bind (Await.wp_mono wp_reconnectStream_tally ?_ fun _ _ h => ⟨0, h⟩)
    rintro (e | n) log' a' hreconnect
    · exact Counted.wp ⟨0, hreconnect⟩ wp_abortStream_counted
    · refine Await.wp_bind (wp_setStats (wp_applySubscription ?_))
      refine hreconnect.count.trans ⟨0, ?_⟩
      rw [List.append_assoc]
      exact .idle (idle_append (calm_closing a').idle (by simp [Obs.reestablishes])) rfl
  | some event =>
    dsimp only
    split
    · exact Await.wp_pure.mpr ⟨0, .refl log a⟩
    · exact Await.wp_bind (wp_feedUntil chrono (Await.wp_pure.mpr
        ⟨0, .idle (calm_feedObs a _ _ _).idle (reconnects_fed chrono a _ _)⟩))

/-! ## Events and runs -/

/-- An event added a part to the log, and counted what was re-established in it
unless it is a one-shot request. -/
def Event.Tallied (event : Event) (log : List Obs) (a : Actor) (log' : List Obs) (a' : Actor) :
    Prop :=
  ∃ n, Tallies log a n (if event.isOneshot then 0 else n) log' a'

theorem wp_handleEvent_tally {event : Event} :
    Await.wp (handleEvent chrono event) (fun _ log' a' => event.Tallied log a log' a')
      (fun log' a' => event.Tallied log a log' a') log a := by
  have hmeanwhile : ∀ acts elapsed,
      Tallies log a 0 0 (log ++ [.meanwhile acts]) (a.elapse acts elapsed) :=
    fun _ _ => .idle (by simp [Obs.reestablishes]) (by simp)
  have hidle : ∀ {log' a'}, Tallies log a 0 0 log' a' → event.Tallied log a log' a' := by
    intro log' a' h
    exact ⟨0, by simpa using h⟩
  -- a handler that counts what it re-establishes
  have hcounted : ∀ {x : ActorM Unit} {acts elapsed}, event.isOneshot = false →
      Await.wp x (fun _ log' a' =>
        Counted (log ++ [.meanwhile acts]) (a.elapse acts elapsed) log' a')
        (fun log' a' => Counted (log ++ [.meanwhile acts]) (a.elapse acts elapsed) log' a')
        (log ++ [.meanwhile acts]) (a.elapse acts elapsed) →
      Await.wp x (fun _ log' a' => event.Tallied log a log' a')
        (fun log' a' => event.Tallied log a log' a') (log ++ [.meanwhile acts])
        (a.elapse acts elapsed) := by
    intro x acts elapsed hevent hx
    have hstart : Counted log a (log ++ [.meanwhile acts]) (a.elapse acts elapsed) :=
      ⟨0, hmeanwhile acts elapsed⟩
    have hall := hstart.wp hx
    refine Await.wp_mono hall ?_ ?_
    · rintro _ log' a' ⟨n, h⟩
      exact ⟨n, by simpa [hevent] using h⟩
    · rintro log' a' ⟨n, h⟩
      exact ⟨n, by simpa [hevent] using h⟩
  refine wp_handleEvent chrono (hidle (.refl log a))
    (fun acts elapsed => hidle (hmeanwhile acts elapsed))
    ?_ ?_ ?_
  · rintro cmd rfl acts elapsed
    have htallied : ∀ {log' a'},
        (∃ n, Tallies (log ++ [.meanwhile acts]) (a.elapse acts elapsed) n 0 log' a' ∧
          (cmd.request.isOneshot = false → n = 0)) →
        (Event.command (some cmd)).Tallied log a log' a' := by
      rintro log' a' ⟨n, h, hnone⟩
      refine ⟨n, ?_⟩
      have hall := (hmeanwhile acts elapsed).trans h
      cases hone : cmd.request.isOneshot with
      | true => simpa [Event.isOneshot, hone] using hall
      | false =>
        obtain rfl := hnone hone
        simpa [Event.isOneshot, hone] using hall
    exact Await.wp_mono wp_handle_tally (fun _ _ _ h => htallied h) fun _ _ h => htallied h
  · rintro rfl acts elapsed
    exact hcounted rfl wp_pollDevice_counted
  · rintro n rfl acts elapsed
    exact hcounted rfl wp_handleNotification_counted

/-- What an event adds to the links that were re-established and to those counted. -/
theorem step_tally {agent agent' : Agent} {event : Event} {tape : List Answer}
    (hstep : agent.step chrono (event, tape) = some agent') :
    reestablishments agent'.log =
        reestablishments agent.log + reestablishments (agent.since agent') ∧
      agent'.actor.reconnects = agent.actor.reconnects +
        if event.isOneshot then 0 else reestablishments (agent.since agent') := by
  have htallied : event.Tallied agent.log agent.actor agent'.log agent'.actor := by
    obtain ⟨-, -, ⟨-, h⟩ | ⟨log, a, rfl, h⟩⟩ := step_of_wp chrono wp_handleEvent_tally hstep
    · exact h
    · obtain ⟨n, h⟩ := h.elim id id
      have hidle : Tallies log a 0 0 (log ++ [.clients .end_]) (a.applyOp .end_) :=
        .idle (by simp [Obs.reestablishes]) (Actor.reconnects_applyOp a .end_)
      have hend := h.trans hidle
      simp only [Nat.add_zero] at hend
      exact ⟨n, hend⟩
  obtain ⟨n, ⟨obs, hlog, hn⟩, hcounted⟩ := htallied
  have hsince : agent.since agent' = obs := by rw [Agent.since, hlog, List.drop_left]
  rw [hsince, hn, hlog]
  exact ⟨by rw [reestablishments, List.countP_append, ← hn]; rfl, hcounted⟩

/-- The request of a client that is served by a one-shot re-establishes no link
on the way. -/
def CountsAll (chrono : Chrono) (agent : Agent) (label : Event × List Answer) : Prop :=
  label.1.isOneshot = true →
    ∀ agent' ∈ agent.step chrono label, reestablishments (agent.since agent') = 0

/-- **When the counter of reconnects is exact**: after any run, exactly when no
one-shot request in it re-established the link. -/
theorem reconnects_iff (chrono : Chrono) (conn : Connection) (interval now : Nat)
    (metricsListen : Option String) (pollAlways : Bool) {labels : List (Event × List Answer)}
    {agent : Agent}
    (hrun : Transition.run (Agent.step chrono)
      (.start conn interval now metricsListen pollAlways) labels = some agent) :
    agent.actor.reconnects = reestablishments agent.log ↔
    Transition.Meets (Agent.step chrono) (CountsAll chrono)
      (.start conn interval now metricsListen pollAlways) labels := by
  -- the counter never overtakes, so a link that was missed stays missed
  have hstep : ∀ (agent : Agent) label agent',
      agent.actor.reconnects ≤ reestablishments agent.log → agent.step chrono label = some agent' →
      agent'.actor.reconnects ≤ reestablishments agent'.log ∧
        (agent'.actor.reconnects = reestablishments agent'.log ↔
          agent.actor.reconnects = reestablishments agent.log ∧ CountsAll chrono agent label) := by
    rintro agent ⟨event, tape⟩ agent' hle hstep
    obtain ⟨hlog, hcount⟩ := step_tally hstep
    have hok : CountsAll chrono agent (event, tape) ↔
        (event.isOneshot = true → reestablishments (agent.since agent') = 0) := by
      simp [CountsAll, hstep]
    rw [hlog, hcount, hok]
    cases event.isOneshot
    · simp
      omega
    · simp
      omega
  have hstart : (Agent.start conn interval now metricsListen pollAlways).actor.reconnects ≤
      reestablishments (Agent.start conn interval now metricsListen pollAlways).log := Nat.le_refl 0
  rw [Transition.run_iff hstep labels _ _ hstart hrun]
  exact and_iff_right rfl

/-- The stream of a client is lost, and re-established. -/
def recovered : List (Event × List Answer) :=
  [(.command (some ⟨.subscribe, 0⟩), [.meanwhile [] 0, .meanwhile [] 0, .subscribe (.ok ())]),
    (.notification none, [.meanwhile [] 0, .meanwhile [] 0, .attempt (.ok [cTx, cRx]),
      .subscribe (.ok ())])]

theorem reconnects_iff_recovered : ∃ agent,
    Transition.run (Agent.step (.utc fun _ => .error "too short"))
      (.start ⟨1⟩ nanosPerSec 0 none false) recovered = some agent ∧
    agent.actor.reconnects = 1 ∧
    (agent.actor.reconnects = reestablishments agent.log ↔
      Transition.Meets (Agent.step (.utc fun _ => .error "too short"))
        (CountsAll (.utc fun _ => .error "too short")) (.start ⟨1⟩ nanosPerSec 0 none false)
        recovered) := by
  have hchecks : (Transition.run (Agent.step (.utc fun _ => .error "too short"))
      (.start ⟨1⟩ nanosPerSec 0 none false) recovered).any
      (fun agent => decide (agent.actor.reconnects = 1)) = true := by decide +kernel
  obtain ⟨agent, hrun, hone⟩ := (Option.any_eq_true _ _).mp hchecks
  exact ⟨agent, hrun, of_decide_eq_true hone, reconnects_iff _ _ _ _ _ _ hrun⟩

/-- Nobody streams, and the link has dropped. The write of a command re-establishes it. -/
def powered : List (Event × List Answer) :=
  [(.command (some ⟨.power true, 0⟩), [.meanwhile [] 0, .meanwhile [] 0, .subscribe (.ok ()),
    .meanwhile [] 0, .deviceWrite (.error "Not connected"), .attempt (.ok [cTx, cRx]),
    .deviceWrite (.ok ()), .meanwhile [] 0, .subscribe (.ok ()), .meanwhile [] 0,
    .next (some ⟨cRx, generate [0xA7, 0x00]⟩)])]

/-- The link the command re-established is not counted. -/
theorem reconnects_missed : ∃ agent,
    Transition.run (Agent.step (.utc fun _ => .error "too short"))
      (.start ⟨1⟩ nanosPerSec 0 none false) powered = some agent ∧
    agent.actor.reconnects = 0 ∧ reestablishments agent.log = 1 := by
  have hchecks : (Transition.run (Agent.step (.utc fun _ => .error "too short"))
      (.start ⟨1⟩ nanosPerSec 0 none false) powered).any
      (fun agent => decide (agent.actor.reconnects = 0 ∧ reestablishments agent.log = 1)) =
        true := by decide +kernel
  obtain ⟨agent, hrun, hmissed⟩ := (Option.any_eq_true _ _).mp hchecks
  obtain ⟨hreconnects, hlinks⟩ := of_decide_eq_true hmissed
  exact ⟨agent, hrun, hreconnects, hlinks⟩

end Zone

end Btwattch2
