/-
Btwattch2.SubscriptionTheorems — every streaming client has a live subscription.

Between two events the subscription in place, if there is one, belongs to the
present link, and there is one while anybody streams (`Sound`). Ticks and lost
streams keep this by aborting the stream where they cannot mend it. A one-shot
request that re-establishes the link and then fails does neither, so it is kept
in every run where none does (`attached_run`).
-/
import Btwattch2.LinkTheorems

namespace Btwattch2

open Lib

/-! ## The invariant -/

/-- Whoever streams is attached to a subscription of the present link. -/
def Actor.Attached (a : Actor) : Prop :=
  a.clients.list ≠ [] → ∃ n ∈ a.notifications, n.link = a.conn.connects

instance (a : Actor) : Decidable a.Attached :=
  inferInstanceAs (Decidable (_ → ∃ _ ∈ a.notifications, _))

/-- The subscription in place belongs to the present link, and is there while
anybody streams. -/
structure Sound (a : Actor) : Prop where
  fresh : ∀ n, a.notifications = some n → n.link = a.conn.connects
  streaming : a.notifications = none → a.clients.list = []

theorem Sound.attached {a : Actor} (h : Sound a) : a.Attached := by
  intro hlist
  cases hn : a.notifications with
  | none => exact absurd (h.streaming hn) hlist
  | some n => exact ⟨n, rfl, h.fresh n hn⟩

/-- With nobody streaming and nothing subscribed there is nothing to keep. -/
theorem Sound.of_idle {a : Actor} (hn : a.notifications = none) (hlist : a.clients.list = []) :
    Sound a :=
  ⟨fun _ hsome => absurd (hn.symm.trans hsome) (by simp), fun _ => hlist⟩

theorem Sound.of_subscribed {a : Actor} : Sound (a.subscribed ⟨a.conn.connects⟩) := by
  refine ⟨fun n hsome => ?_, fun hnone => nomatch hnone⟩
  cases hsome
  rfl

theorem Sound.congr {a a' : Actor} (h : Sound a) (hn : a'.notifications = a.notifications)
    (hconn : a'.conn = a.conn) (hlist : a.clients.list = [] → a'.clients.list = []) : Sound a' := by
  constructor
  case fresh =>
    rw [hn, hconn]
    exact h.fresh
  case streaming =>
    rw [hn]
    exact fun hnone => hlist (h.streaming hnone)

/-! ## What the actor's own steps keep -/

/-- Only `add` puts a client on the list. -/
theorem list_apply_nil {clients : Clients} {op : ClientOp} (hop : ∀ tx, op ≠ .add tx)
    (h : clients.list = []) : (clients.apply op).list = [] := by
  cases op with
  | add tx => exact absurd rfl (hop tx)
  | broadcast response => simp [Clients.apply, Clients.broadcast, h, Lib.sweep]
  | reap => simp [Clients.apply, Clients.reap, h]
  | abort reason => rfl
  | end_ => rfl
  | act tx act => exact h

theorem list_run_act (acts : List (ClientId × ClientAct)) (clients : Clients) :
    (clients.run (acts.map fun x => .act x.1 x.2)).list = clients.list := by
  induction acts generalizing clients with
  | nil => rfl
  | cons x acts ih => exact ih (clients.act x.1 x.2)

@[simp] theorem Actor.list_elapse (a : Actor) (acts : List (ClientId × ClientAct))
    (elapsed : Nat) : (a.elapse acts elapsed).clients.list = a.clients.list :=
  list_run_act acts a.clients

theorem Sound.elapse {a : Actor} (h : Sound a) (acts : List (ClientId × ClientAct))
    (elapsed : Nat) : Sound (a.elapse acts elapsed) :=
  h.congr rfl rfl fun hlist => (Actor.list_elapse a acts elapsed).trans hlist

theorem Sound.applyOp {a : Actor} (h : Sound a) {op : ClientOp} (hop : ∀ tx, op ≠ .add tx) :
    Sound (a.applyOp op) :=
  h.congr rfl rfl (list_apply_nil hop)

theorem Sound.add {a : Actor} (h : Sound a) (hn : a.notifications ≠ none) (tx : ClientId) :
    Sound (a.applyOp (.add tx)) :=
  ⟨h.fresh, fun hnone => absurd hnone hn⟩

theorem Sound.aborted (a : Actor) (reason : StreamError) : Sound (a.aborted reason) :=
  .of_idle rfl rfl

section Zone

variable {chrono : Chrono} {log : List Obs} {a : Actor}

theorem list_fed_nil {stop : List UInt8 → Bool} {value : List UInt8} (h : a.clients.list = []) :
    (a.fed chrono stop value).clients.list = [] := by
  have hframes : ∀ (frames : List (List UInt8)) (a : Actor), a.clients.list = [] →
      (frames.foldl (Actor.forwarded chrono) a).clients.list = [] := by
    intro frames
    induction frames with
    | nil => exact fun a h => h
    | cons frame frames ih =>
      intro a h
      refine ih (a.forwarded chrono frame) ?_
      unfold Actor.forwarded
      split
      · exact h
      · exact list_apply_nil (by simp) h
  exact hframes _ _ h

theorem fed_link (stop : List UInt8 → Bool) (value : List UInt8) :
    (a.fed chrono stop value).notifications = a.notifications ∧
      (a.fed chrono stop value).conn = a.conn := by
  have hframes : ∀ (frames : List (List UInt8)) (a : Actor),
      (frames.foldl (Actor.forwarded chrono) a).notifications = a.notifications ∧
        (frames.foldl (Actor.forwarded chrono) a).conn = a.conn := by
    intro frames
    induction frames with
    | nil => exact fun a => ⟨rfl, rfl⟩
    | cons frame frames ih =>
      intro a
      have hone : (a.forwarded chrono frame).notifications = a.notifications ∧
          (a.forwarded chrono frame).conn = a.conn := by
        unfold Actor.forwarded
        split <;> exact ⟨rfl, rfl⟩
      obtain ⟨hn, hconn⟩ := ih (a.forwarded chrono frame)
      exact ⟨hn.trans hone.1, hconn.trans hone.2⟩
  exact hframes _ _

theorem Sound.fed (h : Sound a) (stop : List UInt8 → Bool) (value : List UInt8) :
    Sound (a.fed chrono stop value) :=
  h.congr (fed_link stop value).1 (fed_link stop value).2 list_fed_nil

/-- A wait keeps the subscription, and nobody joins meanwhile. -/
theorem patient_sound (idle : Prop) :
    Patient chrono fun _ a => Sound a ∧ (idle → a.clients.list = []) where
  meanwhile {_ a} acts elapsed h :=
    ⟨h.1.elapse acts elapsed, fun hidle => (Actor.list_elapse a acts elapsed).trans (h.2 hidle)⟩
  awaiting _ h := h
  feedMiss kind value _ _ h := ⟨h.1.fed kind.matches value, fun hidle => list_fed_nil (h.2 hidle)⟩
  feedHit kind value _ _ _ h := ⟨h.1.fed kind.matches value, fun hidle => list_fed_nil (h.2 hidle)⟩

/-! ## The link operations -/

/-- A subscription replaces the one in place by a sound one, or drops it. -/
theorem wp_relisten_sound :
    Await.wp relisten
      (fun r log' a' => a'.clients.list = a.clients.list ∧ ∃ obs, log' = log ++ obs ∧ match r with
        | .ok () => Sound a' ∧ a'.notifications ≠ none
        | .error _ => a'.notifications = none ∧ .listen false ∈ obs)
      (fun _ _ => True) log a := by
  refine wp_relisten trivial (fun _ _ => trivial)
    (fun acts elapsed => ⟨Actor.list_elapse a acts elapsed, _,
      by rw [List.append_assoc, List.append_assoc], ?_⟩)
    (fun acts elapsed e => ⟨Actor.list_elapse a acts elapsed, _, List.append_assoc _ _ _, ?_⟩)
  · exact ⟨Sound.of_subscribed (a := a.elapse acts elapsed), by simp [Actor.subscribed]⟩
  · exact ⟨rfl, by simp⟩

/-- A write that did not re-establish the link leaves the subscription sound. -/
theorem wp_write_sound {payload : List UInt8} (h : Sound a) :
    Await.wp (onLink (Connection.write payload))
      (fun r log' a' => a'.clients.list = a.clients.list ∧ ∃ obs, log' = log ++ obs ∧ match r with
        | .ok true => True
        | .ok false => Sound a'
        | .error _ => .write false true ∈ obs ∨ Sound a')
      (fun _ _ => True) log a := by
  have hsame : ∀ {tries : List Obs}, .connected ∉ tries → a.conn.afterTries tries = a.conn := by
    intro tries htries
    simp [Connection.afterTries, List.count_eq_zero.mpr htries]
  refine wp_onLink trivial fun acts elapsed => ?_
  have hlist := Actor.list_elapse a acts elapsed
  refine Connection.wp_write (fun _ _ => trivial)
    (fun tries htries => ⟨hlist, _, by rw [List.append_assoc, List.append_assoc], ?_⟩)
    (fun tries e htries => ⟨hlist, _, by rw [List.append_assoc, List.append_assoc], ?_⟩)
  · by_cases hconnected : .connected ∈ tries
    · simp [hconnected]
    · simp only [hconnected, decide_false, hsame hconnected]
      exact h.elapse acts elapsed
  · by_cases hconnected : .connected ∈ tries
    · simp [hconnected]
    · rw [hsame hconnected]
      exact .inr (h.elapse acts elapsed)

/-! ## One-shot requests -/

/-- What a one-shot request must not meet while a subscription is in place: a
write that fails after re-establishing the link, and a refused subscription
while `list` streams. -/
def Broke (list : List ClientId) (obs : List Obs) : Prop :=
  .write false true ∈ obs ∨ (.listen false ∈ obs ∧ list ≠ [])

instance (list : List ClientId) (obs : List Obs) : Decidable (Broke list obs) :=
  inferInstanceAs (Decidable (_ ∨ _ ∧ _))

theorem Broke.prepend {list : List ClientId} {obs : List Obs} (h : Broke list obs)
    (pre : List Obs) : Broke list (pre ++ obs) :=
  h.imp (fun hwrite => by simp [hwrite]) fun hlisten => ⟨by simp [hlisten.1], hlisten.2⟩

theorem Broke.append {list : List ClientId} {obs : List Obs} (h : Broke list obs)
    (post : List Obs) : Broke list (obs ++ post) :=
  h.imp (fun hwrite => by simp [hwrite]) fun hlisten => ⟨by simp [hlisten.1], hlisten.2⟩

/-- A one-shot request ended soundly, or met what it must not, and nobody joined. -/
def Ended (a : Actor) (log log' : List Obs) (a' : Actor) : Prop :=
  (a.clients.list = [] → a'.clients.list = []) ∧
    ∃ obs, log' = log ++ obs ∧ (Broke a.clients.list obs ∨ Sound a')

theorem wp_wait_sound {kind : FrameKind} {obs : List Obs} {a' : Actor} (h : Sound a')
    (hlist : a'.clients.list = a.clients.list) :
    Await.wp (waitForFrame chrono kind) (fun _ log' a' => Ended a log log' a')
      (fun _ _ => True) (log ++ obs) a' := by
  refine Await.wp_mono ((patient_sound (a.clients.list = [])).wp_waitForFrame
    ⟨h, fun hidle => hlist.trans hidle⟩) ?_ fun _ _ _ => trivial
  rintro _ log' a'' ⟨⟨hsound, hidle⟩, -, obs', -, rfl⟩
  exact ⟨hidle, obs ++ obs', by simp, .inr hsound⟩

theorem wp_writeAndWait_sound {payload : List UInt8} {kind : FrameKind} (h : Sound a) :
    Await.wp (writeAndWait chrono payload kind) (fun _ log' a' => Ended a log log' a')
      (fun _ _ => True) log a := by
  unfold writeAndWait
  refine Await.wp_bind (Await.wp_mono (wp_write_sound h) ?_ fun _ _ h => h)
  rintro (e | _ | _) log' a' ⟨hlist, obs, rfl, hwrite⟩
  · exact Await.wp_pure.mpr ⟨fun hidle => hlist.trans hidle, obs, rfl,
      hwrite.imp .inl id⟩
  · exact wp_wait_sound hwrite hlist
  · refine Await.wp_bind (Await.wp_mono wp_relisten_sound ?_ fun _ _ h => h)
    rintro (e | _) log' a'' ⟨hlist', obs', rfl, hlisten⟩
    · obtain ⟨hnone, hrefused⟩ := hlisten
      refine Await.wp_pure.mpr ⟨fun hidle => hlist'.trans (hlist.trans hidle), obs ++ obs',
        by simp, ?_⟩
      by_cases hidle : a.clients.list = []
      · exact .inr (.of_idle hnone (hlist'.trans (hlist.trans hidle)))
      · exact .inl (.inr ⟨by simp [hrefused], hidle⟩)
    · rw [List.append_assoc]
      exact wp_wait_sound hlisten.1 (hlist'.trans hlist)

/-- A one-shot request that takes out a subscription of its own always ends
soundly. -/
theorem wp_oneshot_sound {payload : List UInt8} {kind : FrameKind} (h : Sound a) :
    Await.wp (oneshot chrono payload kind)
      (fun _ log' a' => ∃ obs, log' = log ++ obs ∧
        ((a.notifications ≠ none ∧ Broke a.clients.list obs) ∨ Sound a'))
      (fun _ _ => True) log a := by
  unfold oneshot
  refine Await.wp_bind (Await.wp_get.mpr ?_)
  split
  case h_1 n hsome =>
    refine Await.wp_mono (wp_writeAndWait_sound h) ?_ fun _ _ h => h
    rintro _ log' a' ⟨-, obs, rfl, hobs⟩
    exact ⟨obs, rfl, hobs.imp_left fun hbroke => ⟨by simp [hsome], hbroke⟩⟩
  case h_2 hnone =>
    have hidle := h.streaming hnone
    refine Await.wp_bind (Await.wp_mono wp_relisten_sound ?_ fun _ _ h => h)
    rintro (e | _) log' a' ⟨hlist, obs, rfl, hlisten⟩
    · exact Await.wp_pure.mpr ⟨obs, rfl, .inr (.of_idle hlisten.1 (hlist.trans hidle))⟩
    · refine Await.wp_bind (Await.wp_mono (wp_writeAndWait_sound hlisten.1) ?_ fun _ _ h => h)
      rintro _ log' a'' ⟨hidle', obs', rfl, -⟩
      refine Await.wp_bind (wp_setNotifications (Await.wp_pure.mpr
        ⟨obs ++ obs' ++ a''.closing, by simp, .inr ?_⟩))
      exact .of_idle rfl (hidle' (hlist.trans hidle))

/-! ## Requests, ticks and notifications -/

theorem wp_reply_sound {tx : ClientId} {result : Except StreamError Response} {obs : List Obs}
    {p : List Obs → Prop} (hp : ∀ obs post, p obs → p (obs ++ post)) (h : p obs ∨ Sound a) :
    Await.wp (reply tx result) (fun _ log' a' => ∃ obs, log' = log ++ obs ∧ (p obs ∨ Sound a'))
      (fun _ _ => True) (log ++ obs) a :=
  wp_reply
    (fun _ _ => ⟨_, List.append_assoc _ _ _, h.imp (hp _ _) fun h => h.congr rfl rfl id⟩)
    fun _ _ => ⟨_, List.append_assoc _ _ _, h.imp (hp _ _) fun h => h.congr rfl rfl id⟩

theorem wp_handle_sound {cmd : ActorCommand} (h : Sound a) :
    Await.wp (handle chrono cmd)
      (fun _ log' a' => ∃ obs, log' = log ++ obs ∧
        ((cmd.request.isOneshot = true ∧ a.notifications ≠ none ∧
          Broke (a.applyOp .reap).clients.list obs) ∨ Sound a'))
      (fun _ _ => True) log a := by
  have hreap : Sound (a.applyOp .reap) := h.applyOp (by simp)
  -- a one-shot request and what is done with its outcome
  have honeshot : ∀ payload kind (f : Except StreamError (List UInt8) →
    Except StreamError Response),
      cmd.request.isOneshot = true →
      Await.wp (do reply cmd.tx (f (← oneshot chrono payload kind)))
        (fun _ log' a' => ∃ obs, log' = log ++ obs ∧
          ((cmd.request.isOneshot = true ∧ a.notifications ≠ none ∧
            Broke (a.applyOp .reap).clients.list obs) ∨ Sound a'))
        (fun _ _ => True) (log ++ cmd.begun) (a.applyOp .reap) := by
    intro payload kind f hone
    refine Await.wp_bind (Await.wp_mono (wp_oneshot_sound hreap) ?_ fun _ _ h => h)
    rintro r log' a' ⟨obs, rfl, hobs⟩
    rw [List.append_assoc]
    refine wp_reply_sound (fun obs post hb => ⟨hb.1, hb.2.1, hb.2.2.append post⟩)
      (hobs.imp_left fun hb => ⟨hone, hb.1, hb.2.prepend _⟩)
  refine wp_handle chrono ⟨_, rfl, .inr hreap⟩ ?_ (fun hone payload => honeshot payload _ _ hone)
    (fun hone payload => honeshot payload _ _ hone)
    fun message => wp_sendError ⟨_, List.append_assoc _ _ _, .inr (hreap.congr rfl rfl id)⟩
  unfold handleSubscribe
  refine Await.wp_bind (Await.wp_get.mpr ?_)
  split
  case h_1 hnone =>
    refine Await.wp_bind (Await.wp_mono wp_relisten_sound ?_ fun _ _ h => h)
    rintro (e | _) log' a' ⟨hlist, obs, rfl, hlisten⟩
    · have hidle : Sound a' := .of_idle hlisten.1 (hlist.trans (hreap.streaming hnone))
      rw [List.append_assoc]
      exact wp_sendError ⟨_, List.append_assoc _ _ _, .inr (hidle.congr rfl rfl id)⟩
    · refine wp_clientOp ⟨_, by rw [List.append_assoc, List.append_assoc], .inr ?_⟩
      exact hlisten.1.add hlisten.2 cmd.tx
  case h_2 n hsome =>
    exact wp_clientOp ⟨_, List.append_assoc _ _ _, .inr (hreap.add (by simp [hsome]) cmd.tx)⟩

theorem wp_pollWrite_sound (h : Sound a) :
    Await.wp pollWrite (fun _ _ a' => Sound a') (fun _ _ => True) log a := by
  unfold pollWrite
  refine Await.wp_bind (Await.wp_get.mpr (Await.wp_bind (Await.wp_mono (wp_write_sound h) ?_
    fun _ _ h => h)))
  rintro (e | _ | _) log' a' ⟨-, obs, -, hwrite⟩
  · exact wp_abortStream (.aborted a' _)
  · exact Await.wp_pure.mpr hwrite
  · refine Await.wp_bind (wp_setStats (Await.wp_bind (Await.wp_mono wp_relisten_sound ?_
      fun _ _ h => h)))
    rintro (e | _) log' a'' ⟨-, obs', -, hlisten⟩
    · exact wp_abortStream (.aborted a'' _)
    · exact Await.wp_pure.mpr hlisten.1

theorem wp_pollDevice_sound (h : Sound a) :
    Await.wp pollDevice (fun _ _ a' => Sound a') (fun _ _ => True) log a := by
  have hreap : Sound (a.applyOp .reap) := h.applyOp (by simp)
  unfold pollDevice
  refine Await.wp_bind (wp_clientOp (Await.wp_bind (Await.wp_get.mpr ?_)))
  split
  · split
    · refine Await.wp_bind (Await.wp_mono wp_relisten_sound ?_ fun _ _ h => h)
      rintro (e | _) log' a' ⟨-, obs, -, hlisten⟩
      · exact wp_abortStream (.aborted a' _)
      · exact wp_pollWrite_sound hlisten.1
    · exact wp_pollWrite_sound hreap
  · exact Await.wp_pure.mpr hreap

theorem wp_handleNotification_sound {event : Option ValueNotification} (h : Sound a) :
    Await.wp (handleNotification chrono event) (fun _ _ a' => Sound a')
      (fun _ _ => True) log a := by
  unfold handleNotification
  cases event with
  | none =>
    refine Await.wp_bind (wp_onLink trivial fun acts elapsed => ?_)
    refine Connection.wp_reconnectStream trivial trivial ?_ (fun e => ?_) fun e => ?_
    · exact Await.wp_bind (wp_setStats (wp_applySubscription Sound.of_subscribed))
    · exact wp_abortStream (.aborted _ _)
    · exact wp_abortStream (.aborted _ _)
  | some event =>
    dsimp only
    split
    · exact Await.wp_pure.mpr h
    · exact Await.wp_bind (wp_feedUntil chrono (Await.wp_pure.mpr (h.fed _ event.value)))

/-! ## Events and runs -/

def Event.isOneshot : Event → Bool
  | .command (some cmd) => cmd.request.isOneshot
  | _ => false

/-- Who is on the list once a request has begun: the clients that have not left
by then. -/
def attending (clients : Clients) : List Obs → List ClientId
  | .meanwhile acts :: _ => (clients.run (acts.map fun x => .act x.1 x.2)).reap.list
  | _ => []

theorem wp_handleEvent_sound {event : Event} (h : Sound a) :
    Await.wp (handleEvent chrono event)
      (fun _ log' a' => Sound a' ∨ (event.isOneshot = true ∧ a.notifications ≠ none ∧
        ∃ obs, log' = log ++ obs ∧ Broke (attending a.clients obs) obs))
      (fun _ _ => True) log a := by
  refine wp_handleEvent chrono trivial (fun acts elapsed => .inl (h.elapse acts elapsed)) ?_
    (fun _ acts elapsed => ?_) (fun _ _ acts elapsed => ?_)
  · rintro cmd rfl acts elapsed
    refine Await.wp_mono (wp_handle_sound (h.elapse acts elapsed)) ?_ fun _ _ h => h
    rintro _ log' a' ⟨obs, rfl, ⟨hone, hn, hbroke⟩ | hsound⟩
    · exact .inr ⟨hone, hn, .meanwhile acts :: obs, by simp, hbroke.prepend [_]⟩
    · exact .inl hsound
  · exact Await.wp_mono (wp_pollDevice_sound (h.elapse acts elapsed)) (fun _ _ _ h => .inl h)
      fun _ _ h => h
  · exact Await.wp_mono (wp_handleNotification_sound (h.elapse acts elapsed))
      (fun _ _ _ h => .inl h) fun _ _ h => h

/-- A one-shot request that finds a subscription in place does not lose it: its
write does not fail after re-establishing the link, and no subscription it takes
out is refused while somebody streams. -/
def Mends (chrono : Chrono) (agent : Agent) (label : Event × List Answer) : Prop :=
  label.1.isOneshot = true → agent.actor.notifications ≠ none →
    ∀ agent' ∈ agent.step chrono label,
      ¬ Broke (attending agent.actor.clients (agent.since agent')) (agent.since agent')

instance (agent : Agent) (label : Event × List Answer) : Decidable (Mends chrono agent label) :=
  inferInstanceAs (Decidable (_ → _ → ∀ _ ∈ agent.step chrono label, _))

/-- The actor of a loop that goes on is sound; when it has ended nobody streams. -/
def Held (agent : Agent) : Prop :=
  if agent.running then Sound agent.actor else agent.actor.clients.list = []

theorem held_step {agent agent' : Agent} {label : Event × List Answer} (h : Held agent)
    (hmends : Mends chrono agent label) (hstep : agent.step chrono label = some agent') :
    Held agent' := by
  obtain ⟨event, tape⟩ := label
  have hrunning : agent.running = true := by
    cases hr : agent.running with
    | true => rfl
    | false => simp [Agent.step, hr] at hstep
  have hsound : Sound agent.actor := by simpa [Held, hrunning] using h
  obtain ⟨-, -, ⟨hgo, hlost⟩ | ⟨log, a, rfl, -⟩⟩ :=
    step_of_wp chrono (wp_handleEvent_sound hsound) hstep
  · rw [Held, if_pos hgo]
    refine hlost.resolve_right ?_
    rintro ⟨hone, hn, obs, hlog, hbroke⟩
    refine hmends hone hn agent' hstep ?_
    rw [Agent.since, hlog, List.drop_left]
    exact hbroke
  · rfl

/-- **No streaming client is left without a live subscription**, in every run in
which the one-shot requests mend what their writes re-establish. -/
theorem attached_run (chrono : Chrono) (conn : Connection) (interval now : Nat)
    (metricsListen : Option String) (pollAlways : Bool) {labels : List (Event × List Answer)}
    {agent : Agent}
    (hrun : Transition.run (Agent.step chrono)
      (.start conn interval now metricsListen pollAlways) labels = some agent)
    (hmends : Transition.Meets (Agent.step chrono) (Mends chrono)
      (.start conn interval now metricsListen pollAlways) labels) :
    agent.actor.Attached := by
  have hstart : Held (.start conn interval now metricsListen pollAlways) :=
    Sound.of_idle rfl rfl
  have hheld : Held agent := Transition.run_invariant
    (fun _ _ _ h hok hstep => held_step h hok hstep) labels _ _ hstart hmends hrun
  unfold Held at hheld
  split at hheld
  · exact hheld.attached
  · exact fun hlist => absurd hheld hlist

/-- A client streams; a command's write re-establishes the link on the way, and
the subscription is renewed or refused. -/
def reestablished (renewed : Except String Unit) (rest : List Answer) :
    List (Event × List Answer) :=
  [(.command (some ⟨.subscribe, 0⟩), [.meanwhile [] 0, .meanwhile [] 0, .subscribe (.ok ())]),
    (.command (some ⟨.testLed, 1⟩), [.meanwhile [] 0, .meanwhile [] 0,
      .deviceWrite (.error "Not connected"), .attempt (.ok [cTx, cRx]), .deviceWrite (.ok ()),
      .meanwhile [] 0, .subscribe renewed] ++ rest)]

theorem attached_run_renewed : ∃ agent,
    Transition.run (Agent.step (.utc fun _ => .error "too short"))
      (.start ⟨1⟩ nanosPerSec 0 none false)
      (reestablished (.ok ()) [.meanwhile [] 0, .next (some ⟨cRx, generate [0x3E, 0x00]⟩)]) =
      some agent ∧ agent.actor.clients.list = [0] ∧ agent.actor.Attached := by
  have hchecks : (Transition.run (Agent.step (.utc fun _ => .error "too short"))
      (.start ⟨1⟩ nanosPerSec 0 none false)
      (reestablished (.ok ()) [.meanwhile [] 0, .next (some ⟨cRx, generate [0x3E, 0x00]⟩)])).any
      (fun agent => decide (agent.actor.clients.list = [0])) = true := by decide +kernel
  obtain ⟨agent, hrun, hlist⟩ := (Option.any_eq_true _ _).mp hchecks
  exact ⟨agent, hrun, of_decide_eq_true hlist,
    attached_run _ _ _ _ _ _ hrun (by decide +kernel)⟩

/-- The client stays on the list with nothing subscribed. -/
theorem not_attached_refused : ∃ agent,
    Transition.run (Agent.step (.utc fun _ => .error "too short"))
      (.start ⟨1⟩ nanosPerSec 0 none false)
      (reestablished (.error "Not connected") []) = some agent ∧ ¬ agent.actor.Attached := by
  have hchecks : (Transition.run (Agent.step (.utc fun _ => .error "too short"))
      (.start ⟨1⟩ nanosPerSec 0 none false) (reestablished (.error "Not connected") [])).any
      (fun agent => !decide agent.actor.Attached) = true := by decide +kernel
  obtain ⟨agent, hrun, hnot⟩ := (Option.any_eq_true _ _).mp hchecks
  exact ⟨agent, hrun, by simpa using hnot⟩

end Zone

end Btwattch2
