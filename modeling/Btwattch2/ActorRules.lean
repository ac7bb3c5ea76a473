/-
Btwattch2.ActorRules — one rule for each operation of the link and each step of
the actor: everything it can do, as a rule of `wp`.

The operations of the link are described by the observations they log and by how
many times they connect; the steps of the actor that await nothing are
determined, and have an equivalence.
-/
import Btwattch2.Actor
import Btwattch2.AssemblerTheorems

namespace Btwattch2

open Lib

/-! ## The link -/

namespace Connection

section Rules

variable {E : List Obs → Connection → Prop} {log : List Obs} {c : Connection}

theorem wp_establishLoop {Q : Except String (List Uuid) → List Obs → Connection → Prop}
    (hE : E log c) (hQ : ∀ r, Q r log c) : ∀ left, Await.wp (establishLoop left) Q E log c := by
  intro left
  induction left with
  | zero =>
    unfold establishLoop
    refine Await.wp_bind (Await.wp_await hE fun _ result _ => ?_)
    cases result <;> exact Await.wp_pure.mpr (hQ _)
  | succ left ih =>
    unfold establishLoop
    refine Await.wp_bind (Await.wp_await hE fun _ result _ => ?_)
    cases result with
    | error e => exact ih
    | ok chars => exact Await.wp_pure.mpr (hQ _)

theorem wp_establish {Q : Except String Unit → List Obs → Connection → Prop} (hE : E log c)
    (hQ : ∀ r, Q r log c) : Await.wp establish Q E log c := by
  unfold establish
  refine Await.wp_bind (wp_establishLoop hE (fun r => ?_) _)
  cases r with
  | error e => exact Await.wp_pure.mpr (hQ _)
  | ok chars =>
    dsimp only
    split
    · exact Await.wp_pure.mpr (hQ _)
    · split <;> exact Await.wp_pure.mpr (hQ _)

theorem wp_connect {Q : Except String Unit → List Obs → Connection → Prop} (hE : E log c)
    (hok : Q (.ok ()) (log ++ [.connected]) ⟨c.connects + 1⟩)
    (herror : ∀ e, Q (.error e) log c) : Await.wp connect Q E log c := by
  unfold connect
  refine Await.wp_bind (wp_establish hE fun r => ?_)
  cases r with
  | error e => exact Await.wp_pure.mpr (herror e)
  | ok _ =>
    refine Await.wp_bind (Await.wp_modify.mpr (Await.wp_bind (Await.wp_observe.mpr ?_)))
    exact Await.wp_pure.mpr hok

theorem wp_listen {Q : Except String Notifications → List Obs → Connection → Prop} (hE : E log c)
    (hok : Q (.ok ⟨c.connects⟩) (log ++ [.listen true]) c)
    (herror : ∀ e, Q (.error e) (log ++ [.listen false]) c) : Await.wp listen Q E log c := by
  unfold listen
  refine Await.wp_bind (Await.wp_await hE fun _ result _ => ?_)
  cases result with
  | error e => exact Await.wp_bind (Await.wp_observe.mpr (Await.wp_pure.mpr (herror e)))
  | ok _ =>
    refine Await.wp_bind (Await.wp_observe.mpr (Await.wp_bind (Await.wp_get.mpr ?_)))
    exact Await.wp_pure.mpr hok

/-- The observations of a reconnect up to its end: connected or not, and whether
the subscription after it was refused. -/
theorem wp_reconnectStream {Q : Except String Notifications → List Obs → Connection → Prop}
    (hE : E log c) (hE' : E (log ++ [.connected]) ⟨c.connects + 1⟩)
    (hok : Q (.ok ⟨c.connects + 1⟩) (log ++ [.connected, .listen true, .reconnectStream true])
      ⟨c.connects + 1⟩)
    (hrefused : ∀ e, Q (.error e) (log ++ [.connected, .listen false, .reconnectStream false])
      ⟨c.connects + 1⟩)
    (herror : ∀ e, Q (.error e) (log ++ [.reconnectStream false]) c) :
    Await.wp reconnectStream Q E log c := by
  unfold reconnectStream
  refine Await.wp_bind (wp_connect hE ?_ fun e => ?_)
  · refine Await.wp_bind (wp_listen hE' ?_ fun e => ?_)
    · exact Await.wp_bind (Await.wp_observe.mpr (Await.wp_pure.mpr (by simpa using hok)))
    · exact Await.wp_bind (Await.wp_observe.mpr (Await.wp_pure.mpr (by simpa using hrefused e)))
  · exact Await.wp_bind (Await.wp_observe.mpr (Await.wp_pure.mpr (herror e)))

/-- What the attempts of a write log before the last one. -/
def WriteTries (payload : List UInt8) (tries : List Obs) : Prop :=
  ∀ o ∈ tries, o = .deviceWrite payload false ∨ o = .connected

theorem WriteTries.concat {payload : List UInt8} {tries : List Obs} {o : Obs}
    (h : WriteTries payload tries) (ho : o = .deviceWrite payload false ∨ o = .connected) :
    WriteTries payload (tries ++ [o]) := by
  intro x hx
  rcases List.mem_append.mp hx with hx | hx
  · exact h x hx
  · rw [List.mem_singleton.mp hx]
    exact ho

/-- The link after some attempts of a write. -/
def afterTries (c : Connection) (tries : List Obs) : Connection :=
  ⟨c.connects + tries.count .connected⟩

/-- Everything a write can do: attempts and reconnects in any mixture, and then
a last attempt that succeeds or fails. -/
theorem wp_write {Q : Except String Bool → List Obs → Connection → Prop} {payload : List UInt8}
    (hE : ∀ tries, WriteTries payload tries → E (log ++ tries) (c.afterTries tries))
    (hok : ∀ tries, WriteTries payload tries → Q (.ok (decide (.connected ∈ tries)))
      (log ++ tries ++ [.deviceWrite payload true, .write true (decide (.connected ∈ tries))])
      (c.afterTries tries))
    (herror : ∀ tries e, WriteTries payload tries → Q (.error e)
      (log ++ tries ++ [.write false (decide (.connected ∈ tries))]) (c.afterTries tries)) :
    Await.wp (write payload) Q E log c := by
  have hloop : ∀ left tries, WriteTries payload tries →
      Await.wp (writeLoop payload (decide (.connected ∈ tries)) left) Q E (log ++ tries)
        (c.afterTries tries) := by
    intro left
    induction left with
    | zero =>
      intro tries htries
      unfold writeLoop
      refine Await.wp_bind (Await.wp_await (hE tries htries) fun _ result _ => ?_)
      cases result with
      | ok _ =>
        refine Await.wp_bind (Await.wp_observe.mpr (Await.wp_bind (Await.wp_observe.mpr ?_)))
        exact Await.wp_pure.mpr (by simpa using hok tries htries)
      | error e =>
        refine Await.wp_bind (Await.wp_observe.mpr (Await.wp_bind (Await.wp_observe.mpr ?_)))
        exact Await.wp_pure.mpr (by simpa [afterTries] using herror _ _ (htries.concat (.inl rfl)))
    | succ left ih =>
      intro tries htries
      have htries' := htries.concat (.inl rfl)
      unfold writeLoop
      refine Await.wp_bind (Await.wp_await (hE tries htries) fun _ result _ => ?_)
      cases result with
      | ok _ =>
        refine Await.wp_bind (Await.wp_observe.mpr (Await.wp_bind (Await.wp_observe.mpr ?_)))
        exact Await.wp_pure.mpr (by simpa using hok tries htries)
      | error e =>
        refine Await.wp_bind (Await.wp_observe.mpr (Await.wp_bind (wp_connect ?_ ?_ fun e => ?_)))
        · simpa [afterTries] using hE _ htries'
        · simpa [afterTries, Nat.add_assoc] using ih _ (htries'.concat (.inr rfl))
        · simpa [afterTries] using ih _ htries'
  have hstart := hloop (writeRetries - 1) [] (by simp [WriteTries])
  simp only [List.append_nil, afterTries, List.count_nil, Nat.add_zero, List.not_mem_nil,
    decide_false] at hstart
  exact hstart

end Rules

end Connection

/-! ## The actor's own state -/

/-- What assigning `notifications` logs. -/
def Actor.closing (a : Actor) : List Obs :=
  match a.notifications with
  | some _ => [.closed a.assembler.buf]
  | none => []

@[simp] theorem Actor.closing_elapse (a : Actor) (acts : List (ClientId × ClientAct))
    (elapsed : Nat) : (a.elapse acts elapsed).closing = a.closing := rfl

@[simp] theorem Actor.conn_elapse (a : Actor) (acts : List (ClientId × ClientAct))
    (elapsed : Nat) : (a.elapse acts elapsed).conn = a.conn := rfl

/-- The subscription in place is dropped. -/
def Actor.dropped (a : Actor) : Actor := { a with notifications := none }

/-- A fresh subscription is in place, and the assembler is empty. -/
def Actor.subscribed (a : Actor) (n : Notifications) : Actor :=
  { a with notifications := some n, assembler := .new }

/-- The stream is torn down and every client is told. -/
def Actor.aborted (a : Actor) (reason : StreamError) : Actor :=
  (a.dropped.withStats fun stats => stats.setConnected false).applyOp (.abort reason)

section Rules

variable {E : List Obs → Actor → Prop} {log : List Obs} {a : Actor}

section Unit

variable {Q : Unit → List Obs → Actor → Prop}

theorem wp_meanwhile (hE : E log a)
    (hQ : ∀ acts elapsed, Q () (log ++ [.meanwhile acts]) (a.elapse acts elapsed)) :
    Await.wp meanwhile Q E log a := by
  unfold meanwhile
  refine Await.wp_bind (Await.wp_await hE ?_)
  rintro _ ⟨acts, elapsed⟩ -
  exact Await.wp_bind (Await.wp_modify.mpr (Await.wp_observe.mpr (hQ acts elapsed)))

theorem wp_clientOp {op : ClientOp} (h : Q () (log ++ [.clients op]) (a.applyOp op)) :
    Await.wp (clientOp op) Q E log a :=
  Await.wp_bind (Await.wp_modify.mpr (Await.wp_observe.mpr h))

theorem wp_setStats {f : AgentStats → AgentStats} (h : Q () log (a.withStats f)) :
    Await.wp (setStats f) Q E log a :=
  Await.wp_modify.mpr h

theorem wp_setNotifications {n : Option Notifications}
    (h : Q () (log ++ a.closing) { a with notifications := n }) :
    Await.wp (setNotifications n) Q E log a := by
  unfold setNotifications
  refine Await.wp_bind (Await.wp_get.mpr ?_)
  cases hn : a.notifications with
  | none =>
    refine Await.wp_modify.mpr ?_
    simpa [Actor.closing, hn] using h
  | some m =>
    refine Await.wp_bind (Await.wp_observe.mpr (Await.wp_modify.mpr ?_))
    simpa [Actor.closing, hn] using h

theorem wp_applySubscription {n : Notifications}
    (h : Q () (log ++ a.closing ++ [.opened]) (a.subscribed n)) :
    Await.wp (applySubscription n) Q E log a := by
  unfold applySubscription
  refine Await.wp_bind (wp_setNotifications (Await.wp_bind (Await.wp_modify.mpr ?_)))
  exact Await.wp_observe.mpr h

theorem wp_abortStream {reason : StreamError}
    (h : Q () (log ++ a.closing ++ [.clients (.abort reason)]) (a.aborted reason)) :
    Await.wp (abortStream reason) Q E log a := by
  unfold abortStream
  refine Await.wp_bind (wp_setNotifications (Await.wp_bind (wp_setStats ?_)))
  exact wp_clientOp h

end Unit

theorem wp_onLink {α : Type} {x : Await Answer Obs Connection α} {Q : α → List Obs → Actor → Prop}
    (hE : E log a)
    (hx : ∀ acts elapsed, Await.wp x
      (fun r log conn => Q r log { a.elapse acts elapsed with conn })
      (fun log conn => E log { a.elapse acts elapsed with conn })
      (log ++ [.meanwhile acts]) a.conn) :
    Await.wp (onLink x) Q E log a := by
  unfold onLink
  refine Await.wp_bind (wp_meanwhile hE fun acts elapsed => ?_)
  exact Await.wp_zoom (hx acts elapsed)

theorem wp_relisten {Q : Except StreamError Unit → List Obs → Actor → Prop} (hE : E log a)
    (hE' : ∀ acts elapsed, E (log ++ [.meanwhile acts]) (a.elapse acts elapsed))
    (hok : ∀ acts elapsed, Q (.ok ())
      (log ++ [.meanwhile acts, .listen true] ++ a.closing ++ [.opened])
      ((a.elapse acts elapsed).subscribed ⟨a.conn.connects⟩))
    (herror : ∀ acts elapsed e, Q (.error e) (log ++ [.meanwhile acts, .listen false] ++ a.closing)
      (a.elapse acts elapsed).dropped) :
    Await.wp relisten Q E log a := by
  unfold relisten
  refine Await.wp_bind (wp_onLink hE fun acts elapsed => ?_)
  refine Connection.wp_listen (hE' acts elapsed) ?_ fun e => ?_
  · refine Await.wp_bind (wp_applySubscription (Await.wp_pure.mpr ?_))
    have h := hok acts elapsed
    simp only [List.append_assoc, List.cons_append, List.nil_append] at h ⊢
    exact h
  · refine Await.wp_bind (wp_setNotifications (Await.wp_pure.mpr ?_))
    have h := herror acts elapsed s!"listen failed: {e}"
    simp only [List.append_assoc, List.cons_append, List.nil_append] at h ⊢
    exact h

end Rules

/-! ## Frames -/

section Zone

variable (chrono : Chrono)

/-- A frame that is a measurement is recorded and broadcast. -/
def Actor.forwarded (a : Actor) (frame : List UInt8) : Actor :=
  match tryMeasurement chrono frame with
  | none => a
  | some m => (a.withStats fun stats => stats.recordSample a.now m).applyOp
      (.broadcast (.fromMeasurement m))

/-- What forwarding a frame logs. -/
def forwardObs (frame : List UInt8) : List Obs :=
  match tryMeasurement chrono frame with
  | none => []
  | some m => [.clients (.broadcast (.fromMeasurement m))]

/-- What taking a frame and forwarding it logs. -/
def takeObs (taker : Taker) (frame : List UInt8) : List Obs :=
  .took frame taker :: forwardObs chrono frame

/-- The iterator over a value, driven until a frame satisfies `stop`. -/
def Actor.pulled (a : Actor) (stop : List UInt8 → Bool) (value : List UInt8) :
    List (List UInt8) × Option (List UInt8) × FrameAssembler :=
  (a.assembler.feed value).pull stop

/-- A value fed to the assembler, and the frames before the one that stops it
forwarded. -/
def Actor.fed (a : Actor) (stop : List UInt8 → Bool) (value : List UInt8) : Actor :=
  (a.pulled stop value).1.foldl (Actor.forwarded chrono)
    { a with assembler := (a.pulled stop value).2.2 }

theorem forwarded_stream (a : Actor) (frame : List UInt8) :
    (a.forwarded chrono frame).notifications = a.notifications ∧
      (a.forwarded chrono frame).assembler = a.assembler := by
  unfold Actor.forwarded
  split <;> exact ⟨rfl, rfl⟩

theorem forwardedAll_stream : ∀ (frames : List (List UInt8)) (a : Actor),
    (frames.foldl (Actor.forwarded chrono) a).notifications = a.notifications ∧
      (frames.foldl (Actor.forwarded chrono) a).assembler = a.assembler
  | [], _ => ⟨rfl, rfl⟩
  | frame :: frames, a => by
    obtain ⟨hn, hasm⟩ := forwardedAll_stream frames (a.forwarded chrono frame)
    obtain ⟨hn', hasm'⟩ := forwarded_stream chrono a frame
    exact ⟨hn.trans hn', hasm.trans hasm'⟩

theorem fed_notifications (a : Actor) (stop : List UInt8 → Bool) (value : List UInt8) :
    (a.fed chrono stop value).notifications = a.notifications :=
  (forwardedAll_stream chrono (a.pulled stop value).1 _).1

/-- What feeding a value logs. -/
def feedObs (a : Actor) (stop : List UInt8 → Bool) (taker : Taker) (value : List UInt8) : List Obs :=
  .rx value :: (a.pulled stop value).1.flatMap (takeObs chrono taker)

section Rules

variable {E : List Obs → Actor → Prop} {log : List Obs} {a : Actor}

theorem wp_forward {Q : Unit → List Obs → Actor → Prop} {frame : List UInt8}
    (h : Q () (log ++ forwardObs chrono frame) (a.forwarded chrono frame)) :
    Await.wp (forward chrono frame) Q E log a := by
  unfold forward
  cases hm : tryMeasurement chrono frame with
  | none =>
    refine Await.wp_pure.mpr ?_
    simpa [forwardObs, Actor.forwarded, hm] using h
  | some m =>
    refine Await.wp_bind (Await.wp_get.mpr (Await.wp_bind (wp_setStats (wp_clientOp ?_))))
    simpa [forwardObs, Actor.forwarded, hm] using h

theorem wp_forwardAll {Q : Unit → List Obs → Actor → Prop} {taker : Taker} :
    ∀ {frames : List (List UInt8)} {log : List Obs} {a : Actor},
      Q () (log ++ frames.flatMap (takeObs chrono taker))
        (frames.foldl (Actor.forwarded chrono) a) →
      Await.wp (forwardAll chrono taker frames) Q E log a
  | [], log, a, h => Await.wp_pure.mpr (by simpa using h)
  | frame :: frames, log, a, h => by
    refine Await.wp_bind (Await.wp_observe.mpr (Await.wp_bind (wp_forward chrono ?_)))
    exact wp_forwardAll (by simpa [takeObs] using h)

theorem wp_feedUntil {Q : Option (List UInt8) → List Obs → Actor → Prop}
    {stop : List UInt8 → Bool} {taker : Taker} {value : List UInt8}
    (h : Q (a.pulled stop value).2.1 (log ++ feedObs chrono a stop taker value)
      (a.fed chrono stop value)) :
    Await.wp (feedUntil chrono stop taker value) Q E log a := by
  unfold feedUntil
  refine Await.wp_bind (Await.wp_observe.mpr (Await.wp_bind (Await.wp_get.mpr ?_)))
  refine Await.wp_bind (Await.wp_modify.mpr (Await.wp_bind (wp_forwardAll chrono ?_)))
  exact Await.wp_pure.mpr (by simpa [feedObs, Actor.pulled, Actor.fed] using h)

theorem wp_reply {Q : Unit → List Obs → Actor → Prop} {tx : ClientId}
    {result : Except StreamError Response}
    (hok : ∀ response, result = .ok response →
      Q () (log ++ [.reply tx response]) (a.trySend tx response))
    (herror : ∀ message, result = .error message →
      Q () (log ++ [.reply tx (.error message)]) (a.trySend tx (.error message))) :
    Await.wp (reply tx result) Q E log a := by
  unfold reply
  refine Await.wp_bind (Await.wp_modify.mpr (Await.wp_observe.mpr ?_))
  cases result with
  | ok response => exact hok response rfl
  | error message => exact herror message rfl

theorem wp_sendError {Q : Unit → List Obs → Actor → Prop} {tx : ClientId} {message : String}
    (h : Q () (log ++ [.reply tx (.error message)]) (a.trySend tx (.error message))) :
    Await.wp (sendError tx message) Q E log a :=
  Await.wp_bind (Await.wp_modify.mpr (Await.wp_observe.mpr h))

/-! ### Requests and events -/

/-- The requests that write a frame and wait for the reply. -/
def Request.isOneshot : Request → Bool
  | .getRtc | .power _ | .testLed | .setRtc _ => true
  | .ping | .shutdown | .subscribe => false

/-- What the beginning of a request logs. -/
def ActorCommand.begun (cmd : ActorCommand) : List Obs :=
  [.request cmd.tx cmd.request, .clients .reap]

/-- A request is begun, and then it is nothing to the actor, a subscription, a
one-shot, or invalid. -/
theorem wp_handle {Q : Unit → List Obs → Actor → Prop} {cmd : ActorCommand}
    (hcontrol : Q () (log ++ cmd.begun) (a.applyOp .reap))
    (hsubscribe : Await.wp (handleSubscribe cmd.tx) Q E (log ++ cmd.begun) (a.applyOp .reap))
    (hcommand : cmd.request.isOneshot = true → ∀ payload,
      Await.wp (command chrono payload cmd.tx) Q E (log ++ cmd.begun) (a.applyOp .reap))
    (hrtc : cmd.request.isOneshot = true → ∀ payload,
      Await.wp (do reply cmd.tx ((← oneshot chrono payload .measurement).bind (rtcResponse chrono)))
        Q E (log ++ cmd.begun) (a.applyOp .reap))
    (hinvalid : ∀ message,
      Await.wp (sendError cmd.tx message) Q E (log ++ cmd.begun) (a.applyOp .reap)) :
    Await.wp (handle chrono cmd) Q E log a := by
  have hlog : log ++ [.request cmd.tx cmd.request] ++ [.clients .reap] = log ++ cmd.begun :=
    List.append_assoc _ _ _
  unfold handle
  refine Await.wp_bind (Await.wp_observe.mpr (Await.wp_bind (wp_clientOp ?_)))
  rw [hlog]
  split
  · exact Await.wp_pure.mpr hcontrol
  · exact Await.wp_pure.mpr hcontrol
  · exact hsubscribe
  case h_4 hrequest =>
    exact Await.wp_bind (Await.wp_get.mpr (hrtc (by simp [hrequest, Request.isOneshot]) _))
  case h_5 hrequest => exact hcommand (by simp [hrequest, Request.isOneshot]) _
  case h_6 hrequest => exact hcommand (by simp [hrequest, Request.isOneshot]) _
  case h_7 hrequest =>
    split
    · exact hcommand (by simp [hrequest, Request.isOneshot]) _
    · exact hinvalid _

/-- Time passes before an event is handled; shutdown, and the end of the last
client handle, end the loop. -/
theorem wp_handleEvent {Q : Bool → List Obs → Actor → Prop} {event : Event} (hE : E log a)
    (hend : ∀ acts elapsed, Q false (log ++ [.meanwhile acts]) (a.elapse acts elapsed))
    (hcommand : ∀ cmd, event = .command (some cmd) → ∀ acts elapsed,
      Await.wp (handle chrono cmd) (fun _ => Q true) E (log ++ [.meanwhile acts])
        (a.elapse acts elapsed))
    (htick : event = .tick → ∀ acts elapsed,
      Await.wp pollDevice (fun _ => Q true) E (log ++ [.meanwhile acts]) (a.elapse acts elapsed))
    (hnotification : ∀ n, event = .notification n → ∀ acts elapsed,
      Await.wp (handleNotification chrono n) (fun _ => Q true) E (log ++ [.meanwhile acts])
        (a.elapse acts elapsed)) :
    Await.wp (handleEvent chrono event) Q E log a := by
  unfold handleEvent
  refine Await.wp_bind (wp_meanwhile hE fun acts elapsed => ?_)
  have hgo : ∀ {x : ActorM Unit} {log : List Obs} {a : Actor},
    Await.wp x (fun _ => Q true) E log a →
      Await.wp (do x; pure true) Q E log a := fun h =>
    Await.wp_bind (Await.wp_mono h (fun _ _ _ h => Await.wp_pure.mpr h) fun _ _ h => h)
  split
  · exact Await.wp_pure.mpr (hend acts elapsed)
  · exact Await.wp_pure.mpr (hend acts elapsed)
  · exact hgo (hcommand _ rfl acts elapsed)
  · exact hgo (htick rfl acts elapsed)
  · exact hgo (hnotification _ rfl acts elapsed)

end Rules

end Zone

end Btwattch2
