/-
Btwattch2.ActorInvariants — what every handler of the actor keeps.

The handlers are built from few steps. `Stable` lists what an invariant of the
log and the state has to survive: each of these steps in isolation, and the
reply to a command together with the observations that led to it (`Served`).
`stable_step` is the pass over all the handlers, done once: a stable invariant
holds before and after every event, in every run.
-/
import Btwattch2.ActorRules
import Btwattch2.Lib.Transition

namespace Btwattch2

open Lib

/-! ## Parts of a log -/

/-- An observation that changes nothing the actor keeps. -/
def Obs.isNote : Obs → Bool
  | .deviceWrite _ _ | .listen _ | .write _ _ | .reconnectStream _ => true
  | _ => false

/-- An observation while nothing is asked of the link, and no request begins. -/
def Obs.isCalm : Obs → Bool
  | .meanwhile _ | .rx _ | .took _ _ | .clients _ | .awaiting _ | .closed _ => true
  | _ => false

def Obs.isRequest : Obs → Bool
  | .request _ _ => true
  | _ => false

/-- Nothing is asked of the link in this part of a log, and no request begins. -/
def Calm (obs : List Obs) : Prop := ∀ o ∈ obs, o.isCalm = true

/-- No request begins in this part of a log. -/
def SameRequest (obs : List Obs) : Prop := ∀ o ∈ obs, o.isRequest = false

theorem Calm.append {obs obs' : List Obs} (h : Calm obs) (h' : Calm obs') : Calm (obs ++ obs') :=
  fun o ho => (List.mem_append.mp ho).elim (h o) (h' o)

theorem SameRequest.append {obs obs' : List Obs} (h : SameRequest obs) (h' : SameRequest obs') :
    SameRequest (obs ++ obs') :=
  fun o ho => (List.mem_append.mp ho).elim (h o) (h' o)

theorem Calm.sameRequest {obs : List Obs} (h : Calm obs) : SameRequest obs := by
  intro o ho
  have hcalm := h o ho
  cases o <;> first | rfl | cases hcalm

theorem calm_closing (a : Actor) : Calm a.closing := by
  unfold Actor.closing
  split <;> simp [Calm, Obs.isCalm]

/-- The observations of a request that got its reply: a wait that ends with a
frame, what came before it, and what comes after it. -/
structure WaitedFor (kind : FrameKind) (obs : List Obs) (frame : List UInt8)
    (before during after : List Obs) : Prop where
  eq : obs = before ++ .awaiting kind :: during ++ .took frame (.reply kind) :: after
  fits : kind.matches frame = true
  calm : Calm (during ++ after)

theorem WaitedFor.prepend {kind : FrameKind} {obs before during after : List Obs}
    {frame : List UInt8} (h : WaitedFor kind obs frame before during after) (pre : List Obs) :
    WaitedFor kind (pre ++ obs) frame (pre ++ before) during after :=
  ⟨by simp [h.eq], h.fits, h.calm⟩

theorem WaitedFor.append {kind : FrameKind} {obs before during after : List Obs}
    {frame : List UInt8} (h : WaitedFor kind obs frame before during after) {post : List Obs}
    (hpost : Calm post) : WaitedFor kind (obs ++ post) frame before during (after ++ post) :=
  ⟨by simp [h.eq], h.fits, by simpa using h.calm.append hpost⟩

/-- How a one-shot that started with one log and ended with another went: all of
it in one request, and a frame only at the end of a wait. -/
def Asked (kind : FrameKind) (log : List Obs) (r : Except StreamError (List UInt8))
    (log' : List Obs) : Prop :=
  ∃ obs, log' = log ++ obs ∧ SameRequest obs ∧
    ∀ frame, r = .ok frame → ∃ before during after, WaitedFor kind obs frame before during after

theorem Asked.error {kind : FrameKind} {log obs : List Obs} {e : StreamError}
    (h : SameRequest obs) : Asked kind log (.error e) (log ++ obs) :=
  ⟨obs, rfl, h, by simp⟩

theorem Asked.prepend {kind : FrameKind} {log obs log' : List Obs}
    {r : Except StreamError (List UInt8)} (h : Asked kind (log ++ obs) r log')
    (hobs : SameRequest obs) : Asked kind log r log' := by
  obtain ⟨obs', rfl, hobs', hframe⟩ := h
  refine ⟨obs ++ obs', by simp, hobs.append hobs', fun frame hr => ?_⟩
  obtain ⟨before, during, after, hw⟩ := hframe frame hr
  exact ⟨_, _, _, hw.prepend obs⟩

theorem Asked.append {kind : FrameKind} {log log' post : List Obs}
    {r : Except StreamError (List UInt8)} (h : Asked kind log r log') (hpost : Calm post) :
    Asked kind log r (log' ++ post) := by
  obtain ⟨obs, rfl, hobs, hframe⟩ := h
  refine ⟨obs ++ post, by simp, hobs.append hpost.sameRequest, fun frame hr => ?_⟩
  obtain ⟨before, during, after, hw⟩ := hframe frame hr
  exact ⟨_, _, _, hw.append hpost⟩

/-- The log ends with a command that was served: the request, the wait for its
reply, and the frame that was taken for it. -/
def Served (log : List Obs) (tx : ClientId) (frame : List UInt8) : Prop :=
  ∃ pre request obs before during after, log = pre ++ .request tx request :: obs ∧
    SameRequest obs ∧ WaitedFor .command obs frame before during after

/-! ## Stable invariants -/

section Zone

variable (chrono : Chrono)

/-- What an invariant has to survive to be kept while a reply is waited for. A value is
fed only while there is a subscription. -/
structure Patient (I : List Obs → Actor → Prop) : Prop where
  meanwhile : ∀ {log a} acts elapsed, I log a → I (log ++ [.meanwhile acts]) (a.elapse acts elapsed)
  awaiting : ∀ {log a} kind, I log a → I (log ++ [.awaiting kind]) a
  feedMiss : ∀ {log a} kind value, a.notifications.isSome = true →
    (a.pulled (FrameKind.matches kind) value).2.1 = none → I log a →
    I (log ++ feedObs chrono a kind.matches .forwarded value) (a.fed chrono kind.matches value)
  feedHit : ∀ {log a} kind value frame, a.notifications.isSome = true →
    (a.pulled (FrameKind.matches kind) value).2.1 = some frame → I log a →
    I (log ++ feedObs chrono a kind.matches .forwarded value ++ [.took frame (.reply kind)])
      (a.fed chrono kind.matches value)

/-- What an invariant has to survive to be kept while an event is handled. -/
structure Steady (I : List Obs → Actor → Prop) : Prop extends Patient chrono I where
  note : ∀ {log a o}, o.isNote = true → I log a → I (log ++ [o]) a
  connected : ∀ {log a}, I log a →
    I (log ++ [.connected]) { a with conn := ⟨a.conn.connects + 1⟩ }
  recordReconnect : ∀ {log a}, I log a →
    I log (a.withStats fun stats => stats.recordReconnect)
  disconnected : ∀ {log a}, I log a → I log (a.withStats fun stats => stats.setConnected false)
  clients : ∀ {log a op}, (∀ response, op ≠ .broadcast response) → I log a →
    I (log ++ [.clients op]) (a.applyOp op)
  drop : ∀ {log a}, I log a → I (log ++ a.closing) a.dropped
  subscribe : ∀ {log a} n, I log a → I (log ++ a.closing ++ [.opened]) (a.subscribed n)
  feed : ∀ {log a} value, a.notifications.isSome = true → I log a →
    I (log ++ feedObs chrono a (fun _ => false) .notification value)
      (a.fed chrono (fun _ => false) value)

/-- What an invariant has to survive to be kept by every handler. -/
structure Stable (I : List Obs → Actor → Prop) : Prop extends Steady chrono I where
  request : ∀ {log a} tx request, I log a → I (log ++ [.request tx request]) a
  reply : ∀ {log a tx response}, (∀ code, response ≠ .commandResult code) → I log a →
    I (log ++ [.reply tx response]) (a.trySend tx response)
  result : ∀ {log a tx frame}, Served log tx frame → I log a →
    I (log ++ [.reply tx (parseCommandResult frame)]) (a.trySend tx (parseCommandResult frame))

/-! ### Waiting for a reply -/

section

variable {chrono}

theorem calm_feedObs (a : Actor) (stop : List UInt8 → Bool) (taker : Taker) (value : List UInt8) :
    Calm (feedObs chrono a stop taker value) := by
  intro o ho
  simp only [feedObs, takeObs, List.mem_cons, List.mem_flatMap] at ho
  rcases ho with rfl | ⟨frame, -, rfl | ho⟩
  · rfl
  · rfl
  · revert ho
    unfold forwardObs
    split
    · simp
    · intro ho
      rw [List.mem_singleton.mp ho]
      rfl

end

namespace Patient

variable {chrono}
variable {I : List Obs → Actor → Prop} (hI : Patient chrono I)
variable {log : List Obs} {a : Actor}

include hI

/-- A wait is calm, and what it returns is the last frame it took. -/
theorem wp_nextMatchingFrame {kind : FrameKind} (hsome : a.notifications.isSome = true)
    (h : I log a) :
    Await.wp (nextMatchingFrame chrono kind)
      (fun r log' a' => I log' a' ∧ ∃ during, Calm during ∧ match r with
        | .frame frame => kind.matches frame = true ∧
            log' = log ++ during ++ [.took frame (.reply kind)]
        | _ => log' = log ++ during)
      (fun log' a' => I log' a' ∧ ∃ during, Calm during ∧ log' = log ++ during) log a := by
  unfold nextMatchingFrame
  refine Await.wp_loop (I := fun log' a' => a'.notifications.isSome = true ∧ I log' a' ∧
    ∃ during, Calm during ∧ log' = log ++ during) ⟨hsome, h, [], by simp [Calm], by simp⟩
    (fun _ _ h => h.2) ?_
  rintro log' a' ⟨hsome, h, during, hcalm, rfl⟩
  unfold nextMatchingTurn
  refine Await.wp_bind (wp_meanwhile ⟨h, during, hcalm, rfl⟩ fun acts elapsed => ?_)
  have hm := hI.meanwhile acts elapsed h
  have hsome' : (a'.elapse acts elapsed).notifications.isSome = true := hsome
  have hcalm' : Calm (during ++ [.meanwhile acts]) := hcalm.append (by simp [Calm, Obs.isCalm])
  refine Await.wp_bind (Await.wp_await ⟨hm, _, hcalm', List.append_assoc _ _ _⟩ ?_)
  rintro _ (_ | _ | event) -
  · exact Await.wp_pure.mpr ⟨hm, _, hcalm', List.append_assoc _ _ _⟩
  · exact Await.wp_pure.mpr ⟨hm, _, hcalm', List.append_assoc _ _ _⟩
  · dsimp only
    split
    · exact Await.wp_pure.mpr ⟨hsome', hm, _, hcalm', List.append_assoc _ _ _⟩
    · refine Await.wp_bind (wp_feedUntil chrono ?_)
      have hfeed := hcalm'.append (@calm_feedObs chrono (a'.elapse acts elapsed) kind.matches
        .forwarded event.value)
      cases hpull : ((a'.elapse acts elapsed).pulled kind.matches event.value).2.1 with
      | none =>
        refine Await.wp_pure.mpr ⟨?_, hI.feedMiss kind event.value hsome' hpull hm, _, hfeed,
          by simp⟩
        rw [fed_notifications]
        exact hsome'
      | some frame =>
        exact Await.wp_bind (Await.wp_observe.mpr (Await.wp_pure.mpr
          ⟨hI.feedHit kind event.value frame hsome' hpull hm, _, hfeed,
            (FrameAssembler.pull_spec _ _).hit frame hpull, by simp⟩))

theorem wp_waitForFrame {kind : FrameKind} (h : I log a) :
    Await.wp (waitForFrame chrono kind)
      (fun r log' a' => I log' a' ∧ Asked kind log r log' ∧ ∃ obs, Calm obs ∧ log' = log ++ obs)
      (fun log' a' => I log' a' ∧ ∃ obs, Calm obs ∧ log' = log ++ obs) log a := by
  have hnil : Calm [] := by simp [Calm]
  have hawait : Calm [.awaiting kind] := by simp [Calm, Obs.isCalm]
  unfold waitForFrame
  refine Await.wp_bind (Await.wp_get.mpr ?_)
  split
  case h_1 =>
    refine Await.wp_pure.mpr ⟨h, ?_, [], hnil, by simp⟩
    exact ⟨[], by simp, hnil.sameRequest, by simp⟩
  case h_2 n hn =>
    have hawaiting := hI.awaiting kind h
    have hsome : a.notifications.isSome = true := by simp [hn]
    refine Await.wp_bind (Await.wp_observe.mpr (Await.wp_bind
      (Await.wp_mono (hI.wp_nextMatchingFrame hsome hawaiting) ?_ ?_)))
    · rintro (frame | _ | _) log' a' ⟨h, during, hcalm, hr⟩
      · obtain ⟨hfits, rfl⟩ := hr
        have hobs : Calm ([.awaiting kind] ++ during ++ [.took frame (.reply kind)]) :=
          (hawait.append hcalm).append (by simp [Calm, Obs.isCalm])
        refine Await.wp_pure.mpr ⟨h, ⟨_, by simp, hobs.sameRequest, ?_⟩, _, hobs, by simp⟩
        intro frame' hr
        cases hr
        exact ⟨[], during, [], rfl, hfits, by simpa using hcalm⟩
      all_goals
        subst hr
        have hobs := hawait.append hcalm
        refine Await.wp_pure.mpr ⟨h, ?_, _, hobs, by simp⟩
        rw [List.append_assoc]
        exact .error hobs.sameRequest
    · rintro log' a' ⟨h, during, hcalm, rfl⟩
      exact ⟨h, _, hawait.append hcalm, by simp⟩

end Patient

namespace Steady

variable {chrono}
variable {I : List Obs → Actor → Prop} (hI : Steady chrono I)
variable {log : List Obs} {a : Actor}

include hI

theorem abort {reason : StreamError} (h : I log a) :
    I (log ++ a.closing ++ [.clients (.abort reason)]) (a.aborted reason) :=
  hI.clients (by simp) (hI.disconnected (hI.drop h))

/-- Attempts of a write, and the link they leave. -/
theorem writeTries {payload : List UInt8} : ∀ {tries : List Obs} {log : List Obs} {a : Actor},
    Connection.WriteTries payload tries → I log a →
    I (log ++ tries) { a with conn := a.conn.afterTries tries }
  | [], log, a, _, h => by simpa [Connection.afterTries] using h
  | o :: tries, log, a, htries, h => by
    have hrest : Connection.WriteTries payload tries := fun x hx => htries x (by simp [hx])
    rcases htries o (by simp) with rfl | rfl
    · have hnext := writeTries hrest (hI.note rfl h : I (log ++ [.deviceWrite payload false]) a)
      simpa [Connection.afterTries] using hnext
    · have hnext := writeTries hrest (hI.connected h)
      simpa [Connection.afterTries, Nat.add_comm, Nat.add_left_comm] using hnext

/-! ### The operations of the link -/

theorem wp_relisten (h : I log a) :
    Await.wp relisten (fun _ log' a' => I log' a' ∧ ∃ obs, log' = log ++ obs ∧ SameRequest obs)
      I log a := by
  have hclosing := (calm_closing a).sameRequest
  refine Btwattch2.wp_relisten h (fun acts elapsed => hI.meanwhile acts elapsed h)
    (fun acts elapsed => ⟨?_, _, by rw [List.append_assoc, List.append_assoc], ?_⟩)
    (fun acts elapsed e => ⟨?_, _, List.append_assoc _ _ _, ?_⟩)
  · have hlisten := hI.note (o := .listen true) rfl (hI.meanwhile acts elapsed h)
    simpa using hI.subscribe ⟨a.conn.connects⟩ hlisten
  · exact .append (by simp [SameRequest, Obs.isRequest])
      (hclosing.append (by simp [SameRequest, Obs.isRequest]))
  · have hlisten := hI.note (o := .listen false) rfl (hI.meanwhile acts elapsed h)
    simpa using hI.drop hlisten
  · exact .append (by simp [SameRequest, Obs.isRequest]) hclosing

theorem wp_write {payload : List UInt8} (h : I log a) :
    Await.wp (onLink (Connection.write payload))
      (fun _ log' a' => I log' a' ∧ ∃ obs, log' = log ++ obs ∧ SameRequest obs) I log a := by
  have htries' : ∀ {tries : List Obs}, Connection.WriteTries payload tries → SameRequest tries := by
    intro tries htries o ho
    rcases htries o ho with rfl | rfl <;> rfl
  refine wp_onLink h fun acts elapsed => ?_
  have hm := hI.meanwhile acts elapsed h
  refine Connection.wp_write (fun tries htries => hI.writeTries htries hm)
    (fun tries htries => ⟨?_, _, by rw [List.append_assoc, List.append_assoc], ?_⟩)
    (fun tries e htries => ⟨?_, _, by rw [List.append_assoc, List.append_assoc], ?_⟩)
  · have hwrite := hI.note (o := .deviceWrite payload true) rfl (hI.writeTries htries hm)
    simpa using hI.note (o := .write true (decide (.connected ∈ tries))) rfl hwrite
  · exact .append (by simp [SameRequest, Obs.isRequest])
      ((htries' htries).append (by simp [SameRequest, Obs.isRequest]))
  · exact hI.note rfl (hI.writeTries htries hm)
  · exact .append (by simp [SameRequest, Obs.isRequest])
      ((htries' htries).append (by simp [SameRequest, Obs.isRequest]))

theorem wp_reconnectStream (h : I log a) :
    Await.wp (onLink Connection.reconnectStream) (fun _ log' a' => I log' a') I log a := by
  refine wp_onLink h fun acts elapsed => ?_
  have hm := hI.meanwhile acts elapsed h
  have hc := hI.connected hm
  refine Connection.wp_reconnectStream hm hc ?_ (fun e => ?_) (fun e => ?_)
  · have hlisten := hI.note (o := .listen true) rfl hc
    simpa using hI.note (o := .reconnectStream true) rfl hlisten
  · have hlisten := hI.note (o := .listen false) rfl hc
    simpa using hI.note (o := .reconnectStream false) rfl hlisten
  · exact hI.note rfl hm

/-! ### Ticks and notifications -/

theorem wp_abortStream {reason : StreamError} (h : I log a) :
    Await.wp (abortStream reason) (fun _ log a => I log a) I log a :=
  Btwattch2.wp_abortStream (hI.abort h)

theorem wp_pollWrite (h : I log a) : Await.wp pollWrite (fun _ log a => I log a) I log a := by
  unfold pollWrite
  refine Await.wp_bind (Await.wp_get.mpr (Await.wp_bind (Await.wp_mono (hI.wp_write h) ?_ ?_)))
  · rintro (e | _ | _) log a ⟨h, -⟩
    · exact hI.wp_abortStream h
    · exact Await.wp_pure.mpr h
    · refine Await.wp_bind (wp_setStats (Await.wp_bind
        (Await.wp_mono (hI.wp_relisten (hI.recordReconnect h)) ?_ fun _ _ h => h)))
      rintro (e | _) log a ⟨h, -⟩
      · exact hI.wp_abortStream h
      · exact Await.wp_pure.mpr h
  · exact fun _ _ h => h

theorem wp_pollDevice (h : I log a) : Await.wp pollDevice (fun _ log a => I log a) I log a := by
  unfold pollDevice
  have hreap : I (log ++ [.clients .reap]) (a.applyOp .reap) := hI.clients (by simp) h
  refine Await.wp_bind (wp_clientOp (Await.wp_bind (Await.wp_get.mpr ?_)))
  split
  · split
    · refine Await.wp_bind (Await.wp_mono (hI.wp_relisten hreap) ?_ fun _ _ h => h)
      rintro (e | _) log a ⟨h, -⟩
      · exact hI.wp_abortStream h
      · exact hI.wp_pollWrite h
    · exact hI.wp_pollWrite hreap
  · exact Await.wp_pure.mpr hreap

theorem wp_handleNotification {event : Option ValueNotification}
    (hsome : a.notifications.isSome = true) (h : I log a) :
    Await.wp (handleNotification chrono event) (fun _ log a => I log a) I log a := by
  unfold handleNotification
  cases event with
  | none =>
    refine Await.wp_bind (Await.wp_mono (hI.wp_reconnectStream h) ?_ fun _ _ h => h)
    rintro (e | n) log a h
    · exact hI.wp_abortStream h
    · exact Await.wp_bind (wp_setStats
        (wp_applySubscription (hI.subscribe n (hI.recordReconnect h))))
  | some event =>
    dsimp only
    split
    · exact Await.wp_pure.mpr h
    · exact Await.wp_bind (wp_feedUntil chrono (Await.wp_pure.mpr (hI.feed event.value hsome h)))

/-! ### One-shot requests -/

theorem wp_writeAndWait {payload : List UInt8} {kind : FrameKind} (h : I log a) :
    Await.wp (writeAndWait chrono payload kind)
      (fun r log' a' => I log' a' ∧ Asked kind log r log') I log a := by
  unfold writeAndWait
  refine Await.wp_bind (Await.wp_mono (hI.wp_write h) ?_ fun _ _ h => h)
  rintro (e | _ | _) log' a' ⟨h, obs, rfl, hobs⟩
  · exact Await.wp_pure.mpr ⟨h, .error hobs⟩
  · exact Await.wp_mono (hI.wp_waitForFrame h)
      (fun _ _ _ ⟨h, hasked, _⟩ => ⟨h, hasked.prepend hobs⟩) fun _ _ h => h.1
  · refine Await.wp_bind (Await.wp_mono (hI.wp_relisten h) ?_ fun _ _ h => h)
    rintro (e | _) log' a' ⟨h, obs', rfl, hobs'⟩
    · exact Await.wp_pure.mpr ⟨h, (Asked.error hobs').prepend hobs⟩
    · exact Await.wp_mono (hI.wp_waitForFrame h)
        (fun _ _ _ ⟨h, hasked, _⟩ => ⟨h, (hasked.prepend hobs').prepend hobs⟩) fun _ _ h => h.1

theorem wp_oneshot {payload : List UInt8} {kind : FrameKind} (h : I log a) :
    Await.wp (oneshot chrono payload kind) (fun r log' a' => I log' a' ∧ Asked kind log r log')
      I log a := by
  unfold oneshot
  refine Await.wp_bind (Await.wp_get.mpr ?_)
  split
  · exact hI.wp_writeAndWait h
  · refine Await.wp_bind (Await.wp_mono (hI.wp_relisten h) ?_ fun _ _ h => h)
    rintro (e | _) log' a' ⟨h, obs, rfl, hobs⟩
    · exact Await.wp_pure.mpr ⟨h, .error hobs⟩
    · refine Await.wp_bind (Await.wp_mono (hI.wp_writeAndWait h) ?_ fun _ _ h => h)
      rintro r log' a' ⟨h, hasked⟩
      exact Await.wp_bind (wp_setNotifications (Await.wp_pure.mpr
        ⟨hI.drop h, (hasked.prepend hobs).append (calm_closing a')⟩))

end Steady

namespace Stable

variable {chrono}
variable {I : List Obs → Actor → Prop} (hI : Stable chrono I)
variable {log : List Obs} {a : Actor}

include hI

theorem wp_error {tx : ClientId} {message : String} (h : I log a) :
    Await.wp (sendError tx message) (fun _ log a => I log a) I log a :=
  wp_sendError (hI.reply (by simp) h)

/-- A command on a channel whose request has been begun. -/
theorem wp_command {payload : List UInt8} {tx : ClientId} {pre obs : List Obs} {request : Request}
    (h : I log a) (hlog : log = pre ++ .request tx request :: obs) (hobs : SameRequest obs) :
    Await.wp (command chrono payload tx) (fun _ log a => I log a) I log a := by
  unfold command
  refine Await.wp_bind (Await.wp_mono (hI.wp_oneshot h) ?_ fun _ _ h => h)
  rintro (e | frame) log' a' ⟨h, hasked⟩
  · exact hI.wp_error h
  · obtain ⟨obs', rfl, hobs', hframe⟩ := hasked
    obtain ⟨before, during, after, hw⟩ := hframe frame rfl
    refine wp_reply (fun response hr => ?_) fun message hr => nomatch hr
    cases hr
    refine hI.result ?_ h
    exact ⟨pre, request, obs ++ obs', _, _, _, by simp [hlog], hobs.append hobs', hw.prepend obs⟩

theorem wp_handleSubscribe {tx : ClientId} (h : I log a) :
    Await.wp (handleSubscribe tx) (fun _ log a => I log a) I log a := by
  have hadd : ∀ {log a}, I log a → Await.wp (clientOp (.add tx)) (fun _ log a => I log a) I log a :=
    fun h => wp_clientOp (hI.clients (by simp) h)
  unfold handleSubscribe
  refine Await.wp_bind (Await.wp_get.mpr ?_)
  split
  · refine Await.wp_bind (Await.wp_mono (hI.wp_relisten h) ?_ fun _ _ h => h)
    rintro (e | _) log' a' ⟨h, -⟩
    · exact hI.wp_error h
    · exact hadd h
  · exact hadd h

theorem wp_handle {cmd : ActorCommand} (h : I log a) :
    Await.wp (handle chrono cmd) (fun _ log a => I log a) I log a := by
  have hbegun : I (log ++ cmd.begun) (a.applyOp .reap) := by
    have hreap : I (log ++ [.request cmd.tx cmd.request] ++ [.clients .reap]) (a.applyOp .reap) :=
      hI.clients (by simp) (hI.request cmd.tx cmd.request h)
    rwa [List.append_assoc] at hreap
  refine Btwattch2.wp_handle chrono hbegun (hI.wp_handleSubscribe hbegun)
    (fun _ payload => hI.wp_command hbegun rfl (by simp [SameRequest, Obs.isRequest]))
    (fun _ payload => ?_) fun message => hI.wp_error hbegun
  refine Await.wp_bind (Await.wp_mono (hI.wp_oneshot hbegun) ?_ fun _ _ h => h)
  rintro r log' a' ⟨h, -⟩
  refine wp_reply (fun response hr => hI.reply ?_ h) fun message _ => hI.reply (by simp) h
  -- the reply is a measurement
  cases r with
  | error e => cases hr
  | ok frame =>
    simp only [Except.bind, rtcResponse] at hr
    split at hr <;> cases hr
    simp [Response.fromMeasurement]

/-! ### Events and runs -/

theorem wp_handleEvent {event : Event} (henabled : event.enabled a = true) (h : I log a) :
    Await.wp (handleEvent chrono event) (fun _ log a => I log a) I log a :=
  Btwattch2.wp_handleEvent chrono h (fun acts elapsed => hI.meanwhile acts elapsed h)
    (fun _ _ acts elapsed => hI.wp_handle (hI.meanwhile acts elapsed h))
    (fun _ acts elapsed => hI.wp_pollDevice (hI.meanwhile acts elapsed h))
    fun n hn acts elapsed => by
      subst hn
      exact hI.wp_handleNotification henabled (hI.meanwhile acts elapsed h)

end Stable

theorem enabled_of_step {agent agent' : Agent} {event : Event} {tape : List Answer}
    (hstep : agent.step chrono (event, tape) = some agent') :
    event.enabled agent.actor = true := by
  simp only [Agent.step] at hstep
  split at hstep
  case isFalse => cases hstep
  case isTrue hrun => exact (Bool.and_eq_true_iff.mp hrun).2

/-- What an event's handler ends in, whatever it is answered, and what it is
abandoned in, is where a step of the agent leads. -/
theorem step_of_wp {agent agent' : Agent} {event : Event} {tape : List Answer}
    {Q : Bool → List Obs → Actor → Prop} {E : List Obs → Actor → Prop}
    (h : Await.wp (handleEvent chrono event) Q E agent.log agent.actor)
    (hstep : agent.step chrono (event, tape) = some agent') :
    event.enabled agent.actor = true ∧ agent.running = true ∧
    ((agent'.running = true ∧ Q true agent'.log agent'.actor) ∨
      ∃ log a, agent' = Agent.stop log a ∧ (Q false log a ∨ E log a)) := by
  have hx := h tape
  simp only [Agent.step] at hstep
  split at hstep
  case isFalse => cases hstep
  case isTrue hrun =>
    obtain ⟨hrunning, henabled⟩ := Bool.and_eq_true_iff.mp hrun
    refine ⟨henabled, hrunning, ?_⟩
    revert hx
    split at hstep
    case h_1 heq => cases hstep; rw [heq]; exact fun hx => .inl ⟨rfl, hx⟩
    case h_2 heq => cases hstep; rw [heq]; exact fun hx => .inr ⟨_, _, rfl, .inl hx⟩
    case h_3 heq => cases hstep; rw [heq]; exact fun hx => .inr ⟨_, _, rfl, .inr hx⟩
    case h_4 => cases hstep

variable {chrono}

/-- A stable invariant is kept by every event. -/
theorem Stable.step {I : List Obs → Actor → Prop} (hI : Stable chrono I) {agent agent' : Agent}
    {label : Event × List Answer} (h : I agent.log agent.actor)
    (hstep : agent.step chrono label = some agent') : I agent'.log agent'.actor := by
  obtain ⟨event, tape⟩ := label
  obtain ⟨-, -, ⟨-, hgo⟩ | ⟨log, a, rfl, hstop⟩⟩ := step_of_wp chrono
    (hI.wp_handleEvent (enabled_of_step chrono hstep) h) hstep
  · exact hgo
  · exact hI.clients (by simp) (hstop.elim id id)

/-- A stable invariant that holds at the start holds throughout a run. -/
theorem Stable.run {I : List Obs → Actor → Prop} (hI : Stable chrono I) {agent agent' : Agent}
    {labels : List (Event × List Answer)} (h : I agent.log agent.actor)
    (hrun : Transition.run (Agent.step chrono) agent labels = some agent') :
    I agent'.log agent'.actor := by
  have hkeep : ∀ (s : Agent) label t, I s.log s.actor → s.step chrono label = some t →
      I t.log t.actor := fun _ _ _ h hstep => hI.step h hstep
  exact Transition.run_keeps hkeep h hrun

end Zone

end Btwattch2
