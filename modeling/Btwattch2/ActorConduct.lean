/-
Btwattch2.ActorConduct — what each operation of the actor is told and logs.

Few bounds are needed of what an operation does not do. `Aside` is that it never
waits for a notification and is no part of an exchange with a client; the link, the
ticks and the frames are. All of these but the frames put nothing into the assembler
either (`Still`). A one-shot request waits for notifications (`Mute`), and an answer is
part of an exchange (`Untold`).

What the assembler is given is exactly what the stream brings (`received_step`).
-/
import Btwattch2.ClientsTheorems
import Btwattch2.Lib.Tape
import Btwattch2.SubscriptionTheorems

namespace Btwattch2

open Lib

/-! ## Exchanges -/

/-- What passes between the actor and one client alone. -/
inductive Exchange where
  | asked (request : Request)
  /-- Put on the list of streaming clients. -/
  | added
  | replied (response : Response)
  deriving DecidableEq, Repr

def Obs.exchange : Obs → Option (ClientId × Exchange)
  | .request tx r => some (tx, .asked r)
  | .clients (.add tx) => some (tx, .added)
  | .reply tx response => some (tx, .replied response)
  | _ => none

/-- A value of `C_RX` that the assembler is given. -/
def Obs.heard : Obs → Option (List UInt8)
  | .rx value => some value
  | _ => none

/-- The value of `C_RX` in a notification that is waited for. -/
def Answer.heard : Answer → Option (List UInt8)
  | .next (some n) => if n.uuid = cRx then some n.value else none
  | _ => none

section

variable {σ α : Type}

/-- Told of no notification, no part of an exchange, and nothing to the assembler. -/
abbrev Still (x : Await Answer Obs σ α) : Prop :=
  Await.Confined (fun a => a.asNext = none) (fun o => o.exchange = none ∧ o.heard = none) x

/-- Told of no notification, and no part of an exchange. -/
abbrev Aside (x : Await Answer Obs σ α) : Prop :=
  Await.Confined (fun a => a.asNext = none) (fun o => o.exchange = none) x

/-- No part of an exchange. -/
abbrev Mute (x : Await Answer Obs σ α) : Prop :=
  Await.Confined (fun _ => True) (fun o => o.exchange = none) x

/-- Told of no notification. -/
abbrev Untold (x : Await Answer Obs σ α) : Prop :=
  Await.Confined (fun a => a.asNext = none) (fun _ => True) x

theorem Still.aside {x : Await Answer Obs σ α} (h : Still x) : Aside x :=
  h.mono (fun _ h => h) fun _ h => h.1

theorem Aside.mute {x : Await Answer Obs σ α} (h : Aside x) : Mute x :=
  h.mono (fun _ _ => trivial) fun _ h => h

theorem Aside.untold {x : Await Answer Obs σ α} (h : Aside x) : Untold x :=
  h.mono (fun _ h => h) fun _ _ => trivial

theorem Still.mute {x : Await Answer Obs σ α} (h : Still x) : Mute x := h.aside.mute

theorem Still.untold {x : Await Answer Obs σ α} (h : Still x) : Untold x := h.aside.untold

end

/-- An answer of another kind is not the next notification. -/
theorem Answer.asNext_eq_none {a : Answer} (hnext : ∀ event, a ≠ .next event)
    (htimeout : a ≠ .timeout) : a.asNext = none := by
  cases a with
  | next event => exact absurd rfl (hnext event)
  | timeout => exact absurd rfl htimeout
  | _ => rfl

theorem still_meanwhile : Still meanwhile := by
  refine Await.confined_bind (Await.confined_await fun a x h => ?_) fun _ =>
    Await.confined_bind (Await.confined_modify _) fun _ => Await.confined_observe ⟨rfl, rfl⟩
  exact Answer.asNext_eq_none (by rintro event rfl; cases h) (by rintro rfl; cases h)

/-! ## The link -/

namespace Connection

theorem still_attempt : Still (Await.await Answer.asAttempt : Await Answer Obs Connection _) :=
  Await.confined_await fun a x h =>
    Answer.asNext_eq_none (by rintro event rfl; cases h) (by rintro rfl; cases h)

theorem still_deviceWrite :
    Still (Await.await Answer.asDeviceWrite : Await Answer Obs Connection _) :=
  Await.confined_await fun a x h =>
    Answer.asNext_eq_none (by rintro event rfl; cases h) (by rintro rfl; cases h)

theorem still_subscribe : Still (Await.await Answer.asSubscribe : Await Answer Obs Connection _) :=
  Await.confined_await fun a x h =>
    Answer.asNext_eq_none (by rintro event rfl; cases h) (by rintro rfl; cases h)

theorem still_establishLoop (left : Nat) : Still (establishLoop left) := by
  induction left with
  | zero =>
    unfold establishLoop
    refine Await.confined_bind still_attempt fun result => ?_
    cases result <;> exact Await.confined_pure _
  | succ left ih =>
    unfold establishLoop
    refine Await.confined_bind still_attempt fun result => ?_
    cases result with
    | ok chars => exact Await.confined_pure _
    | error e => exact ih

theorem still_establish : Still establish := by
  refine Await.confined_bind (still_establishLoop _) fun result => ?_
  cases result with
  | error e => exact Await.confined_pure _
  | ok chars =>
    dsimp only
    split
    · exact Await.confined_pure _
    · split <;> exact Await.confined_pure _

theorem still_connect : Still connect := by
  refine Await.confined_bind still_establish fun result => ?_
  cases result with
  | error e => exact Await.confined_pure _
  | ok _ =>
    exact Await.confined_bind (Await.confined_modify _) fun _ =>
      Await.confined_bind (Await.confined_observe ⟨rfl, rfl⟩) fun _ => Await.confined_pure _

theorem still_listen : Still listen := by
  refine Await.confined_bind still_subscribe fun result => ?_
  cases result with
  | error e =>
    exact Await.confined_bind (Await.confined_observe ⟨rfl, rfl⟩) fun _ => Await.confined_pure _
  | ok _ =>
    exact Await.confined_bind (Await.confined_observe ⟨rfl, rfl⟩) fun _ =>
      Await.confined_bind Await.confined_get fun _ => Await.confined_pure _

theorem still_reconnectStream : Still reconnectStream := by
  refine Await.confined_bind still_connect fun result => ?_
  cases result with
  | error e =>
    exact Await.confined_bind (Await.confined_observe ⟨rfl, rfl⟩) fun _ => Await.confined_pure _
  | ok _ =>
    refine Await.confined_bind still_listen fun result => ?_
    cases result <;>
      exact Await.confined_bind (Await.confined_observe ⟨rfl, rfl⟩) fun _ => Await.confined_pure _

theorem still_writeLoop (payload : List UInt8) (left : Nat) :
    ∀ reconnected, Still (writeLoop payload reconnected left) := by
  induction left with
  | zero =>
    intro reconnected
    unfold writeLoop
    refine Await.confined_bind still_deviceWrite fun result => ?_
    cases result <;>
      exact Await.confined_bind (Await.confined_observe ⟨rfl, rfl⟩) fun _ =>
        Await.confined_bind (Await.confined_observe ⟨rfl, rfl⟩) fun _ => Await.confined_pure _
  | succ left ih =>
    intro reconnected
    unfold writeLoop
    refine Await.confined_bind still_deviceWrite fun result => ?_
    cases result with
    | ok _ =>
      exact Await.confined_bind (Await.confined_observe ⟨rfl, rfl⟩) fun _ =>
        Await.confined_bind (Await.confined_observe ⟨rfl, rfl⟩) fun _ => Await.confined_pure _
    | error e =>
      refine Await.confined_bind (Await.confined_observe ⟨rfl, rfl⟩) fun _ =>
        Await.confined_bind still_connect fun result => ?_
      cases result <;> exact ih _

theorem still_write (payload : List UInt8) : Still (write payload) := still_writeLoop payload _ _

end Connection

/-! ## Ticks, notifications and the subscription -/

theorem still_onLink {α : Type} {x : Await Answer Obs Connection α} (hx : Still x) :
    Still (onLink x) :=
  Await.confined_bind still_meanwhile fun _ => Await.confined_zoom hx

theorem still_clientOp {op : ClientOp} (hop : op.added = none) : Still (clientOp op) := by
  refine Await.confined_bind (Await.confined_modify _) fun _ => Await.confined_observe ?_
  cases op <;> first | exact ⟨rfl, rfl⟩ | cases hop

theorem still_setNotifications (n : Option Notifications) : Still (setNotifications n) := by
  refine Await.confined_bind Await.confined_get fun a => ?_
  split
  · exact Await.confined_bind (Await.confined_observe ⟨rfl, rfl⟩) fun _ => Await.confined_modify _
  · exact Await.confined_modify _

theorem still_applySubscription (n : Notifications) : Still (applySubscription n) :=
  Await.confined_bind (still_setNotifications _) fun _ =>
    Await.confined_bind (Await.confined_modify _) fun _ => Await.confined_observe ⟨rfl, rfl⟩

theorem still_relisten : Still relisten := by
  refine Await.confined_bind (still_onLink Connection.still_listen) fun result => ?_
  cases result with
  | error e => exact Await.confined_bind (still_setNotifications _) fun _ => Await.confined_pure _
  | ok n => exact Await.confined_bind (still_applySubscription n) fun _ => Await.confined_pure _

theorem still_abortStream (reason : StreamError) : Still (abortStream reason) :=
  Await.confined_bind (still_setNotifications _) fun _ =>
    Await.confined_bind (Await.confined_modify _) fun _ => still_clientOp rfl

/-- A write that had to reconnect subscribes again. -/
theorem still_reconnected (update : AgentStats → AgentStats) : Still (do
    setStats update
    match ← relisten with
    | .error e => abortStream e
    | .ok () => pure ()) := by
  refine Await.confined_bind (Await.confined_modify _) fun _ =>
    Await.confined_bind still_relisten fun result => ?_
  cases result with
  | error e => exact still_abortStream e
  | ok _ => exact Await.confined_pure _

theorem still_pollWrite : Still pollWrite := by
  refine Await.confined_bind Await.confined_get fun a =>
    Await.confined_bind (still_onLink (Connection.still_write _)) fun result => ?_
  obtain e | _ | _ := result
  · exact still_abortStream _
  · exact Await.confined_pure _
  · exact still_reconnected _

theorem still_pollDevice : Still pollDevice := by
  refine Await.confined_bind (still_clientOp rfl) fun _ =>
    Await.confined_bind Await.confined_get fun a => ?_
  split
  · split
    · refine Await.confined_bind still_relisten fun result => ?_
      cases result with
      | error e => exact still_abortStream e
      | ok _ => exact still_pollWrite
    · exact still_pollWrite
  · exact Await.confined_pure _

section Zone

variable (chrono : Chrono)

theorem still_forwardAll (taker : Taker) (frames : List (List UInt8)) :
    Still (forwardAll chrono taker frames) := by
  induction frames with
  | nil => exact Await.confined_pure _
  | cons frame frames ih =>
    refine Await.confined_bind (Await.confined_observe ⟨rfl, rfl⟩) fun _ =>
      Await.confined_bind ?_ fun _ => ih
    unfold forward
    split
    · exact Await.confined_pure _
    · exact Await.confined_bind Await.confined_get fun _ =>
        Await.confined_bind (Await.confined_modify _) fun _ => still_clientOp rfl

theorem aside_feedUntil (stop : List UInt8 → Bool) (taker : Taker) (value : List UInt8) :
    Aside (feedUntil chrono stop taker value) :=
  Await.confined_bind (Await.confined_observe rfl) fun _ =>
    Await.confined_bind Await.confined_get fun _ =>
      Await.confined_bind (Await.confined_modify _) fun _ =>
        Await.confined_bind (still_forwardAll chrono taker _).aside fun _ => Await.confined_pure _

/-- The stream ended. -/
theorem still_handleNotification_none : Still (handleNotification chrono none) := by
  refine Await.confined_bind (still_onLink Connection.still_reconnectStream) fun result => ?_
  cases result with
  | error e => exact still_abortStream _
  | ok n => exact Await.confined_bind (Await.confined_modify _) fun _ => still_applySubscription n

theorem aside_handleNotification (event : Option ValueNotification) :
    Aside (handleNotification chrono event) := by
  cases event with
  | none => exact (still_handleNotification_none chrono).aside
  | some event =>
    unfold handleNotification
    dsimp only
    split
    · exact Await.confined_pure _
    · exact Await.confined_bind (aside_feedUntil chrono _ _ _) fun _ => Await.confined_pure _

/-! ## One-shot requests -/

theorem mute_nextMatchingFrame (kind : FrameKind) : Mute (nextMatchingFrame chrono kind) := by
  refine Await.confined_loop (Await.confined_bind still_meanwhile.mute fun _ =>
    Await.confined_bind (Await.confined_await fun _ _ _ => trivial) fun event => ?_)
  obtain _ | _ | event := event
  · exact Await.confined_pure _
  · exact Await.confined_pure _
  · dsimp only
    split
    · exact Await.confined_pure _
    · refine Await.confined_bind (aside_feedUntil chrono _ _ _).mute fun frame => ?_
      cases frame with
      | none => exact Await.confined_pure _
      | some frame =>
        exact Await.confined_bind (Await.confined_observe rfl) fun _ => Await.confined_pure _

theorem mute_waitForFrame (kind : FrameKind) : Mute (waitForFrame chrono kind) := by
  refine Await.confined_bind Await.confined_get fun a => ?_
  split
  · exact Await.confined_pure _
  · refine Await.confined_bind (Await.confined_observe rfl) fun _ =>
      Await.confined_bind (mute_nextMatchingFrame chrono kind) fun waited => ?_
    cases waited <;> exact Await.confined_pure _

theorem mute_writeAndWait (payload : List UInt8) (kind : FrameKind) :
    Mute (writeAndWait chrono payload kind) := by
  refine Await.confined_bind (still_onLink (Connection.still_write _)).mute fun result => ?_
  obtain e | _ | _ := result
  · exact Await.confined_pure _
  · exact mute_waitForFrame chrono kind
  · refine Await.confined_bind still_relisten.mute fun result => ?_
    cases result with
    | error e => exact Await.confined_pure _
    | ok _ => exact mute_waitForFrame chrono kind

theorem mute_oneshot (payload : List UInt8) (kind : FrameKind) :
    Mute (oneshot chrono payload kind) := by
  refine Await.confined_bind Await.confined_get fun a => ?_
  split
  · exact mute_writeAndWait chrono payload kind
  · refine Await.confined_bind still_relisten.mute fun result => ?_
    cases result with
    | error e => exact Await.confined_pure _
    | ok _ =>
      exact Await.confined_bind (mute_writeAndWait chrono payload kind) fun _ =>
        Await.confined_bind (still_setNotifications none).mute fun _ => Await.confined_pure _

/-! ## Answers -/

theorem untold_reply (tx : ClientId) (result : Except StreamError Response) :
    Untold (reply tx result) :=
  Await.confined_bind (Await.confined_modify _) fun _ => Await.confined_observe trivial

theorem untold_handleSubscribe (tx : ClientId) : Untold (handleSubscribe tx) := by
  have hadd : Untold (clientOp (.add tx)) :=
    Await.confined_bind (Await.confined_modify _) fun _ => Await.confined_observe trivial
  refine Await.confined_bind Await.confined_get fun a => ?_
  split
  · refine Await.confined_bind still_relisten.untold fun result => ?_
    cases result with
    | error e => exact untold_reply _ _
    | ok _ => exact hadd
  · exact hadd

/-- Only a one-shot request waits for the next notification itself. -/
theorem untold_handleEvent {event : Event} (h : event.isOneshot = false) :
    Untold (handleEvent chrono event) := by
  refine Await.confined_bind still_meanwhile.untold fun _ => ?_
  match event with
  | .shutdown => exact Await.confined_pure _
  | .command none => exact Await.confined_pure _
  | .tick => exact Await.confined_bind still_pollDevice.untold fun _ => Await.confined_pure _
  | .notification event =>
    exact Await.confined_bind (aside_handleNotification chrono event).untold fun _ =>
      Await.confined_pure _
  | .command (some ⟨request, tx⟩) =>
    refine Await.confined_bind (Await.confined_bind (Await.confined_observe trivial) fun _ =>
      Await.confined_bind (still_clientOp rfl).untold fun _ => ?_) fun _ => Await.confined_pure _
    cases request with
    | ping => exact Await.confined_pure _
    | shutdown => exact Await.confined_pure _
    | subscribe => exact untold_handleSubscribe tx
    | getRtc => cases h
    | power on => cases h
    | testLed => cases h
    | setRtc time => cases h

end Zone

end Btwattch2
