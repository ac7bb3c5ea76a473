/-
Btwattch2.SessionTheorems — what a session leaves behind, and what it never does.

A monitor follows the calls of the Bluetooth stack. Each step of setting a link up,
using it and dropping it is given by what it does to the monitor, so that the law of
the calls holds throughout every session, also of one that is cut short
(`session_orderly`).
-/
import Btwattch2.Bluetooth

namespace Btwattch2.Bluetooth

open Lib Lib.Await

variable {σ : Type}

/-! ## The monitor -/

/-- The scan that the adapter was last asked for. -/
inductive ScanState where
  | off
  | on
  /-- It was to be stopped, and that failed. -/
  | unstopped
  deriving DecidableEq

/-- What is known of the adapter and the link from the calls that were answered. -/
structure Watch where
  scan : ScanState := .off
  /-- The link may be up. -/
  up : Bool := false
  /-- The last attempt to connect failed, and it was not tried to drop the link since. -/
  suspect : Bool := false
  /-- The link was found up, and not touched since. -/
  confirmed : Bool := false
  /-- Since the last attempt to connect, looking at the link or dropping it failed. -/
  stuck : Bool := false
  /-- The services of the link lacked a characteristic. -/
  lacking : Bool := false
  /-- The characteristics found last. -/
  chosen : Option (Characteristic × Characteristic) := none
  /-- The devices that have said a name. -/
  named : List BDAddr := []
  deriving DecidableEq

def Watch.step (w : Watch) : Call → Watch
  | .startScan (.ok ()) => { w with scan := .on }
  | .stopScan (.ok ()) => { w with scan := .off }
  | .stopScan (.error _) => { w with scan := .unstopped }
  | .properties device (.ok (some props)) =>
    if props.localName.isSome then { w with named := device :: w.named } else w
  | .connect (.ok ()) =>
    { w with up := true, confirmed := false, stuck := false, lacking := false }
  | .connect (.error _) =>
    { w with up := true, confirmed := false, stuck := false, lacking := false, suspect := true }
  | .discoverServices (.error _) => { w with suspect := true }
  | .isConnected (.ok true) => { w with confirmed := true }
  | .isConnected (.ok false) => { w with up := false, suspect := false, confirmed := false }
  -- taken for a link that is down, and left
  | .isConnected (.error _) => { w with stuck := true, suspect := false, confirmed := false }
  | .disconnect (.ok ()) => { w with up := false, suspect := false, confirmed := false }
  | .disconnect (.error _) => { w with stuck := true, suspect := false, confirmed := false }
  | .characteristics found =>
    match chooseCharacteristics found with
    | .ok pair => { w with chosen := some pair, lacking := false }
    | .error _ => { w with lacking := true }
  | _ => w

/-- What a call may rely on. -/
def Watch.Allows (w : Watch) : Call → Prop
  -- a scan is started once and stopped once
  | .startScan _ => w.scan = .off
  | .stopScan _ => w.scan = .on
  -- a device that has said its name is left alone
  | .properties device _ => device ∉ w.named
  -- never on top of a failed attempt, and not while scanning
  | .connect _ => w.scan ≠ .on ∧ w.suspect = false
  -- only a link that is actually established
  | .disconnect _ => w.confirmed = true
  -- the characteristics of the present link, written as they say
  | .subscribe rx _ => ∃ tx, w.chosen = some (tx, rx)
  | .write tx _ kind _ => (∃ rx, w.chosen = some (tx, rx)) ∧ kind = writeType tx
  | _ => True

def watch (calls : List Call) : Watch := calls.foldl Watch.step {}

/-- Throughout, no call was made that was not allowed. -/
def Orderly (calls : List Call) : Prop := Obeys Watch.step Watch.Allows {} calls

/-- The calls were orderly, and left the monitor here. -/
abbrev Left (w : Watch) (calls : List Call) : Prop := Seen Watch.step Watch.Allows {} w calls

variable {log : List Call} {s : σ} {w : Watch}

/-- What holds of a computation that is cut short: its calls were orderly. -/
abbrev Runs {α : Type} (x : Stack σ α) (Q : α → List Call → σ → Prop) (log : List Call) (s : σ) :
    Prop :=
  wp x Q (fun log _ => Orderly log) log s

/-! ## Scanning -/

/-- A call that the monitor takes no notice of. -/
theorem runs_quiet {α : Type} {take : Answer → Option α} {made : α → Call}
    (h : Left w log) (hquiet : ∀ a, w.step (made a) = w ∧ w.Allows (made a)) :
    Runs (Await.call take made : Stack σ α) (fun _ log _ => Left w log) log s := by
  refine wp_call_seen h (fun a => (hquiet a).2) fun a log hlog => ?_
  rw [(hquiet a).1] at hlog
  exact hlog

theorem runs_sleep (nanos : Nat) (h : Left w log) :
    Runs (sleep nanos : Stack σ Unit) (fun _ log _ => Left w log) log s :=
  wp_seq (runs_quiet h fun _ => ⟨rfl, trivial⟩) fun _ _ _ h => wp_pure.mpr h

theorem runs_findAmong {name : String} (adapters : List Nat) (h : Left w log) :
    Runs (findAmong name adapters : Stack σ _) (fun _ log _ => Left w log) log s := by
  induction adapters generalizing log s with
  | nil => exact wp_pure.mpr h
  | cons adapter rest ih =>
    refine wp_seq (runs_quiet h fun _ => ⟨rfl, trivial⟩) fun info log s h => ?_
    cases info with
    | error e => exact ih h
    | ok info =>
      dsimp only
      split
      · exact wp_pure.mpr h
      · exact ih h

theorem runs_findAdapter {name : String} (h : Left w log) :
    Runs (findAdapter name : Stack σ _) (fun _ log _ => Left w log) log s := by
  refine wp_seq (runs_quiet h fun _ => ⟨rfl, trivial⟩) fun adapters log s h => ?_
  cases adapters with
  | error e => exact wp_pure.mpr h
  | ok adapters => exact runs_findAmong adapters h

theorem runs_lookup {addr : BDAddr} (h : Left w log) :
    Runs (lookup addr : Stack σ _) (fun _ log _ => Left w log) log s := by
  refine wp_seq (runs_quiet h fun _ => ⟨rfl, trivial⟩) fun devices log s h => ?_
  cases devices <;> exact wp_pure.mpr h

theorem runs_awaitDevice {addr : BDAddr} (h : Left w log) :
    Runs (awaitDevice addr : Stack σ _) (fun _ log _ => Left w log) log s := by
  refine wp_seq (runs_quiet h fun _ => ⟨rfl, trivial⟩) fun start log s h => ?_
  refine wp_loop (I := fun log _ => Left w log) h (fun _ _ h => h.1) fun log s h => ?_
  refine wp_seq (runs_lookup h) fun device log s h => ?_
  match device with
  | .error e => exact wp_pure.mpr h
  | .ok (some device) => exact wp_pure.mpr h
  | .ok none =>
    refine wp_seq (runs_quiet h fun _ => ⟨rfl, trivial⟩) fun now log s h => ?_
    split
    · exact wp_pure.mpr h
    · exact wp_seq (runs_sleep _ h) fun _ _ _ h => wp_pure.mpr h

/-- Whatever the body does, the scan is stopped, or could not be. -/
theorem runs_whileScanning {α : Type} {body : Stack σ (Except String α)} (hidle : w.scan = .off)
    (h : Left w log) (hbody : ∀ log s, Left { w with scan := .on } log →
      Runs body (fun _ log _ => Left { w with scan := .on } log) log s) :
    Runs (whileScanning body) (fun _ log _ => ∃ scan, scan ≠ .on ∧ Left { w with scan } log)
      log s := by
  refine wp_bind (wp_call_seen h (fun _ => hidle) fun started log hlog => ?_)
  match started with
  | .error e => exact wp_pure.mpr ⟨w.scan, by simp [hidle], hlog⟩
  | .ok () =>
    refine wp_seq (hbody log s hlog) fun result log s hlog => ?_
    refine wp_bind (wp_call_seen hlog (fun _ => rfl) fun stopped log hlog => wp_pure.mpr ?_)
    match stopped with
    | .ok () => exact ⟨.off, by simp, hlog⟩
    | .error e => exact ⟨.unstopped, by simp, hlog⟩

/-- Finding a device leaves all but the scan as it was. -/
theorem runs_findDevice {addr : BDAddr} (hidle : w.scan = .off) (h : Left w log) :
    Runs (findDevice addr : Stack σ _) (fun _ log _ => ∃ scan, scan ≠ .on ∧
      Left { w with scan } log) log s := by
  have hsame : ∀ {log : List Call}, Left w log → ∃ scan, scan ≠ .on ∧ Left { w with scan } log :=
    fun h => ⟨w.scan, by simp [hidle], h⟩
  refine wp_seq (runs_lookup h) fun device log s h => ?_
  match device with
  | .error e => exact wp_pure.mpr (hsame h)
  | .ok (some device) => exact wp_pure.mpr (hsame h)
  | .ok none => exact runs_whileScanning hidle h fun _ _ h => runs_awaitDevice h

/-! ## The link -/

/-- Neither scanning nor left with a failed attempt. -/
structure Watch.Settled (w : Watch) : Prop where
  scan : w.scan ≠ .on
  suspect : w.suspect = false

/-- The monitor with a link that may be up only if dropping it failed. -/
def Watch.Dropped (w w' : Watch) : Prop :=
  ∃ up stuck, (up = true → stuck = true) ∧
    w' = { w with up, stuck, suspect := false, confirmed := false }

/-- The link is down, but for a call that failed. -/
theorem runs_dropConnection (h : Left w log) :
    Runs (dropConnection : Stack σ _) (fun _ log _ => ∃ w', w.Dropped w' ∧ Left w' log) log s := by
  refine wp_bind (wp_call_seen h (fun _ => trivial) fun connected log h => ?_)
  match connected with
  | .ok true =>
    refine wp_bind (wp_call_seen h (fun _ => rfl) fun dropped log h => wp_pure.mpr ?_)
    match dropped with
    | .ok () => exact ⟨_, ⟨false, w.stuck, nofun, rfl⟩, h⟩
    | .error e => exact ⟨_, ⟨w.up, true, fun _ => rfl, rfl⟩, h⟩
  | .ok false => exact wp_pure.mpr ⟨_, ⟨false, w.stuck, nofun, rfl⟩, h⟩
  | .error e => exact wp_pure.mpr ⟨_, ⟨w.up, true, fun _ => rfl, rfl⟩, h⟩

/-- The monitor after an attempt. -/
def Watch.attempted (w : Watch) (ok : Bool) : Watch :=
  { w with up := true, confirmed := false, stuck := false, lacking := false, suspect := !ok }

/-- An attempt that fails leaves the link to be looked at. -/
theorem runs_attempt (hw : w.Settled) (h : Left w log) :
    Runs (attempt : Stack σ _) (fun result log _ => Left (w.attempted result.isOk) log) log s := by
  refine wp_bind (wp_call_seen h (fun _ => ⟨hw.scan, hw.suspect⟩) fun connected log h => ?_)
  match connected with
  | .error e => exact wp_pure.mpr h
  | .ok () =>
    refine wp_call_seen h (fun _ => trivial) fun services log h => ?_
    match services with
    | .error e => exact h
    | .ok () =>
      have hsuspect : w.attempted true =
          { w with up := true, confirmed := false, stuck := false, lacking := false } := by
        simp [Watch.attempted, hw.suspect]
      show Left (w.attempted true) log
      rw [hsuspect]
      exact h

/-- What the attempts leave: a link, or one that may be up only if dropping it failed. -/
structure Watch.Attempted (w w' : Watch) (result : Except String Unit) : Prop where
  settled : w'.Settled
  chosen : w'.chosen = w.chosen
  up : result.isOk = false → w'.up = true → w'.stuck = true

theorem Watch.Settled.attempted (hw : w.Settled) :
    w.Attempted (w.attempted true) (.ok ()) :=
  ⟨⟨hw.scan, rfl⟩, rfl, nofun⟩

theorem Watch.Settled.dropped {w' : Watch} (hw : w.Settled)
    (hdropped : (w.attempted false).Dropped w') (e : String) : w.Attempted w' (.error e) := by
  obtain ⟨up, stuck, hup, rfl⟩ := hdropped
  exact ⟨⟨hw.scan, rfl⟩, rfl, fun _ => hup⟩

/-- After every attempt that fails it is tried to drop the link, before the next. -/
theorem runs_establishLoop (left : Nat) (hw : w.Settled) (h : Left w log) :
    Runs (establishLoop left : Stack σ _)
      (fun result log _ => ∃ w', w.Attempted w' result ∧ Left w' log) log s := by
  induction left generalizing w log s with
  | zero =>
    unfold establishLoop
    refine wp_seq (runs_attempt hw h) fun result log s h => ?_
    match result with
    | .ok () => exact wp_pure.mpr ⟨_, hw.attempted, h⟩
    | .error e =>
      refine wp_seq (runs_dropConnection h) fun _ log s h => wp_pure.mpr ?_
      obtain ⟨w', hdropped, h⟩ := h
      exact ⟨w', hw.dropped hdropped _, h⟩
  | succ left ih =>
    unfold establishLoop
    refine wp_seq (runs_attempt hw h) fun result log s h => ?_
    match result with
    | .ok () => exact wp_pure.mpr ⟨_, hw.attempted, h⟩
    | .error e =>
      refine wp_seq (runs_dropConnection h) fun _ log s h => ?_
      obtain ⟨w', hdropped, h⟩ := h
      have hfailed := hw.dropped hdropped e
      refine wp_seq (runs_sleep _ h) fun _ log s h => ?_
      refine wp_mono (ih hfailed.settled h) (fun result log _ h => ?_) fun _ _ h => h
      obtain ⟨w'', hattempted, h⟩ := h
      exact ⟨w'', ⟨hattempted.settled, hattempted.chosen.trans hfailed.chosen, hattempted.up⟩, h⟩

/-- What `establish` leaves: the characteristics it found or those from before, and
a link only if one of them was lacking or dropping it failed. -/
structure Watch.Established (w w' : Watch)
    (result : Except String (Characteristic × Characteristic)) : Prop where
  settled : w'.Settled
  chosen : w'.chosen = result.toOption.or w.chosen
  up : result.isOk = false → w'.up = true → w'.lacking = true ∨ w'.stuck = true

theorem runs_establish (hw : w.Settled) (h : Left w log) :
    Runs (establish : Stack σ _) (fun result log _ => ∃ w', w.Established w' result ∧ Left w' log)
      log s := by
  refine wp_seq (runs_establishLoop _ hw h) fun result log s h => ?_
  obtain ⟨w', hattempted, h⟩ := h
  obtain ⟨hscan, hsuspect⟩ := hattempted.settled
  match result with
  | .error e =>
    have hw' : w.Established w' (.error e) :=
      ⟨⟨hscan, hsuspect⟩, hattempted.chosen, fun _ hup => .inr (hattempted.up rfl hup)⟩
    exact wp_pure.mpr ⟨w', hw', h⟩
  | .ok () =>
    refine wp_bind (wp_call_seen h (fun _ => trivial) fun found log h => wp_pure.mpr ?_)
    refine ⟨_, ?_, h⟩
    unfold Watch.step
    dsimp only
    cases hchoose : chooseCharacteristics found with
    | error e => exact ⟨⟨hscan, hsuspect⟩, hattempted.chosen, fun _ _ => .inl rfl⟩
    | ok pair => exact ⟨⟨hscan, hsuspect⟩, rfl, fun hok => nomatch hok⟩

theorem stateless_sleep (nanos : Nat) : Stateless (sleep nanos : Stack σ Unit) :=
  stateless_bind stateless_call fun _ => stateless_pure ()

theorem stateless_dropConnection : Stateless (dropConnection : Stack σ Unit) := by
  refine stateless_bind stateless_call fun connected => ?_
  match connected with
  | .ok true => exact stateless_bind stateless_call fun _ => stateless_pure ()
  | .ok false => exact stateless_pure ()
  | .error e => exact stateless_pure ()

theorem stateless_attempt : Stateless (attempt : Stack σ (Except String Unit)) := by
  refine stateless_bind stateless_call fun connected => ?_
  match connected with
  | .error e => exact stateless_pure _
  | .ok () => exact stateless_call

theorem stateless_establishLoop (left : Nat) :
    Stateless (establishLoop left : Stack σ (Except String Unit)) := by
  induction left with
  | zero =>
    unfold establishLoop
    refine stateless_bind stateless_attempt fun result => ?_
    match result with
    | .ok () => exact stateless_pure _
    | .error e => exact stateless_bind stateless_dropConnection fun _ => stateless_pure _
  | succ left ih =>
    unfold establishLoop
    refine stateless_bind stateless_attempt fun result => ?_
    match result with
    | .ok () => exact stateless_pure _
    | .error e =>
      exact stateless_bind stateless_dropConnection fun _ =>
        stateless_bind (stateless_sleep _) fun _ => ih

theorem stateless_establish : Stateless (establish : Stack σ _) := by
  refine stateless_bind (stateless_establishLoop _) fun result => ?_
  match result with
  | .error e => exact stateless_pure _
  | .ok () => exact stateless_bind stateless_call fun _ => stateless_pure _

/-! ## A session -/

/-- Between two operations of a connection: it is written on and listened to with the
characteristics found last. -/
def Resting (log : List Call) (link : Link) : Prop :=
  ∃ w : Watch, w.Settled ∧ w.chosen = some (link.tx, link.rx) ∧ Left w log

theorem Resting.orderly {link : Link} (h : Resting log link) : Orderly log := by
  obtain ⟨w, -, -, h⟩ := h
  exact h.1

variable {link : Link}

theorem runs_connect (h : Resting log link) : Runs connect (fun _ => Resting) log link := by
  obtain ⟨w, hw, hchosen, h⟩ := h
  refine wp_seq (wp_stateless stateless_establish (runs_establish hw h)) ?_
  intro result log link' h
  obtain ⟨rfl, w', hestablished, h⟩ := h
  match result with
  | .error e =>
    exact wp_pure.mpr ⟨w', hestablished.settled, hestablished.chosen.trans hchosen, h⟩
  | .ok (tx, rx) =>
    refine wp_bind (wp_modify.mpr (wp_pure.mpr ?_))
    exact ⟨w', hestablished.settled, hestablished.chosen, h⟩

theorem runs_listen (h : Resting log link) : Runs listen (fun _ => Resting) log link := by
  obtain ⟨w, hw, hchosen, h⟩ := h
  refine wp_bind (wp_get.mpr (wp_bind (wp_call_seen h (fun _ => ⟨_, hchosen⟩) ?_)))
  intro subscribed log h
  match subscribed with
  | .error e => exact wp_pure.mpr ⟨w, hw, hchosen, h⟩
  | .ok () => exact wp_call_seen h (fun _ => trivial) fun _ log h => ⟨w, hw, hchosen, h⟩

theorem runs_reconnectStream (h : Resting log link) :
    Runs reconnectStream (fun _ => Resting) log link := by
  refine wp_seq (runs_connect h) fun connected log link h => ?_
  match connected with
  | .error e => exact wp_pure.mpr h
  | .ok () => exact runs_listen h

/-- Every attempt of a write is made on the link as it is by then. -/
theorem runs_writeLoop {payload : List UInt8} (reconnected : Bool) (left : Nat)
    (h : Resting log link) :
    Runs (writeLoop payload reconnected left) (fun _ => Resting) log link := by
  induction left generalizing reconnected log link with
  | zero =>
    obtain ⟨w, hw, hchosen, h⟩ := h
    unfold writeLoop
    refine wp_bind (wp_get.mpr (wp_bind (wp_call_seen h (fun _ => ⟨⟨_, hchosen⟩, rfl⟩) ?_)))
    intro written log h
    cases written <;> exact wp_pure.mpr ⟨w, hw, hchosen, h⟩
  | succ left ih =>
    obtain ⟨w, hw, hchosen, h⟩ := h
    unfold writeLoop
    refine wp_bind (wp_get.mpr (wp_bind (wp_call_seen h (fun _ => ⟨⟨_, hchosen⟩, rfl⟩) ?_)))
    intro written log h
    have hrest : Resting log link := ⟨w, hw, hchosen, h⟩
    match written with
    | .ok () => exact wp_pure.mpr hrest
    | .error e =>
      refine wp_seq (runs_connect hrest) fun connected log link hrest => ?_
      match connected with
      | .ok () => exact ih true hrest
      | .error e =>
        obtain ⟨w, hw, hchosen, h⟩ := hrest
        refine wp_seq (wp_stateless (stateless_sleep _) (runs_sleep _ h)) fun _ log link' h => ?_
        obtain ⟨rfl, h⟩ := h
        exact ih reconnected ⟨w, hw, hchosen, h⟩

theorem runs_perform (op : Operation) (h : Resting log link) :
    Runs op.perform (fun _ => Resting) log link := by
  cases op with
  | write payload =>
    exact wp_seq (runs_writeLoop false _ h) fun _ _ _ h => wp_pure.mpr h
  | listen => exact wp_seq (runs_listen h) fun _ _ _ h => wp_pure.mpr h
  | reconnectStream => exact wp_seq (runs_reconnectStream h) fun _ _ _ h => wp_pure.mpr h

theorem runs_performAll (ops : List Operation) (h : Resting log link) :
    Runs (performAll ops) (fun _ => Resting) log link := by
  induction ops generalizing log link with
  | nil => exact wp_pure.mpr h
  | cons op ops ih => exact wp_seq (runs_perform op h) fun _ _ _ h => ih h

/-- How `new` comes out: a link that rests, or nothing that is left on. -/
def NewLeaves (opts : ConnectionConfig) (log : List Call) : Except String Link → Prop
  | .ok link => Resting log link ∧ link.addr = opts.addr ∧ link.interval = opts.interval
  | .error _ => ∃ w : Watch, w.Settled ∧ (w.up = true → w.lacking = true ∨ w.stuck = true) ∧
    Left w log

theorem runs_new (opts : ConnectionConfig) :
    Runs (new opts : Stack σ _) (fun result log _ => NewLeaves opts log result) [] s := by
  have hfresh : ∀ {log : List Call} {e : String} (scan : ScanState), scan ≠ .on →
      Left { scan } log → NewLeaves opts log (.error e) :=
    fun scan hscan h => ⟨{ scan }, ⟨hscan, rfl⟩, fun hup => absurd hup Bool.false_ne_true, h⟩
  refine wp_seq (runs_quiet seen_nil fun _ => ⟨rfl, trivial⟩) fun manager log s h => ?_
  match manager with
  | .error e => exact wp_pure.mpr (hfresh .off (by simp) h)
  | .ok () =>
    refine wp_seq (runs_findAdapter h) fun adapter log s h => ?_
    match adapter with
    | .error e => exact wp_pure.mpr (hfresh .off (by simp) h)
    | .ok adapter =>
      refine wp_seq (runs_findDevice rfl h) fun device log s h => ?_
      obtain ⟨scan, hscan, h⟩ := h
      match device with
      | .error e => exact wp_pure.mpr (hfresh scan hscan h)
      | .ok device =>
        refine wp_seq (runs_establish ⟨hscan, rfl⟩ h) fun result log s h => ?_
        obtain ⟨w, hestablished, h⟩ := h
        match result with
        | .error e =>
          exact wp_pure.mpr ⟨w, hestablished.settled, hestablished.up rfl, h⟩
        | .ok (tx, rx) =>
          exact wp_pure.mpr ⟨⟨w, hestablished.settled, hestablished.chosen, h⟩, rfl, rfl⟩

/-- What a session that ran to its end leaves: a scan only if stopping it failed, no
failed attempt after which it was not tried to drop the link, and a link only if the
device lacked a characteristic or dropping it failed. -/
structure NothingLeft (calls : List Call) : Prop where
  orderly : Orderly calls
  settled : (watch calls).Settled
  up : (watch calls).up = true → (watch calls).lacking = true ∨ (watch calls).stuck = true

end Btwattch2.Bluetooth
