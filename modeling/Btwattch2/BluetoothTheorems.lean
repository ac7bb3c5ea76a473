/-
Btwattch2.BluetoothTheorems — the calls of the Bluetooth stack carry out the link of
`Connection`.

`Call.amounts` is what a call amounts to there: an attempt to connect is answered by
its first failure or by the characteristics found at its end, a subscription by its
first failure or by its stream. Looking at a link, dropping it and sleeping amount to
nothing. Each operation has one simulation (`simulates_establish`, `simulates_listen`,
`simulates_writeLoop`), and `link_refined` puts them together.
-/
import Btwattch2.Bluetooth
import Btwattch2.Lib.Log

namespace Btwattch2.Bluetooth

open Lib Lib.Await

variable {σ : Type}

/-! ## The coarser link -/

/-- A computation over the coarser answers. -/
abbrev Coarse (α : Type) := Await Btwattch2.Answer Obs Btwattch2.Connection α

/-- What a call amounts to where an attempt to connect is one answer, and so is a
subscription. -/
def Call.amounts : Call → Option Btwattch2.Answer
  | connect (.error e) => some (.attempt (.error e))
  | discoverServices (.error e) => some (.attempt (.error e))
  | characteristics found => some (.attempt (.ok (found.map Characteristic.uuid)))
  | subscribe _ (.error e) => some (.subscribe (.error e))
  | notifications result => some (.subscribe result)
  | write _ _ _ result => some (.deviceWrite result)
  | _ => none

theorem silent_call {α : Type} {take : Answer → Option α} {made : α → Call}
    (h : ∀ a, (made a).amounts = none) :
    Silent Call.amounts (Await.call take made : Stack σ α) :=
  confined_call (fun _ _ _ => trivial) h

theorem silent_sleep (nanos : Nat) : Silent Call.amounts (sleep nanos : Stack σ Unit) :=
  confined_bind (silent_call fun _ => rfl) fun _ => confined_pure ()

theorem silent_dropConnection : Silent Call.amounts (dropConnection : Stack σ Unit) := by
  refine confined_bind (silent_call fun _ => rfl) fun connected => ?_
  match connected with
  | .ok true => exact confined_bind (silent_call fun _ => rfl) fun _ => confined_pure ()
  | .ok false => exact confined_pure ()
  | .error e => exact confined_pure ()

/-- `establish` up to the characteristics that are found. -/
def discovered (left : Nat) : Stack σ (Except String (List Characteristic)) := do
  match ← establishLoop left with
  | .error e => pure (.error e)
  | .ok () =>
    let found ← Await.call Answer.asCharacteristics .characteristics
    pure (.ok found)

/-- What follows a failed attempt. -/
def retried (left : Nat) : Stack σ (Except String (List Characteristic)) := do
  dropConnection
  match left with
  | left + 1 =>
    sleep nanosPerSec
    discovered left
  | 0 => pure (.error s!"connect failed after {Connection.connectRetries} attempts")

/-- The same in `establish` itself. -/
def afterFailure (left : Nat) : Stack σ (Except String Unit) := do
  dropConnection
  match left with
  | left + 1 =>
    sleep nanosPerSec
    establishLoop left
  | 0 => pure (.error s!"connect failed after {Connection.connectRetries} attempts")

theorem afterFailure_eq (left : Nat) : (do
    match ← (afterFailure left : Stack σ _) with
    | .error e => pure (.error e)
    | .ok () =>
      let found ← Await.call Answer.asCharacteristics .characteristics
      pure (.ok found)) = retried left := by
  unfold afterFailure retried
  rw [bind_assoc]
  cases left with
  | zero => rfl
  | succ left => simp only [bind_assoc, discovered]

theorem discovered_eq (left : Nat) : (discovered left : Stack σ _) = (do
    match ← Await.call Answer.asDone .connect with
    | .error _ => retried left
    | .ok () =>
      match ← Await.call Answer.asDone .discoverServices with
      | .error _ => retried left
      | .ok () =>
        let found ← Await.call Answer.asCharacteristics .characteristics
        pure (.ok found)) := by
  unfold discovered establishLoop attempt
  simp only [bind_assoc]
  congr 1
  funext connected
  cases connected with
  | error e => exact afterFailure_eq left
  | ok _ =>
    congr 1
    funext services
    cases services with
    | error e => exact afterFailure_eq left
    | ok _ => rfl

/-- The same characteristics were found, or the same error came out. -/
def SameFound (found : Except String (List Characteristic)) (chars : Except String (List Uuid)) :
    Prop :=
  found.map (List.map Characteristic.uuid) = chars

theorem simulates_attempt {left : Nat} {again : Coarse (Except String (List Uuid))}
    (h : Simulates Call.amounts SameFound (retried left : Stack σ _) again) :
    Simulates Call.amounts SameFound (discovered left : Stack σ _) (do
      match ← Await.await Btwattch2.Answer.asAttempt with
      | .ok chars => pure (.ok chars)
      | .error _ => again) := by
  rw [discovered_eq]
  refine simulates_call fun connected => ?_
  cases connected with
  | error e => exact .inr ⟨.attempt (.error e), .error e, rfl, rfl, h⟩
  | ok _ =>
    refine .inl ⟨rfl, simulates_call fun services => ?_⟩
    cases services with
    | error e => exact .inr ⟨.attempt (.error e), .error e, rfl, rfl, h⟩
    | ok _ =>
      refine .inl ⟨rfl, simulates_call fun found => .inr ?_⟩
      exact ⟨.attempt (.ok (found.map Characteristic.uuid)), _, rfl, rfl, simulates_pure rfl⟩

theorem simulates_discovered (left : Nat) :
    Simulates Call.amounts SameFound (discovered left : Stack σ _)
      (Connection.establishLoop left) := by
  induction left with
  | zero =>
    have hretried : Simulates Call.amounts SameFound (retried 0 : Stack σ _)
        (pure (.error s!"connect failed after {Connection.connectRetries} attempts") : Coarse _) :=
      simulates_silent silent_dropConnection fun _ => simulates_pure rfl
    rw [Connection.establishLoop.eq_def]
    exact simulates_attempt hretried
  | succ left ih =>
    have hretried : Simulates Call.amounts SameFound (retried (left + 1) : Stack σ _)
        (Connection.establishLoop left) :=
      simulates_silent silent_dropConnection fun _ => simulates_silent (silent_sleep _) fun _ => ih
    rw [Connection.establishLoop.eq_def]
    exact simulates_attempt hretried

/-- Whether it came out well, or with which error. -/
def SameOutcome {α β : Type} (x : Except String α) (y : Except String β) : Prop :=
  x.map (fun _ => ()) = y.map fun _ => ()

theorem establish_eq : (establish : Stack σ _) = (do
    match ← discovered (Connection.connectRetries - 1) with
    | .error e => pure (.error e)
    | .ok found => pure (chooseCharacteristics found)) := by
  unfold establish discovered
  rw [bind_assoc]
  congr 1
  funext r
  cases r with
  | error e => rfl
  | ok _ =>
    dsimp only
    rw [bind_assoc]
    rfl

theorem mem_map_uuid (found : List Characteristic) (uuid : Uuid) :
    uuid ∈ found.map Characteristic.uuid ↔ (found.find? (·.uuid = uuid)).isSome := by
  simp [List.find?_isSome]

theorem simulates_establish :
    Simulates Call.amounts SameOutcome (establish : Stack σ _) Connection.establish := by
  rw [establish_eq]
  refine simulates_bind (simulates_discovered _) fun found chars hsame => ?_
  subst hsame
  cases found with
  | error e => exact simulates_pure rfl
  | ok found =>
    show Simulates _ _ _ (if cTx ∉ found.map Characteristic.uuid then _
      else if cRx ∉ found.map Characteristic.uuid then _ else _)
    have htx := mem_map_uuid found cTx
    have hrx := mem_map_uuid found cRx
    dsimp only
    unfold chooseCharacteristics
    cases hfind : found.find? (·.uuid = cTx) with
    | none =>
      rw [if_pos (by simpa [hfind] using htx)]
      exact simulates_pure rfl
    | some tx =>
      rw [if_neg (by simpa [hfind] using htx)]
      cases hfind : found.find? (·.uuid = cRx) with
      | none =>
        rw [if_pos (by simpa [hfind] using hrx)]
        exact simulates_pure rfl
      | some rx =>
        rw [if_neg (by simpa [hfind] using hrx)]
        exact simulates_pure rfl

theorem simulates_connect : Simulates Call.amounts SameOutcome connect Connection.connect := by
  refine simulates_bind simulates_establish fun found done hsame => ?_
  cases found with
  | error e =>
    cases done with
    | error e' => exact simulates_pure hsame
    | ok _ => cases hsame
  | ok chars =>
    cases done with
    | error e' => cases hsame
    | ok _ =>
      refine simulates_silent (confined_modify _) fun _ => ?_
      exact simulates_idle (idle_modify _) fun _ => simulates_idle (idle_observe _) fun _ =>
        simulates_pure rfl

theorem simulates_listen : Simulates Call.amounts SameOutcome listen Connection.listen := by
  refine simulates_silent confined_get fun link => simulates_call fun subscribed => ?_
  cases subscribed with
  | error e =>
    refine .inr ⟨.subscribe (.error e), .error e, rfl, rfl, ?_⟩
    exact simulates_idle (idle_observe _) fun _ => simulates_pure rfl
  | ok _ =>
    refine .inl ⟨rfl, ?_⟩
    dsimp only
    rw [← bind_pure (Await.call Answer.asDone Call.notifications)]
    refine simulates_call fun stream => .inr ⟨.subscribe stream, stream, rfl, rfl, ?_⟩
    cases stream with
    | error e => exact simulates_idle (idle_observe _) fun _ => simulates_pure rfl
    | ok _ =>
      exact simulates_idle (idle_observe _) fun _ => simulates_idle idle_get fun _ =>
        simulates_pure rfl

theorem simulates_reconnectStream :
    Simulates Call.amounts SameOutcome reconnectStream Connection.reconnectStream := by
  refine simulates_bind simulates_connect fun connected done hsame => ?_
  cases connected with
  | error e =>
    cases done with
    | error e' => exact simulates_idle (idle_observe _) fun _ => simulates_pure hsame
    | ok _ => cases hsame
  | ok _ =>
    cases done with
    | error e' => cases hsame
    | ok _ =>
      dsimp only
      rw [← bind_pure listen]
      refine simulates_bind simulates_listen fun stream n hsame => ?_
      cases n with
      | error e => exact simulates_idle (idle_observe _) fun _ => simulates_pure hsame
      | ok n => exact simulates_idle (idle_observe _) fun _ => simulates_pure hsame

/-- What follows a failed attempt of `write`. -/
def rewritten (payload : List UInt8) (reconnected : Bool) (left : Nat) :
    Stack Link (Except String Bool) :=
  match left with
  | left + 1 => do
    match ← connect with
    | .ok () => writeLoop payload true left
    | .error _ =>
      sleep nanosPerSec
      writeLoop payload reconnected left
  | 0 => pure (.error s!"write failed after {Connection.writeRetries} attempts")

theorem writeLoop_eq (payload : List UInt8) (reconnected : Bool) (left : Nat) :
    writeLoop payload reconnected left = (do
      let link ← Await.get
      match ← Await.call Answer.asDone (.write link.tx payload (writeType link.tx)) with
      | .ok () => pure (.ok reconnected)
      | .error _ => rewritten payload reconnected left) := by
  cases left with
  | zero => rw [writeLoop]; rfl
  | succ left => rw [writeLoop]; rfl

/-- What follows a failed attempt decides. -/
theorem simulates_writeAttempt {payload : List UInt8} {reconnected : Bool} {left : Nat}
    {again : Coarse (Except String Bool)}
    (h : Simulates Call.amounts Eq (rewritten payload reconnected left) again) :
    Simulates Call.amounts Eq (writeLoop payload reconnected left) (do
      match ← Await.await Btwattch2.Answer.asDeviceWrite with
      | .ok () =>
        Await.observe (.deviceWrite payload true)
        Await.observe (.write true reconnected)
        pure (.ok reconnected)
      | .error _ =>
        Await.observe (.deviceWrite payload false)
        again) := by
  rw [writeLoop_eq]
  refine simulates_silent confined_get fun link => simulates_call fun written => .inr ?_
  refine ⟨.deviceWrite written, written, rfl, rfl, ?_⟩
  cases written with
  | ok _ =>
    exact simulates_idle (idle_observe _) fun _ => simulates_idle (idle_observe _) fun _ =>
      simulates_pure rfl
  | error e => exact simulates_idle (idle_observe _) fun _ => h

theorem simulates_writeLoop (payload : List UInt8) (reconnected : Bool) (left : Nat) :
    Simulates Call.amounts Eq (writeLoop payload reconnected left)
      (Connection.writeLoop payload reconnected left) := by
  induction left generalizing reconnected with
  | zero =>
    rw [Connection.writeLoop.eq_def]
    exact simulates_writeAttempt (simulates_idle (idle_observe _) fun _ => simulates_pure rfl)
  | succ left ih =>
    rw [Connection.writeLoop.eq_def]
    refine simulates_writeAttempt (simulates_bind simulates_connect fun connected done hsame => ?_)
    cases connected with
    | error e =>
      cases done with
      | error e' => exact simulates_silent (silent_sleep _) fun _ => ih reconnected
      | ok _ => cases hsame
    | ok _ =>
      cases done with
      | error e' => cases hsame
      | ok _ => exact ih true

/-- **The link is refined**: what `Connection` says of connecting, listening,
reconnecting and writing holds of the calls, for whatever they are answered. Where the
calls end, so does the coarser operation on what they amount to, with the same value
or the same error. -/
theorem link_refined :
    Simulates Call.amounts SameOutcome connect Connection.connect ∧
    Simulates Call.amounts SameOutcome listen Connection.listen ∧
    Simulates Call.amounts SameOutcome reconnectStream Connection.reconnectStream ∧
    ∀ payload, Simulates Call.amounts Eq (write payload) (Connection.write payload) :=
  ⟨simulates_connect, simulates_listen, simulates_reconnectStream,
    fun payload => simulates_writeLoop payload false _⟩

end Btwattch2.Bluetooth
