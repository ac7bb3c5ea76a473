/-
Btwattch2.CommandTheorems — whose reply a command is given.

A reply carries nothing that says which command it answers: a command takes the
first short frame that arrives while it waits. So a reply that is late for its
own command is taken for the next one (`late`), and replies go to the command
they answer as long as none is outstanding when a command begins to wait
(`commandResult_attributed`).

Replies are counted as the assembler yields them; that a reply is yielded
however it is cut into notifications is `FrameAssembler.feedAll_generate`.
-/
import Btwattch2.ActorInvariants
import Btwattch2.Lib.Log
import Mathlib.Data.List.DropRight
import Mathlib.Order.Monotone.Basic

namespace Btwattch2

open Lib

/-! ## Commands and replies in a log -/

/-- An attempt to write a command frame. -/
def Obs.isCommandWrite : Obs → Bool
  | .deviceWrite payload _ => payload != monitoring
  | _ => false

/-- A frame too short for a measurement, taken out of the assembler. -/
def Obs.shortFrame : Obs → Option (List UInt8)
  | .took frame _ => if FrameKind.command.matches frame then some frame else none
  | _ => none

def Obs.requestTx : Obs → Option ClientId
  | .request tx _ => some tx
  | _ => none

/-- A status byte on its way to a client. -/
def Obs.commandResult : Obs → Option (ClientId × UInt8)
  | .reply tx (.commandResult code) => some (tx, code)
  | _ => none

/-- How many command frames have been written so far: the next one's number. -/
def commandWrites (log : List Obs) : Nat := log.countP Obs.isCommandWrite

/-- How many short frames have been taken so far: the next one's number. -/
def shortFrames (log : List Obs) : Nat := (log.filterMap Obs.shortFrame).length

/-- What had happened when the last request began. -/
def beforeRequest (log : List Obs) : List Obs :=
  (log.rdropWhile fun o => !o.isRequest).dropLast

/-- Whose request that was. -/
def lastRequest (log : List Obs) : Option ClientId := (log.filterMap Obs.requestTx).getLast?

@[simp] theorem commandWrites_append (log obs : List Obs) :
    commandWrites (log ++ obs) = commandWrites log + commandWrites obs := List.countP_append

@[simp] theorem shortFrames_append (log obs : List Obs) :
    shortFrames (log ++ obs) = shortFrames log + shortFrames obs := by
  simp [shortFrames]

theorem beforeRequest_eq {pre : List Obs} {tx : ClientId} {request : Request} : ∀ {obs : List Obs},
    SameRequest obs → beforeRequest (pre ++ .request tx request :: obs) = pre := by
  intro obs
  induction obs using List.reverseRecOn with
  | nil =>
    intro _
    rw [beforeRequest, List.rdropWhile_concat_neg _ _ _ (by simp [Obs.isRequest]),
      List.dropLast_concat]
  | append_singleton obs o ih =>
    intro h
    have hsplit : pre ++ .request tx request :: (obs ++ [o]) =
        pre ++ .request tx request :: obs ++ [o] := by simp
    have ho : o.isRequest = false := h o (by simp)
    rw [beforeRequest, hsplit, List.rdropWhile_concat_pos _ _ _ (by simp [ho])]
    exact ih fun o' ho' => h o' (by simp [ho'])

theorem lastRequest_eq {pre obs : List Obs} {tx : ClientId} {request : Request}
    (h : SameRequest obs) : lastRequest (pre ++ .request tx request :: obs) = some tx := by
  have hnone : obs.filterMap Obs.requestTx = [] := by
    refine List.filterMap_eq_nil_iff.mpr fun o ho => ?_
    have hsame := h o ho
    cases o <;> first | rfl | cases hsame
  simp [lastRequest, Obs.requestTx, hnone]

/-! ## The device -/

/-- A short frame is the device's reply to a command written before: the `n`-th
one taken answers the `idx n`-th command. -/
def Answers (reply : Nat → List UInt8) (idx : Nat → Nat) (pre : List Obs) (o : Obs) : Prop :=
  ∀ frame ∈ o.shortFrame,
    idx (shortFrames pre) < commandWrites pre ∧ frame = reply (idx (shortFrames pre))

/-- The device answers every command it is written with one short frame, in the
order of the commands. Replies it sends while nothing is subscribed are not heard. -/
structure DeviceAnswers (reply : Nat → List UInt8) (idx : Nat → Nat) (log : List Obs) : Prop where
  short : ∀ i, FrameKind.command.matches (reply i) = true
  ordered : StrictMono idx
  answers : Always (Answers reply idx) log

/-- When a command begins to wait, the next reply to come is to none of the
commands of earlier requests: it has been read, or is never heard. -/
def NoneOutstanding (idx : Nat → Nat) (pre : List Obs) (o : Obs) : Prop :=
  o = .awaiting .command → commandWrites (beforeRequest pre) ≤ idx (shortFrames pre)

/-- A status byte goes to the client whose request is being handled, and is that
of the reply to a command written for this request. -/
def Attributed (reply : Nat → List UInt8) (pre : List Obs) (o : Obs) : Prop :=
  ∀ result ∈ o.commandResult, lastRequest pre = some result.1 ∧
    ∃ i < commandWrites pre, commandWrites (beforeRequest pre) ≤ i ∧
      commandStatus (reply i) = some result.2

instance (reply : Nat → List UInt8) (idx : Nat → Nat) (pre : List Obs) (o : Obs) :
    Decidable (Answers reply idx pre o) :=
  inferInstanceAs (Decidable (∀ _ ∈ o.shortFrame, _ ∧ _))

instance (idx : Nat → Nat) (pre : List Obs) (o : Obs) : Decidable (NoneOutstanding idx pre o) :=
  inferInstanceAs (Decidable (_ → _))

instance (reply : Nat → List UInt8) (pre : List Obs) (o : Obs) :
    Decidable (Attributed reply pre o) :=
  inferInstanceAs (Decidable (∀ _ ∈ o.commandResult, _ ∧ ∃ _ < commandWrites pre, _ ∧ _))

/-! ## Every result was waited for -/

/-- A status byte ends a command that was served. -/
def WasServed (pre : List Obs) (o : Obs) : Prop :=
  ∀ result ∈ o.commandResult, ∃ frame, Served pre result.1 frame ∧ commandStatus frame = some result.2

section Zone

variable {chrono : Chrono}

theorem WasServed.of_none {o : Obs} (h : o.commandResult = none) (pre : List Obs) :
    WasServed pre o := by
  simp [WasServed, h]

theorem Calm.commandResult {obs : List Obs} (h : Calm obs) : ∀ o ∈ obs, o.commandResult = none := by
  intro o ho
  have hcalm := h o ho
  cases o <;> first | rfl | cases hcalm

/-- A command's status byte is only ever sent at the end of its wait. -/
theorem stable_wasServed : Stable chrono fun log _ => Always WasServed log := by
  have hnone : ∀ {log obs : List Obs}, (∀ o ∈ obs, o.commandResult = none) →
      Always WasServed log → Always WasServed (log ++ obs) :=
    fun hobs h => h.append fun o ho => .of_none (hobs o ho)
  have hone : ∀ {log : List Obs} {o : Obs}, o.commandResult = none →
      Always WasServed log → Always WasServed (log ++ [o]) :=
    fun ho => hnone (by simpa using ho)
  constructor
  case toSteady =>
    constructor
    case toPatient =>
      constructor
      case meanwhile => exact fun _ _ h => hone rfl h
      case awaiting => exact fun _ h => hone rfl h
      case feedMiss => exact fun _ _ _ _ h => hnone (calm_feedObs _ _ _ _).commandResult h
      case feedHit =>
        exact fun _ _ _ _ _ h => hone rfl (hnone (calm_feedObs _ _ _ _).commandResult h)
    case note =>
      intro log a o ho h
      exact hone (by cases o <;> first | rfl | cases ho) h
    case connected => exact fun h => hone rfl h
    case recordReconnect => exact id
    case disconnected => exact id
    case clients => exact fun _ h => hone rfl h
    case drop => exact fun h => hnone (calm_closing _).commandResult h
    case subscribe => exact fun _ h => hone rfl (hnone (calm_closing _).commandResult h)
    case feed => exact fun _ _ h => hnone (calm_feedObs _ _ _ _).commandResult h
  case request => exact fun _ _ h => hone rfl h
  case reply =>
    intro log a tx response hresponse h
    refine hone ?_ h
    cases response with
    | commandResult code => exact absurd rfl (hresponse code)
    | _ => rfl
  case result =>
    intro log a tx frame hserved h
    refine always_concat.mpr ⟨h, fun result hresult => ⟨frame, ?_⟩⟩
    unfold parseCommandResult at hresult
    split at hresult
    case h_1 code hcode =>
      obtain rfl : (tx, code) = result := Option.some.inj hresult
      exact ⟨hserved, hcode⟩
    case h_2 => cases hresult

/-- A command that was served got the reply to a command of its own request, if
none to an earlier one was outstanding. -/
theorem Served.attributed {reply : Nat → List UInt8} {idx : Nat → Nat} {log : List Obs}
    {tx : ClientId} {frame : List UInt8} (h : Served log tx frame)
    (hordered : StrictMono idx) (hanswers : Always (Answers reply idx) log)
    (hnone : Always (NoneOutstanding idx) log) :
    lastRequest log = some tx ∧ ∃ i < commandWrites log,
      commandWrites (beforeRequest log) ≤ i ∧ frame = reply i := by
  obtain ⟨pre, request, obs, before, during, after, rfl, hsame, rfl, hfits, -⟩ := h
  refine ⟨lastRequest_eq hsame, ?_⟩
  rw [beforeRequest_eq hsame]
  -- the log up to the wait, and up to the frame that ends it
  have hwait := hnone (pre ++ .request tx request :: before) (.awaiting .command)
    (during ++ .took frame (.reply .command) :: after) (by simp) rfl
  rw [beforeRequest_eq fun o ho => hsame o (by simp [ho])] at hwait
  have htook := hanswers (pre ++ .request tx request :: before ++ .awaiting .command :: during)
    (.took frame (.reply .command)) after (by simp) frame (by simp [Obs.shortFrame, hfits])
  obtain ⟨hwritten, hframe⟩ := htook
  refine ⟨_, Nat.lt_of_lt_of_le hwritten ?_, hwait.trans (hordered.monotone ?_), hframe⟩
  · rw [show pre ++ .request tx request :: (before ++ .awaiting .command :: during ++
        .took frame (.reply .command) :: after) = pre ++ .request tx request :: before ++
        .awaiting .command :: during ++ .took frame (.reply .command) :: after by simp]
    rw [commandWrites_append _ (.took frame (.reply .command) :: after)]
    exact Nat.le_add_right _ _
  · rw [shortFrames_append _ (.awaiting .command :: during)]
    exact Nat.le_add_right _ _

/-- **When command replies are attributed to their commands**: in every run in
which no reply to an earlier command is outstanding when a command begins to
wait, each status byte is that of the device's reply to the client's own command. -/
theorem commandResult_attributed (chrono : Chrono) (conn : Connection) (interval now : Nat)
    (metricsListen : Option String) (pollAlways : Bool) {labels : List (Event × List Answer)}
    {agent : Agent} {reply : Nat → List UInt8} {idx : Nat → Nat}
    (hrun : Transition.run (Agent.step chrono)
      (.start conn interval now metricsListen pollAlways) labels = some agent)
    (hdevice : DeviceAnswers reply idx agent.log)
    (hnone : Always (NoneOutstanding idx) agent.log) :
    Always (Attributed reply) agent.log := by
  have hserved : Always WasServed agent.log := stable_wasServed.run always_nil hrun
  intro pre o post hlog result hresult
  obtain ⟨frame, hserve, hcode⟩ := hserved pre o post hlog result hresult
  have hanswers : Always (Answers reply idx) pre := hdevice.answers.of_prefix hlog
  obtain ⟨htx, i, hi, hown, rfl⟩ := hserve.attributed hdevice.ordered hanswers
    (hnone.of_prefix hlog)
  exact ⟨htx, i, hi, hown, hcode⟩

/-- The replies of a device that accepts its first command and rejects the others. -/
def statusReply (i : Nat) : List UInt8 := generate [0xA7, if i = 0 then 0x00 else 0x01]

theorem statusReply_short (i : Nat) : FrameKind.command.matches (statusReply i) = true := by
  rw [FrameKind.matches_command, statusReply, length_generate]
  exact (by decide : 2 + frameOverhead < measurementFrameMinLen)

/-- A command that gets its own reply, one that times out and whose reply is never
heard, and another that gets its own. -/
def answered : List (Event × List Answer) :=
  [(.command (some ⟨.power true, 0⟩), [.meanwhile [] 0, .meanwhile [] 0, .subscribe (.ok ()),
    .meanwhile [] 0, .deviceWrite (.ok ()),
    .meanwhile [] 0, .next (some ⟨cRx, statusReply 0⟩)]),
   (.command (some ⟨.power false, 1⟩), [.meanwhile [] 0, .meanwhile [] 0, .subscribe (.ok ()),
    .meanwhile [] 0, .deviceWrite (.ok ()), .meanwhile [] 5, .timeout]),
   (.command (some ⟨.power false, 2⟩), [.meanwhile [] 0, .meanwhile [] 0, .subscribe (.ok ()),
    .meanwhile [] 0, .deviceWrite (.ok ()),
    .meanwhile [] 0, .next (some ⟨cRx, statusReply 2⟩)])]

/-- The replies that are heard there. -/
def heardReply (i : Nat) : Nat := if i = 0 then 0 else i + 1

theorem strictMono_heardReply : StrictMono heardReply := by
  intro i j hij
  unfold heardReply
  split <;> split <;> omega

theorem commandResult_attributed_answered : ∃ agent,
    Transition.run (Agent.step (.utc fun _ => .error "too short"))
      (.start ⟨1⟩ nanosPerSec 0 none false) answered = some agent ∧
    agent.log.filterMap Obs.commandResult = [(0, 0x00), (2, 0x01)] ∧
    Always (Attributed statusReply) agent.log := by
  have hchecks : (Transition.run (Agent.step (.utc fun _ => .error "too short"))
      (.start ⟨1⟩ nanosPerSec 0 none false) answered).any (fun agent =>
        decide (agent.log.filterMap Obs.commandResult = [(0, 0x00), (2, 0x01)]) &&
        decide (Always (Answers statusReply heardReply) agent.log) &&
        decide (Always (NoneOutstanding heardReply) agent.log)) = true := by decide +kernel
  obtain ⟨agent, hrun, hagent⟩ := (Option.any_eq_true _ _).mp hchecks
  obtain ⟨htold, hnone⟩ := Bool.and_eq_true_iff.mp hagent
  obtain ⟨hresults, hanswers⟩ := Bool.and_eq_true_iff.mp htold
  exact ⟨agent, hrun, of_decide_eq_true hresults, commandResult_attributed _ _ _ _ _ _ hrun
    ⟨statusReply_short, strictMono_heardReply, of_decide_eq_true hanswers⟩
    (of_decide_eq_true hnone)⟩

/-- The first command times out and its subscription is torn down. Its reply
arrives while the second one waits. -/
def late : List (Event × List Answer) :=
  [(.command (some ⟨.power true, 0⟩), [.meanwhile [] 0, .meanwhile [] 0, .subscribe (.ok ()),
    .meanwhile [] 0, .deviceWrite (.ok ()), .meanwhile [] 5, .timeout]),
   (.command (some ⟨.power false, 1⟩), [.meanwhile [] 0, .meanwhile [] 0, .subscribe (.ok ()),
    .meanwhile [] 0, .deviceWrite (.ok ()),
    .meanwhile [] 0, .next (some ⟨cRx, statusReply 0⟩)])]

/-- The client that switched off is told that the device accepted it. -/
theorem commandResult_misattributed : ∃ agent,
    Transition.run (Agent.step (.utc fun _ => .error "too short"))
      (.start ⟨1⟩ nanosPerSec 0 none false) late = some agent ∧
    DeviceAnswers statusReply id agent.log ∧ ¬ Always (Attributed statusReply) agent.log := by
  have hchecks : (Transition.run (Agent.step (.utc fun _ => .error "too short"))
      (.start ⟨1⟩ nanosPerSec 0 none false) late).any (fun agent =>
        decide (Always (Answers statusReply id) agent.log) &&
        !decide (Always (Attributed statusReply) agent.log)) = true := by decide +kernel
  obtain ⟨agent, hrun, hagent⟩ := (Option.any_eq_true _ _).mp hchecks
  obtain ⟨hanswers, hnot⟩ := Bool.and_eq_true_iff.mp hagent
  exact ⟨agent, hrun, ⟨statusReply_short, strictMono_id, of_decide_eq_true hanswers⟩,
    by simpa using hnot⟩

end Zone

end Btwattch2
