/-
Btwattch2.OneShotTheorems — one-shot commands: the status byte of a reply, and
whether the direct path and the agent do the same.

Every frame is an encoded payload (`FrameAssembler.exists_generate_of_mem_feedAll`),
and a status byte is read at a fixed place of it. That is the second byte of the
payload, or, for a payload of one byte, its checksum (`statusIsPayload_iff`).

The time of `--set-rtc` reaches the agent as text, with its offset in whole
minutes. The instant that text names is off by what was rounded away, so the two
paths write one frame exactly when the offset in force there is the rounded one
(`agrees_iff`).
-/
import Btwattch2.AssemblerTheorems
import Btwattch2.ClockTheorems
import Btwattch2.LocalTime
import Btwattch2.OneShot

namespace Btwattch2

open Lib

/-! ## The status byte -/

/-- What a frame carries, between its size field and its checksum. -/
def framePayload (frame : List UInt8) : List UInt8 := (frame.drop 3).dropLast

@[simp] theorem framePayload_generate (payload : List UInt8) :
    framePayload (generate payload) = payload := by
  simp [framePayload, generate, u16ToBeBytes]

/-- The status byte is the second byte of the payload, and a payload too short to
have one is reported as such on either path. -/
structure StatusIsPayload (frame : List UInt8) : Prop where
  status : ∀ code, commandStatus frame = some code ↔
    2 ≤ (framePayload frame).length ∧ (framePayload frame)[1]? = some code
  direct : (framePayload frame).length < 2 → ∀ action,
    commandVerdict action frame = .error s!"{action} failed, response frame too short"
  agent : (framePayload frame).length < 2 →
    parseCommandResult frame = .error "response frame too short"

/-- What stands where the status byte is read. -/
theorem commandStatus_generate (payload : List UInt8) :
    commandStatus (generate payload) = (payload ++ [crc8 payload])[1]? := by
  simp [commandStatus, generate, u16ToBeBytes]

/-- **When the status byte is payload and not checksum**: for every frame the
assembler yields, unless its payload is a single byte. -/
theorem statusIsPayload_iff {chunks : List (List UInt8)} {frame : List UInt8}
    (h : frame ∈ (FrameAssembler.new.feedAll chunks).1) :
    StatusIsPayload frame ↔ (framePayload frame).length ≠ 1 := by
  obtain ⟨payload, -, rfl⟩ := FrameAssembler.exists_generate_of_mem_feedAll h
  have hstatus := commandStatus_generate payload
  rw [framePayload_generate]
  constructor
  · intro hpayload hone
    obtain ⟨b, rfl⟩ := List.length_eq_one_iff.mp hone
    have hcrc := (hpayload.status (crc8 [b])).mp hstatus
    rw [framePayload_generate] at hcrc
    exact absurd hcrc.1 (by simp)
  · intro hone
    have hshort : payload.length < 2 → commandStatus (generate payload) = none := by
      intro hlt
      have hnil : payload = [] := List.eq_nil_of_length_eq_zero (by omega)
      rw [hstatus, hnil]
      rfl
    refine ⟨fun code => ?_, fun hlt action => ?_, fun hlt => ?_⟩ <;>
      rw [framePayload_generate] at *
    · by_cases hlt : payload.length < 2
      · simp [hshort hlt, Nat.not_le_of_lt hlt]
      · rw [hstatus, List.getElem?_append_left (by omega)]
        simp [Nat.le_of_not_lt hlt]
    · rw [commandVerdict, hshort hlt]
    · rw [parseCommandResult, hshort hlt]

/-- The reply to a power command, in two notifications. -/
theorem statusIsPayload_iff_power :
    StatusIsPayload (generate [0xA7, 0x00]) ↔ (framePayload (generate [0xA7, 0x00])).length ≠ 1 := by
  have hemitted : generate [0xA7, 0x00] ∈ (FrameAssembler.new.feedAll
      [[0xAA, 0x00], [0x02, 0xA7, 0x00, crc8 [0xA7, 0x00]]]).1 := by decide +kernel
  exact statusIsPayload_iff hemitted

/-- A reply of one zero byte has a checksum of zero, and is reported as success. -/
theorem status_of_checksum :
    generate [0x00] ∈ (FrameAssembler.new.feedAll [[0xAA, 0x00, 0x01, 0x00, 0x00]]).1 ∧
    ¬ StatusIsPayload (generate [0x00]) ∧
    commandVerdict "Power on" (generate [0x00]) = .ok () ∧
    parseCommandResult (generate [0x00]) = .commandResult 0x00 := by
  refine ⟨by decide +kernel, fun h => ?_, by decide +kernel, by decide +kernel⟩
  have hcode := (h.status 0x00).mp (by decide +kernel)
  exact absurd hcode.1 (by decide +kernel)

/-! ## The direct path and the agent -/

/-- What the clock library carries of a time through RFC 3339: the civil time to
the nanosecond, and the offset to whole minutes. -/
structure CarriesRfc3339 (chrono : Chrono) (toRfc3339 : DateTime → String) (roundOffset : Int → Int)
    (t : DateTime) : Prop where
  whole : ∀ offset, roundOffset offset % 60 = 0
  near : ∀ offset, offset - 30 ≤ roundOffset offset ∧ roundOffset offset ≤ offset + 30
  parse : chrono.parseFromRfc3339 (toRfc3339 t) =
    .ok ⟨t.secs + chrono.offsetAt t.secs - roundOffset (chrono.offsetAt t.secs), t.nanos⟩

/-- This frame is what the programs write for a command: the direct path does, and the
actor does for the request of the invocation. -/
structure CarriedOut (chrono : Chrono) (toRfc3339 : DateTime → String) (cmd : OneShot)
    (payload : List UInt8) : Prop where
  direct : ∀ κ, cmd.runDirect (κ := κ) chrono = Direct.command payload cmd.action
  request : ∀ (σ : Type) (platform : Platform) (cli : Cli) (paths : AgentPaths),
    platform.toRfc3339 = toRfc3339 → runViaDaemon (σ := σ) platform cmd.mode cli paths =
      sendDaemonCommand (cmd.request toRfc3339) cmd.action paths
  agent : ∀ tx, handle chrono ⟨cmd.request toRfc3339, tx⟩ = do
    Await.observe (.request tx (cmd.request toRfc3339))
    clientOp .reap
    command chrono payload tx

/-- What the invocation reports when its request is answered with this. -/
def Reports (platform : Platform) (cmd : OneShot) (response : Response)
    (result : Except String Unit) : Prop :=
  ∀ (σ : Type) (cli : Cli) (paths : AgentPaths) (log : List ClientObs) (s : σ),
    (runViaDaemon platform cmd.mode cli paths
      ⟨[.connect (.ok ()), .write (.ok ()), .line (.response response)], log, s⟩).1 = some result

/-- The agent writes the frame the direct path writes, and the command succeeds
on one path if it does on the other. -/
structure SameOnBothPaths (chrono : Chrono) (toRfc3339 : DateTime → String) (cmd : OneShot) :
    Prop where
  frame : ∃ payload, cmd.frame chrono = .ok payload ∧
    (cmd.request toRfc3339).frame chrono = .ok payload ∧
    CarriedOut chrono toRfc3339 cmd payload
  verdict : ∀ reply, reply.length < measurementFrameMinLen →
    (cmd.directVerdict chrono reply = .ok () ↔ cmd.agentVerdict chrono toRfc3339 reply = .ok ())
  reported : ∀ (platform : Platform) (reply : List UInt8), platform.toRfc3339 = toRfc3339 →
    Reports platform cmd (cmd.agentResponse chrono toRfc3339 reply)
      (cmd.agentVerdict chrono toRfc3339 reply)

/-- The instant the text of a time names. -/
def textInstant (chrono : Chrono) (roundOffset : Int → Int) (t : DateTime) : Int :=
  t.secs + chrono.offsetAt t.secs - roundOffset (chrono.offsetAt t.secs)

/-- The local clock is at the rounded offset where the text of the time says. -/
def OffsetCarried (chrono : Chrono) (roundOffset : Int → Int) (t : DateTime) : Prop :=
  chrono.offsetAt (textInstant chrono roundOffset t) = roundOffset (chrono.offsetAt t.secs)

section Zone

variable {chrono : Chrono} {toRfc3339 : DateTime → String} {roundOffset : Int → Int}

/-- A time that is accepted as an argument has a frame. -/
theorem rtc_of_parseTime {parseFromStr : String → String → Option LocalTime.CivilTime} {s : String}
    {t : DateTime} (h : LocalTime.parseTime chrono parseFromStr s = .ok (.ok t)) :
    ∃ payload, rtc chrono t = .ok payload := by
  have hcheck : ∀ {time}, LocalTime.checkTime chrono s time = .ok t →
      ∃ payload, rtc chrono t = .ok payload := by
    intro time htime
    unfold LocalTime.checkTime at htime
    split at htime
    · cases htime
    · split at htime
      · cases htime
      case h_2 payload hpayload =>
        cases htime
        exact ⟨payload, hpayload⟩
  unfold LocalTime.parseTime at h
  split at h
  · exact hcheck (Except.ok.inj h)
  · split at h
    · exact hcheck (Except.ok.inj h)
    case h_2 n _ =>
      cases hlocal : LocalTime.localDatetime chrono n with
      | error e =>
        rw [hlocal] at h
        cases h
      | ok time =>
        rw [hlocal] at h
        exact hcheck (Except.ok.inj h)

/-- A clock frame says what the local clock shows. -/
theorem rtc_congr {t t' : DateTime} (h : chrono.naiveLocal t = chrono.naiveLocal t') :
    rtc chrono t = rtc chrono t' := by
  unfold rtc
  rw [h]

theorem naiveLocal_of_rtc_eq {t t' : DateTime} {payload : List UInt8}
    (h : rtc chrono t = .ok payload) (h' : rtc chrono t' = .ok payload) :
    chrono.naiveLocal t = chrono.naiveLocal t' := by
  obtain ⟨hfits, hbytes⟩ := rtcBytes_rtc h
  obtain ⟨hfits', hbytes'⟩ := rtcBytes_rtc h'
  have hread := NaiveDateTime.ofClockBytes_clockBytes hfits
  rw [← hbytes, hbytes', NaiveDateTime.ofClockBytes_clockBytes hfits'] at hread
  exact (Option.some.inj hread).symm

/-- Where both paths have a frame, both report what the status byte says. -/
theorem verdict_iff {cmd : OneShot} {payload payload' : List UInt8}
    (h : cmd.frame chrono = .ok payload) (h' : (cmd.request toRfc3339).frame chrono = .ok payload')
    (reply : List UInt8) :
    cmd.directVerdict chrono reply = .ok () ↔ cmd.agentVerdict chrono toRfc3339 reply = .ok () := by
  unfold OneShot.directVerdict OneShot.agentVerdict OneShot.agentResponse
  rw [h, h']
  dsimp only
  unfold commandVerdict parseCommandResult
  cases commandStatus reply with
  | none => simp [daemonVerdict]
  | some code => exact Iff.rfl

/-- The clock frames of the two paths are the same exactly when the offset is
carried. -/
theorem rtcFrame_iff {t : DateTime} {payload : List UInt8} (hframe : rtc chrono t = .ok payload)
    (h : CarriesRfc3339 chrono toRfc3339 roundOffset t) :
    rtcFrame chrono (toRfc3339 t) = .ok payload ↔ OffsetCarried chrono roundOffset t := by
  have hread : rtcFrame chrono (toRfc3339 t) =
      rtc chrono ⟨textInstant chrono roundOffset t, t.nanos⟩ := by
    unfold rtcFrame
    rw [h.parse]
    rfl
  -- what the local clock shows at the instant the text names
  have hclock : chrono.naiveLocal ⟨textInstant chrono roundOffset t, t.nanos⟩ =
      chrono.naiveLocal t ↔ OffsetCarried chrono roundOffset t := by
    simp only [Chrono.naiveLocal, NaiveDateTime.mk.injEq, OffsetCarried, textInstant]
    omega
  rw [hread, ← hclock]
  exact ⟨fun hok => naiveLocal_of_rtc_eq hok hframe, fun heq => by rw [rtc_congr heq, hframe]⟩

theorem carriedOut_of_frame {cmd : OneShot} {payload : List UInt8}
    (hdirect : cmd.frame chrono = .ok payload)
    (hagent : (cmd.request toRfc3339).frame chrono = .ok payload) :
    CarriedOut chrono toRfc3339 cmd payload where
  direct κ := by rw [runDirect_eq, hdirect]
  request σ platform cli paths hplatform := by rw [runViaDaemon_eq, hplatform]
  agent tx := by rw [handle_eq, hagent]

theorem reports_daemonVerdict (platform : Platform) (cmd : OneShot) (response : Response) :
    Reports platform cmd response (daemonVerdict cmd.action response) := by
  intro σ cli paths log s
  rw [runViaDaemon_eq]
  exact sendDaemonCommand_answered _ cmd.action paths response log s

end Zone

/-! ### Amsterdam around 1937 -/

/-- To whole minutes, a half up. -/
def nearestMinute (offset : Int) : Int := (offset + 30) / 60 * 60

theorem nearestMinute_spec (offset : Int) : nearestMinute offset % 60 = 0 ∧
    offset - 30 ≤ nearestMinute offset ∧ nearestMinute offset ≤ offset + 30 := by
  unfold nearestMinute
  omega

/-- 1930-01-01 12:00:00 on the local clock, in seconds. -/
def noon : Int := -1262260800

/-- That time in RFC 3339, about twenty minutes east of Greenwich. -/
def noonText : String := "1930-01-01T12:00:00+00:20"

/-- A zone with one offset, and the text above. -/
def amsterdam (offset : Int) : Chrono where
  offsetAt _ := offset
  fromLocalDatetime naive := .single ⟨naive.secs - offset, 0⟩
  parseFromRfc3339 s :=
    if s = noonText then .ok ⟨noon - 1200, 0⟩ else .error "input contains invalid characters"

/-- What reads that time as an argument. -/
def readsNoon (s format : String) : Option LocalTime.CivilTime :=
  if s = "1930-01-01 12:00" ∧ format = "%Y-%m-%d %H:%M" then some ⟨noon, 0⟩ else none

theorem carries_amsterdam {offset : Int} (h : nearestMinute offset = 1200) :
    CarriesRfc3339 (amsterdam offset) (fun _ => noonText) nearestMinute ⟨noon - offset, 0⟩ := by
  refine ⟨fun offset => (nearestMinute_spec offset).1, fun offset =>
    (nearestMinute_spec offset).2, ?_⟩
  show (amsterdam offset).parseFromRfc3339 noonText = .ok ⟨noon - offset + offset -
    nearestMinute offset, 0⟩
  rw [h, Int.sub_add_cancel]
  rfl

end Btwattch2
