/-
Btwattch2.OneShot — the commands that are answered with a status byte, on a link
of one's own (`set_rtc`, `power`, `blink_led` and `command` of `connection.rs`,
`run` of `main.rs`) and through the agent.

A command is one frame and one reply either way. `OneShot.frame` is what the
direct path writes, `Request.frame` what the actor writes for the request the
invocation sends it; `directVerdict` and `agentVerdict` are what the invocation
makes of the reply.
-/
import Btwattch2.Actor
import Btwattch2.Direct
import Btwattch2.Main

namespace Btwattch2

open Lib

/-! ## On a link of one's own -/

/-- What the direct path makes of a reply. -/
def commandVerdict (action : String) (frame : List UInt8) : Except String Unit :=
  match commandStatus frame with
  | none => .error s!"{action} failed, response frame too short"
  | some code => reportCommand action code

namespace Direct

variable {κ : Type}

/-- Send a one-shot command and report the status byte of the reply. -/
def command (payload : List UInt8) (action : String) : DirectM κ (Except String Unit) := do
  match ← oneshot payload .command with
  | .error e => pure (.error e)
  | .ok frame => pure (commandVerdict action frame)

def setRtc (chrono : Chrono) (time : DateTime) : DirectM κ (Except String Unit) :=
  match rtc chrono time with
  | .error e => pure (.error e)
  | .ok payload => command payload "RTC set"

def power (on : Bool) : DirectM κ (Except String Unit) :=
  let (payload, action) := if on then (Btwattch2.on, "Power on") else (off, "Power off")
  command payload action

def blinkLed : DirectM κ (Except String Unit) := command Btwattch2.blinkLed "Blink"

end Direct

/-! ## The commands -/

/-- A mode that is answered with a status byte. -/
inductive OneShot where
  | setRtc (time : DateTime)
  | power (on : Bool)
  | testLed
  deriving DecidableEq, Repr

namespace OneShot

def mode : OneShot → Mode
  | .setRtc time => .setRtc time
  | .power on => .power on
  | .testLed => .testLed

/-- What the command is called in a report. -/
def action : OneShot → String
  | .setRtc _ => "RTC set"
  | .power on => if on then "Power on" else "Power off"
  | .testLed => "Blink"

/-- The frame the direct path writes. -/
def frame (chrono : Chrono) : OneShot → Except String (List UInt8)
  | .setRtc time => rtc chrono time
  | .power on => .ok (if on then Btwattch2.on else off)
  | .testLed => .ok blinkLed

/-- What the invocation asks the agent for. -/
def request (toRfc3339 : DateTime → String) : OneShot → Request
  | .setRtc time => .setRtc (toRfc3339 time)
  | .power on => .power on
  | .testLed => .testLed

/-- The direct path, arm by arm of `run`. -/
def runDirect {κ : Type} (chrono : Chrono) : OneShot → DirectM κ (Except String Unit)
  | .setRtc time => Direct.setRtc chrono time
  | .power on => Direct.power on
  | .testLed => Direct.blinkLed

end OneShot

/-- The frame the actor writes for a request that is answered with a status byte. -/
def Request.frame (chrono : Chrono) : Request → Except String (List UInt8)
  | .setRtc time => rtcFrame chrono time
  | .power on => .ok (if on then Btwattch2.on else off)
  | .testLed => .ok blinkLed
  | _ => .error "not a one-shot command"

/-- What `send_daemon_command` makes of the first response. -/
def daemonVerdict (action : String) : Response → Except String Unit
  | .error message => .error message
  | .commandResult code => reportCommand action code
  | _ => .error "agent returned an unexpected command response"

namespace OneShot

/-- What the invocation reports on the direct path, given the reply. -/
def directVerdict (chrono : Chrono) (cmd : OneShot) (reply : List UInt8) : Except String Unit :=
  match cmd.frame chrono with
  | .error e => .error e
  | .ok _ => commandVerdict cmd.action reply

/-- What the actor answers on the agent path, given the reply. -/
def agentResponse (chrono : Chrono) (toRfc3339 : DateTime → String) (cmd : OneShot)
    (reply : List UInt8) : Response :=
  match (cmd.request toRfc3339).frame chrono with
  | .error e => .error e
  | .ok _ => parseCommandResult reply

/-- What the invocation reports on the agent path, given the reply. -/
def agentVerdict (chrono : Chrono) (toRfc3339 : DateTime → String) (cmd : OneShot)
    (reply : List UInt8) : Except String Unit :=
  daemonVerdict cmd.action (cmd.agentResponse chrono toRfc3339 reply)

end OneShot

/-! ## Both paths write one frame and read one reply -/

/-- The direct path writes the frame of the command, if there is one. -/
theorem runDirect_eq {κ : Type} (chrono : Chrono) (cmd : OneShot) :
    cmd.runDirect (κ := κ) chrono =
      match cmd.frame chrono with
      | .error e => pure (.error e)
      | .ok payload => Direct.command payload cmd.action := by
  cases cmd with
  | setRtc time => rfl
  | power on => cases on <;> rfl
  | testLed => rfl

/-- The invocation sends the request of the command. -/
theorem runViaDaemon_eq {σ : Type} (platform : Platform) (cmd : OneShot) (cli : Cli)
    (paths : AgentPaths) :
    runViaDaemon (σ := σ) platform cmd.mode cli paths =
      sendDaemonCommand (cmd.request platform.toRfc3339) cmd.action paths := by
  cases cmd <;> rfl

/-- The actor writes the frame of the request, if there is one. -/
theorem handle_eq (chrono : Chrono) (cmd : OneShot) (toRfc3339 : DateTime → String)
    (tx : ClientId) :
    handle chrono ⟨cmd.request toRfc3339, tx⟩ = (do
      Await.observe (.request tx (cmd.request toRfc3339))
      clientOp .reap
      match (cmd.request toRfc3339).frame chrono with
      | .ok payload => command chrono payload tx
      | .error e => sendError tx e) := by
  cases cmd with
  | setRtc time => rfl
  | power on => rfl
  | testLed => rfl

/-- An invocation whose request was answered makes of the response what
`daemonVerdict` says. -/
theorem sendDaemonCommand_answered {σ : Type} (req : Request) (action : String)
    (paths : AgentPaths) (response : Response) (log : List ClientObs) (s : σ) :
    (sendDaemonCommand req action paths
      ⟨[.connect (.ok ()), .write (.ok ()), .line (.response response)], log, s⟩).1 =
        some (daemonVerdict action response) := by
  cases response <;> rfl

end Btwattch2
