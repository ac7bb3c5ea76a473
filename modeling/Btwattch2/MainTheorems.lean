/-
Btwattch2.MainTheorems — which device a command reaches.

An agent that answers on the resolved socket serves the command, whatever device
it is attached to, unless `--addr` asks for another one: then nothing but the
ping is sent to it (`explicitAddr_refused`). The address of a profile does not
count as asking (`profile_superseded`).
-/
import Btwattch2.Main

namespace Btwattch2

open Lib

/-- The answers of an agent that takes the ping and reports an address. -/
def reports (addr : String) (status : Option AgentStatus) : List ClientAnswer :=
  [.socketExists true, .connect (.ok ()), .write (.ok ()),
    .line (.response (.pong (some addr) status))]

section Zone

variable {platform : Platform} {σ : Type} {cli : Cli} {want held : BDAddr} {addr : String}
  {status : Option AgentStatus} {rest : List ClientAnswer} {log : List ClientObs} {s : σ}

/-- A request takes the first response for its answer. -/
theorem request_pong (paths : AgentPaths) :
    request .ping paths ⟨.connect (.ok ()) :: .write (.ok ()) ::
        .line (.response (.pong (some addr) status)) :: rest, log, s⟩ =
      (some (.ok (.pong (some addr) status)), ⟨rest, log ++ [.sent .ping], s⟩) := rfl

/-- An agent that reports an address is found with that address. -/
theorem probeDaemon_reports (haddr : platform.parseAddr addr = .ok held) (paths : AgentPaths) :
    probeDaemon platform.parseAddr paths ⟨reports addr status ++ rest, log, s⟩ =
      (some (some ⟨some held, status⟩), ⟨rest, log ++ [.sent .ping], s⟩) := by
  have hread : readPong platform.parseAddr (.pong (some addr) status) =
      .ok ⟨some held, status⟩ := by simp only [readPong, haddr]
  have hping : ping platform.parseAddr paths ⟨.connect (.ok ()) :: .write (.ok ()) ::
        .line (.response (.pong (some addr) status)) :: rest, log, s⟩ =
      (some (.ok ⟨some held, status⟩), ⟨rest, log ++ [.sent .ping], s⟩) := by
    simp only [ping, bind, Await.timeout, request_pong, hread]
    rfl
  show probeDaemon platform.parseAddr paths ⟨.socketExists true :: .connect (.ok ()) ::
    .write (.ok ()) :: .line (.response (.pong (some addr) status)) :: rest, log, s⟩ = _
  simp only [probeDaemon, bind, Await.await, ClientAnswer.asSocketExists, hping]
  rfl

theorem ensureAddrMatches_ne (hwant : cli.explicitAddr = some want) (hne : want ≠ held)
    (socket : String) : ∃ e, ensureAddrMatches cli ⟨some held, status⟩ socket = .error e := by
  simp [ensureAddrMatches, hwant, hne]

/-- The agent is found and refused, and the rest of the answers is not asked for. -/
theorem runMode_refused (haddr : platform.parseAddr addr = .ok held)
    (hwant : cli.explicitAddr = some want) (hne : want ≠ held) (mode : Mode)
    (settings : Settings) (paths : AgentPaths) :
    ∃ e, runMode platform mode cli settings paths ⟨reports addr status ++ rest, log, s⟩ =
      (some (.error e),
        ⟨rest, log ++ [.sent .ping] ++ [.found (some ⟨some held, status⟩)], s⟩) := by
  have hrefused : ∃ e, ensureAddrMatches cli ⟨some held, status⟩ paths.socket = .error e :=
    ensureAddrMatches_ne hwant hne paths.socket
  obtain ⟨e, hrefused⟩ := hrefused
  refine ⟨e, ?_⟩
  simp only [runMode, bind, probeDaemon_reports haddr, Await.observe, hrefused]
  rfl

/-- **`--addr` means this device and no other**: when the agent on the resolved
socket reports another address, whatever the config file says, the invocation
fails, and nothing but the ping is sent. -/
theorem explicitAddr_refused [Unicode] (platform : Platform) (cli : Cli)
    (file : Except String (Option FileConfig)) {want held : BDAddr} (addr : String)
    (status : Option AgentStatus) (rest : List ClientAnswer) (hagent : cli.command = none)
    (hscan : cli.scanMode = none) (haddr : platform.parseAddr addr = .ok held)
    (hwant : cli.explicitAddr = some want) (hne : want ≠ held) :
    ∃ e stage, runCli platform cli file ⟨reports addr status ++ rest, [], ()⟩ =
        (some (.error e), stage) ∧
      ∀ request, .sent request ∈ stage.log → request = .ping := by
  cases hsettings : file.bind cli.settings with
  | error e => exact ⟨e, _, by simp only [runCli, hsettings]; rfl, by simp⟩
  | ok settings =>
    cases hprefix : cli.validatePrefix (cli.mode platform.now) with
    | error e =>
      exact ⟨e, _, by simp only [runCli, hsettings, hagent, hprefix]; rfl, by simp⟩
    | ok _ =>
      obtain ⟨e, hrefused⟩ := runMode_refused haddr hwant hne (cli.mode platform.now) settings
        (Cli.agentPaths platform.runtimeDir settings)
      refine ⟨e, _, by simp only [runCli, hsettings, hagent, hprefix, hscan]; exact hrefused, ?_⟩
      simp

/-- Two meters: one is described in the config file, an agent holds the other. -/
def rackAddr : BDAddr := 0xCBDF6B00000B#48

def heldAddr : BDAddr := 0xCBDF6B00000A#48

def bench : Platform where
  runtimeDir := some "/run/user/1000"
  parseAddr s := if s = displayAddr heldAddr then .ok heldAddr else .error "invalid digit"
  toRfc3339 _ := "2021-01-02T03:04:05+00:00"
  timestampOpt secs := some ⟨secs, 0⟩
  now := ⟨1609556645, 0⟩
  scan _ _ := .error "no adapter"
  direct _ _ := .error "device not found"
  serve _ _ _ := .error "device not found"

theorem bench_parseAddr : bench.parseAddr (displayAddr heldAddr) = .ok heldAddr := by
  simp [bench]

theorem explicitAddr_refused_off : letI : Unicode := .ascii
    ∃ e stage,
    runCli bench { connect := { addr := some rackAddr }, off := true } (.ok none)
        ⟨reports (displayAddr heldAddr) none ++ [], [], ()⟩ = (some (.error e), stage) ∧
      ∀ request, .sent request ∈ stage.log → request = .ping :=
  letI : Unicode := .ascii
  explicitAddr_refused bench _ _ _ none [] rfl rfl bench_parseAddr rfl
    (by decide : rackAddr ≠ heldAddr)

/-- A config file with one profile. -/
def rackFile : FileConfig where
  defaults := {}
  devices := ⟨[("rack", { connect := { addr := some rackAddr } })], by simp⟩
  defaultDevice := none
  path := "config.toml"

/-- `--device rack --off` while the agent on the default socket holds the other
meter: the other meter is switched off. -/
theorem profile_superseded : letI : Unicode := .ascii
    let cli : Cli := { device := some "rack", off := true }
    (∃ settings, cli.settings (some rackFile) = .ok settings ∧
      settings.connect.addr = some rackAddr) ∧
    bench.parseAddr (displayAddr heldAddr) = .ok heldAddr ∧ rackAddr ≠ heldAddr ∧
    runCli bench cli (.ok (some rackFile)) ⟨reports (displayAddr heldAddr) none ++
        [.connect (.ok ()), .write (.ok ()), .line (.response (.commandResult 0))], [], ()⟩ =
      (some (.ok ()), ⟨[], [.sent .ping, .found (some ⟨some heldAddr, none⟩),
        .sent (.power false)], ()⟩) := by
  let _ : Unicode := .ascii
  refine ⟨⟨_, rfl, rfl⟩, bench_parseAddr, by decide, ?_⟩
  rfl

end Zone

end Btwattch2
