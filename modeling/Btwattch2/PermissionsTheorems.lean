/-
Btwattch2.PermissionsTheorems — the files of an agent are never more open than asked.

What one call does is said once (`step_does`), and the invariant `Private` is kept by
each of these. It holds at every moment of every run (`run_private`), the moment
between `bind` and the `chmod` after it included. A socket whose mode another agent
set takes two agents past the claim at once: where there never are, it is the maker's
mode that counts (`Unmixed`).
-/
import Btwattch2.Permissions

namespace Btwattch2.Permissions

open Lib

/-! ## Permission bits -/

/-- Every bit of `perm` is one of `mode`. -/
def Within (perm mode : ModeT) : Prop := perm &&& ~~~mode = 0

instance (perm mode : ModeT) : Decidable (Within perm mode) := inferInstanceAs (Decidable (_ = _))

theorem within_refl (mode : ModeT) : Within mode mode := BitVec.and_not_self mode

theorem within_created (requested umask : ModeT) : Within (created requested umask) requested := by
  unfold Within created
  ext i
  simp
  grind

/-- What is created while the umask is narrowed to a mode is within that mode. -/
theorem within_narrowed (mode : SocketMode) :
    Within (created 0o777 (narrowed mode &&& 0o777)) (bits mode) := by
  unfold Within created narrowed
  ext i
  simp
  grind

/-! ## The invariant -/

/-- The umask is not the one that was inherited. -/
def Phase.isNarrow : Phase → Bool
  | .narrowed => true
  | .bound _ => true
  | _ => false

/-- The socket was made, and its mode is not set yet. -/
def Phase.isFresh : Phase → Bool
  | .bound ok => ok
  | .restored => true
  | _ => false

/-- A socket that `p` made is within the mode of `p`, or has the mode that the agent
which set it last was asked for. -/
def Node.OpenAsAsked (setup : Proc → Setup) (p : Proc) (node : Node) : Prop :=
  match node.setBy with
  | none => Within node.perm (bits (setup p).mode)
  | some q => node.perm = bits (setup q).mode

/-- No file that an agent made is more open than asked, and every agent has its umask
back. -/
structure Private (setup : Proc → Setup) (w : World) : Prop where
  dir : ∀ node, w.dir = some node → node.by_.isSome → Within node.perm 0o700
  pid : ∀ node, w.pid = some node → node.by_.isSome → Within node.perm 0o600
  socket : ∀ node p, w.socket = some node → node.by_ = some p →
    node.OpenAsAsked setup p ∧ (w.phase p = .listening → node.setBy.isSome)
  umask : ∀ p, w.phase p ≠ .gone → w.umask p =
    if (w.phase p).isNarrow then narrowed (setup p).mode &&& 0o777 else (setup p).umask

/-- No agent changes the mode of another one's socket. -/
structure Unmixed (w : World) : Prop where
  fresh : ∀ node p, w.socket = some node → (w.phase p).isFresh = true → node.by_ = some p
  set : ∀ node p q, w.socket = some node → node.by_ = some p → node.setBy = some q → q = p

/-- Moving on by a call that is none of the others. -/
structure Moves (phase next : Phase) : Prop where
  notGone : phase ≠ .gone
  narrow : next = .gone ∨ next.isNarrow = phase.isNarrow
  fresh : next.isFresh = true → phase.isFresh = true
  next : next ≠ .listening

/-- What a call of one agent does. -/
inductive Does (setup : Proc → Setup) (w : World) (p : Proc) : World → Prop
  | moves {next : Phase} (hmoves : Moves (w.phase p) next) : Does setup w p (w.goto p next)
  | makesDir (hmoves : Moves (w.phase p) .placed) : Does setup w p
      { w.goto p .placed with dir := w.dir.or (some ⟨created 0o700 (w.umask p), some p, none⟩) }
  | makesPid (hmoves : Moves (w.phase p) .claimed) : Does setup w p
      { w.goto p .claimed with pid := w.pid.or (some ⟨created 0o600 (w.umask p), some p, none⟩) }
  | unlinksSocket {next : Phase} (hmoves : Moves (w.phase p) next) :
      Does setup w p { w.goto p next with socket := none }
  | unlinksPid (hmoves : Moves (w.phase p) .gone) :
      Does setup w p { w.goto p .gone with pid := none }
  | narrows : Does setup w p { w.goto p .narrowed with
      umask := Function.update w.umask p (narrowed (setup p).mode &&& 0o777) }
  | binds (hw : w.phase p = .narrowed) : Does setup w p { w.goto p (.bound true) with
      socket := some ⟨created 0o777 (w.umask p), some p, none⟩ }
  | restores {next : Phase} (hnarrow : next.isNarrow = false) (hnext : next ≠ .listening)
      (hfresh : next.isFresh = true → (w.phase p).isFresh = true) :
      Does setup w p { w.goto p next with umask := Function.update w.umask p (setup p).umask }
  | chmods {node : Node} (hw : w.phase p = .restored) (hnode : w.socket = some node) :
      Does setup w p { w.goto p .listening with
        socket := some { node with perm := bits (setup p).mode, setBy := some p } }

variable {setup : Proc → Setup} {w w' : World}

theorem step_does {p : Proc} {call : Syscall} (h : w.step setup (p, call) = some w') :
    Does setup w p w' := by
  have hmoves : ∀ {phase next : Phase}, w.phase p = phase → Moves phase next →
      Moves (w.phase p) next := fun hp h => hp ▸ h
  simp only [World.step] at h
  split at h
  case h_1 hp =>
    cases h
    exact .makesDir (hmoves hp ⟨nofun, .inr rfl, nofun, nofun⟩)
  case h_2 hp =>
    cases h
    exact .moves (hmoves hp ⟨nofun, .inl rfl, nofun, nofun⟩)
  case h_3 hp =>
    cases h
    exact .makesPid (hmoves hp ⟨nofun, .inr rfl, nofun, nofun⟩)
  case h_4 hp =>
    cases h
    exact .moves (hmoves hp ⟨nofun, .inl rfl, nofun, nofun⟩)
  case h_5 hp =>
    cases h
    exact .moves (hmoves hp ⟨nofun, .inl rfl, nofun, nofun⟩)
  case h_6 ok hp =>
    cases h
    cases ok
    · exact .moves (hmoves hp ⟨nofun, .inr rfl, nofun, nofun⟩)
    · exact .unlinksSocket (hmoves hp ⟨nofun, .inr rfl, nofun, nofun⟩)
  case h_7 =>
    cases h
    exact .narrows
  case h_8 hp =>
    split at h
    case h_1 =>
      cases h
      exact .binds hp
    case h_2 => cases h
  case h_9 hp =>
    cases h
    exact .moves (hmoves hp ⟨nofun, .inr rfl, nofun, nofun⟩)
  case h_10 ok hp =>
    cases h
    cases ok
    · exact .restores rfl nofun nofun
    · exact .restores rfl nofun fun _ => by rw [hp]; rfl
  case h_11 hp =>
    split at h
    case h_1 hnode =>
      cases h
      exact .chmods hp hnode
    case h_2 => cases h
  case h_12 hp =>
    cases h
    exact .moves (hmoves hp ⟨nofun, .inr rfl, nofun, nofun⟩)
  case h_13 hp =>
    cases h
    exact .moves (hmoves hp ⟨nofun, .inr rfl, nofun, nofun⟩)
  case h_14 ok hp =>
    cases h
    cases ok
    · exact .moves (hmoves hp ⟨nofun, .inr rfl, nofun, nofun⟩)
    · exact .unlinksSocket (hmoves hp ⟨nofun, .inr rfl, nofun, nofun⟩)
  case h_15 ok hp =>
    cases h
    cases ok
    · exact .moves (hmoves hp ⟨nofun, .inl rfl, nofun, nofun⟩)
    · exact .unlinksPid (hmoves hp ⟨nofun, .inl rfl, nofun, nofun⟩)
  case h_16 => cases h
  case h_17 hgone =>
    cases h
    exact .moves ⟨hgone, .inl rfl, nofun, nofun⟩
  case h_18 => cases h

/-! ## What a call keeps -/

theorem phase_goto (p q : Proc) (next : Phase) :
    (w.goto p next).phase q = if q = p then next else w.phase q := by
  simp [World.goto, Function.update_apply]

theorem phase_goto_self (p : Proc) (next : Phase) : (w.goto p next).phase p = next := by
  simp [phase_goto]

/-- A file that is there, or is made within its bound. -/
theorem or_created {node : Node} {file : Option Node} {requested umask : ModeT} {p : Proc}
    (h : ∀ node, file = some node → node.by_.isSome → Within node.perm requested)
    (hnode : file.or (some ⟨created requested umask, some p, none⟩) = some node)
    (hby : node.by_.isSome) : Within node.perm requested := by
  cases file with
  | some node' => exact h node hnode hby
  | none =>
    cases hnode
    exact within_created requested umask

/-- The umasks, when an agent moves on and keeps its umask. -/
theorem umask_goto {p : Proc} {next : Phase}
    (h : ∀ q, w.phase q ≠ .gone → w.umask q =
      if (w.phase q).isNarrow then narrowed (setup q).mode &&& 0o777 else (setup q).umask)
    (hnarrow : next = .gone ∨ next.isNarrow = (w.phase p).isNarrow) (hw : w.phase p ≠ .gone)
    (q : Proc) (hq : (w.goto p next).phase q ≠ .gone) : w.umask q =
      if ((w.goto p next).phase q).isNarrow then narrowed (setup q).mode &&& 0o777
      else (setup q).umask := by
  rw [phase_goto] at hq ⊢
  split at hq
  case isTrue hqp =>
    subst hqp
    rw [if_pos rfl, hnarrow.resolve_left hq]
    exact h q hw
  case isFalse hqp =>
    rw [if_neg hqp]
    exact h q hq

/-- The umasks, when an agent moves on and sets its own. -/
theorem umask_turned {p : Proc} {next : Phase} {umask : ModeT}
    (h : ∀ q, w.phase q ≠ .gone → w.umask q =
      if (w.phase q).isNarrow then narrowed (setup q).mode &&& 0o777 else (setup q).umask)
    (humask : umask = if next.isNarrow then narrowed (setup p).mode &&& 0o777
      else (setup p).umask)
    (q : Proc) (hq : (w.goto p next).phase q ≠ .gone) : Function.update w.umask p umask q =
      if ((w.goto p next).phase q).isNarrow then narrowed (setup q).mode &&& 0o777
      else (setup q).umask := by
  rw [phase_goto] at hq ⊢
  rw [Function.update_apply]
  split at hq
  case isTrue hqp =>
    subst hqp
    rw [if_pos rfl, if_pos rfl]
    exact humask
  case isFalse hqp =>
    rw [if_neg hqp, if_neg hqp]
    exact h q hq

/-- An agent that is not listening after it moved on. -/
theorem listening_goto {p q : Proc} {next : Phase} (hnext : next ≠ .listening)
    (hq : (w.goto p next).phase q = .listening) : w.phase q = .listening := by
  rw [phase_goto] at hq
  split at hq
  · exact absurd hq hnext
  · exact hq

/-- An agent whose socket is fresh after one moved on. -/
theorem fresh_goto {p q : Proc} {next : Phase}
    (hfresh : next.isFresh = true → (w.phase p).isFresh = true)
    (hq : ((w.goto p next).phase q).isFresh = true) : (w.phase q).isFresh = true := by
  rw [phase_goto] at hq
  split at hq
  case isTrue hqp => exact hqp ▸ hfresh hq
  case isFalse => exact hq

theorem private_step {label : Proc × Syscall} (h : Private setup w)
    (hstep : w.step setup label = some w') : Private setup w' := by
  obtain ⟨p, call⟩ := label
  have hsocket : ∀ {next : Phase}, next ≠ .listening → ∀ node q, w.socket = some node →
      node.by_ = some q → node.OpenAsAsked setup q ∧
        ((w.goto p next).phase q = .listening → node.setBy.isSome) :=
    fun hnext node q hnode hby =>
      (h.socket node q hnode hby).imp_right fun hset hq => hset (listening_goto hnext hq)
  have hdoes := step_does hstep
  cases hdoes with
  | moves hmoves =>
    exact ⟨h.dir, h.pid, hsocket hmoves.next, umask_goto h.umask hmoves.narrow hmoves.notGone⟩
  | makesDir hmoves =>
    exact ⟨fun node => or_created h.dir, h.pid, hsocket hmoves.next,
      umask_goto h.umask hmoves.narrow hmoves.notGone⟩
  | makesPid hmoves =>
    exact ⟨h.dir, fun node => or_created h.pid, hsocket hmoves.next,
      umask_goto h.umask hmoves.narrow hmoves.notGone⟩
  | unlinksSocket hmoves =>
    exact ⟨h.dir, h.pid, nofun, umask_goto h.umask hmoves.narrow hmoves.notGone⟩
  | unlinksPid hmoves =>
    exact ⟨h.dir, nofun, hsocket hmoves.next,
      umask_goto h.umask hmoves.narrow hmoves.notGone⟩
  | narrows => exact ⟨h.dir, h.pid, hsocket nofun, umask_turned h.umask rfl⟩
  | binds hw =>
    refine ⟨h.dir, h.pid, fun node q hnode hby => ?_, ?_⟩
    · cases hnode
      cases hby
      have humask : w.umask p = narrowed (setup p).mode &&& 0o777 := by
        simpa [hw, Phase.isNarrow] using h.umask p (by simp [hw])
      refine ⟨?_, fun hq => ?_⟩
      · show Within (created 0o777 (w.umask p)) (bits (setup p).mode)
        rw [humask]
        exact within_narrowed (setup p).mode
      · exact absurd (hq.symm.trans (phase_goto_self p _)) nofun
    · exact umask_goto h.umask (.inr (by rw [hw]; rfl)) (by simp [hw])
  | restores hnarrow hnext =>
    exact ⟨h.dir, h.pid, hsocket hnext, umask_turned h.umask (by rw [hnarrow]; rfl)⟩
  | chmods hw hnode =>
    refine ⟨h.dir, h.pid, fun node q hnode hby => ?_, ?_⟩
    · cases hnode
      exact ⟨rfl, fun _ => rfl⟩
    · exact umask_goto h.umask (.inr (by rw [hw]; rfl)) (by simp [hw])

theorem holds_of_fresh {phase : Phase} (h : phase.isFresh = true) : phase.holds = true := by
  cases phase <;> first | rfl | cases h

/-- While no two agents are past the claim, the socket that is given a mode is the
agent's own. -/
theorem unmixed_step {label : Proc × Syscall} (h : Unmixed w) (hexclusive : w.Exclusive)
    (hstep : w.step setup label = some w') : Unmixed w' := by
  obtain ⟨p, call⟩ := label
  have hdoes := step_does hstep
  cases hdoes with
  | moves hmoves =>
    exact ⟨fun node q hnode hq => h.fresh node q hnode (fresh_goto hmoves.fresh hq), h.set⟩
  | makesDir hmoves =>
    exact ⟨fun node q hnode hq => h.fresh node q hnode (fresh_goto hmoves.fresh hq), h.set⟩
  | makesPid hmoves =>
    exact ⟨fun node q hnode hq => h.fresh node q hnode (fresh_goto hmoves.fresh hq), h.set⟩
  | unlinksSocket hmoves => exact ⟨nofun, nofun⟩
  | unlinksPid hmoves =>
    exact ⟨fun node q hnode hq => h.fresh node q hnode (fresh_goto hmoves.fresh hq), h.set⟩
  | narrows =>
    have hfresh : Phase.isFresh .narrowed = true → (w.phase p).isFresh = true := nofun
    exact ⟨fun node q hnode hq => h.fresh node q hnode (fresh_goto hfresh hq), h.set⟩
  | binds hw =>
    refine ⟨fun node q hnode hq => ?_, fun node r q hnode _ hset => ?_⟩
    · cases hnode
      by_cases hqp : q = p
      · rw [hqp]
      · have hfresh : (w.phase q).isFresh = true := by simpa [phase_goto, hqp] using hq
        exact absurd (hexclusive q p (holds_of_fresh hfresh) (by rw [hw]; rfl)) hqp
    · cases hnode
      cases hset
  | restores hnarrow hnext hfresh =>
    exact ⟨fun node q hnode hq => h.fresh node q hnode (fresh_goto hfresh hq), h.set⟩
  | @chmods node hw hnode =>
    have hown := h.fresh node p hnode (by rw [hw]; rfl)
    have hfresh : Phase.isFresh .listening = true → (w.phase p).isFresh = true := nofun
    refine ⟨fun node' q hnode' hq => ?_, fun node' r q hnode' hby hset => ?_⟩
    · cases hnode'
      exact h.fresh node q hnode (fresh_goto hfresh hq)
    · cases hnode'
      cases hset
      exact Option.some.inj (hown.symm.trans hby)

theorem private_initial (h : w.Initial setup) : Private setup w where
  dir node hnode hby := by simp [h.nodes node (.inl hnode)] at hby
  pid node hnode hby := by simp [h.nodes node (.inr (.inl hnode))] at hby
  socket node p hnode hby := by simp [h.nodes node (.inr (.inr hnode))] at hby
  umask p _ := by simp [h.phase p, h.umask p, Phase.isNarrow]

theorem unmixed_initial (h : w.Initial setup) : Unmixed w where
  fresh node p _ hp := by simp [h.phase p, Phase.isFresh] at hp
  set node p q hnode hby := by simp [h.nodes node (.inr (.inr hnode))] at hby

/-! ## Whole runs -/

/-- **Nobody is let in who was not to be**: however the calls of any number of agents
come between each other, a directory or a pid file that one of them made is never open
to more than its owner, and a socket to no more than its maker's mode, or than the mode
of the agent that set it last. Where no two of them are past the claim at once it is
the maker's mode that counts, and one that listens has its own socket in just that mode. -/
theorem run_private {calls : List (Proc × Syscall)} (hinit : w.Initial setup)
    (hrun : Transition.run (World.step setup) w calls = some w') :
    (∀ node, w'.dir = some node → node.by_.isSome → Within node.perm 0o700) ∧
      (∀ node, w'.pid = some node → node.by_.isSome → Within node.perm 0o600) ∧
      (∀ node p, w'.socket = some node → node.by_ = some p → node.OpenAsAsked setup p) ∧
      (Transition.Meets (World.step setup) (fun w _ => w.Exclusive) w calls →
        ∀ node p, w'.socket = some node → node.by_ = some p →
          Within node.perm (bits (setup p).mode) ∧
            (w'.phase p = .listening → node.perm = bits (setup p).mode)) ∧
      ∀ p, w'.phase p = .listening → w'.umask p = (setup p).umask := by
  have hkept : Private setup w' := Transition.run_invariant
    (fun _ _ _ h _ hstep => private_step h hstep) calls w w' (private_initial hinit)
    (Transition.meets_of_forall (fun _ _ => trivial) calls w) hrun
  refine ⟨hkept.dir, hkept.pid, fun node p hnode hby => (hkept.socket node p hnode hby).1,
    fun hmeets node p hnode hby => ?_, fun p hp => ?_⟩
  · have hunmixed : Unmixed w' := Transition.run_invariant
      (fun _ _ _ h hexclusive hstep => unmixed_step h hexclusive hstep) calls w w'
      (unmixed_initial hinit) hmeets hrun
    obtain ⟨hopen, hset⟩ := hkept.socket node p hnode hby
    unfold Node.OpenAsAsked at hopen
    split at hopen
    case h_1 hnone => exact ⟨hopen, fun hp => by simp [hnone] at hset; exact absurd hp hset⟩
    case h_2 q hsome =>
      obtain rfl := hunmixed.set node p q hnode hby hsome
      exact ⟨hopen ▸ within_refl _, fun _ => hopen⟩
  · have humask := hkept.umask p (by simp [hp])
    simpa [hp, Phase.isNarrow] using humask

/-- An agent for its group and one for its owner alone, both started with a umask that
withholds nothing. -/
def groupAndOwner : Proc → Setup
  | 0 => ⟨0, ⟨0o660, by decide⟩⟩
  | _ => ⟨0, ⟨0o600, by decide⟩⟩

def World.init (setup : Proc → Setup) : World :=
  ⟨none, none, none, fun p => (setup p).umask, fun _ => .start⟩

theorem World.init_initial (setup : Proc → Setup) : (World.init setup).Initial setup where
  phase _ := rfl
  umask _ := rfl
  nodes node h := by simp [World.init] at h

/-- Both get past the claim, and the second one's socket takes the place of the first's
before the first changes its mode. -/
def crossing : List (Proc × Syscall) :=
  [(0, .mkdir true), (1, .mkdir true), (0, .openPid true), (1, .openPid true),
    (0, .unlinkStale false), (0, .narrow), (0, .bind true), (1, .unlinkStale true), (0, .restore),
    (1, .narrow), (1, .bind true), (0, .chmod true)]

/-- The socket that the second one made is open to the group of the first. -/
theorem run_private_crossing : ∃ w node,
    Transition.run (World.step groupAndOwner) (World.init groupAndOwner) crossing = some w ∧
      w.socket = some node ∧ node.by_ = some 1 ∧ node.perm = 0o660 ∧
      node.OpenAsAsked groupAndOwner 1 := by
  obtain ⟨w, hrun, hsocket⟩ : ∃ w,
      Transition.run (World.step groupAndOwner) (World.init groupAndOwner) crossing = some w ∧
        w.socket = some ⟨0o660, some 1, some 0⟩ := ⟨_, rfl, by decide⟩
  have hprivate := run_private (World.init_initial groupAndOwner) hrun
  exact ⟨w, _, hrun, hsocket, rfl, rfl, hprivate.2.2.1 _ 1 hsocket rfl⟩

end Btwattch2.Permissions
