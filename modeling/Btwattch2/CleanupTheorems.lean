/-
Btwattch2.CleanupTheorems — what agents leave behind.

An agent that does not crash takes both of its files with it. However many start and
stop, in whatever order their calls come, the race for the claim included, nothing is
left at either path in the end but what was there before the first of them
(`nothing_left`): a file that one of them leaves is one that another has still to unlink.
-/
import Btwattch2.PidFile

namespace Btwattch2.PidFile

open Lib

/-! ## What is owed -/

/-- From here on a process comes to unlink the pid path. -/
def Stage.cleans : Stage → Bool
  | .bailing | .unlinked => false
  | _ => true

/-- The socket path may name the socket of a process at this stage. -/
def Stage.serves : Stage → Bool
  | .bound | .listening | .accepting | .dropping => true
  | _ => false

def Phase.inode : Phase → Option Inode
  | .opened i => some i
  | .holding i _ => some i
  | _ => none

/-- Somebody will unlink the pid path. -/
def World.Cleaner (w : World) : Prop :=
  ∃ p i stage, w.phase p = .holding i stage ∧ stage.cleans = true

/-- What the pid path names will be unlinked, unless it is the leftover. An inode that
was unlinked is not named again. -/
structure Tidy (leftover : Option Inode) (w : World) : Prop where
  fresh : ∀ i ∈ w.pid, i < w.fresh
  known : ∀ p, ∀ i ∈ (w.phase p).inode, i < w.fresh
  lock : ∀ i p, w.lock i = some p → ∃ stage, w.phase p = .holding i stage
  unlinked : ∀ p i, w.phase p = .holding i .unlinked → w.pid ≠ some i
  bailing : ∀ p i, w.phase p = .holding i .bailing → w.pid = some i → w.Cleaner
  owed : ∀ i, w.pid = some i → w.pid = leftover ∨ w.Cleaner ∨ ∃ p, w.phase p = .opened i

/-- The socket path names the socket of a process that will unlink it, or the leftover. -/
def SocketOwned (leftover : Option Proc) (w : World) : Prop :=
  ∀ p, w.socket = some p →
    w.socket = leftover ∨ ∃ i stage, w.phase p = .holding i stage ∧ stage.serves = true

/-! ## What a call does -/

/-- What a call other than a crash does to the phase of its process, the pid path and the
locks. -/
inductive Turn (w : World) (p : Proc) (w' : World) : Prop
  | opens (i : Inode) (hw : w.phase p = .start)
      (phase : w'.phase = Function.update w.phase p (.opened i)) (pid : w'.pid = some i)
      (named : w.pid = some i ∧ w'.fresh = w.fresh ∨ i = w.fresh ∧ w'.fresh = w.fresh + 1)
      (lock : w'.lock = w.lock)
  | leaves (hw : w.phase p = .start ∨ ∃ i q, w.phase p = .opened i ∧ w.lock i = some q)
      (phase : w'.phase = Function.update w.phase p .gone) (pid : w'.pid = w.pid)
      (fresh : w'.fresh = w.fresh) (lock : w'.lock = w.lock)
  | claims (i : Inode) (hw : w.phase p = .opened i)
      (phase : w'.phase = Function.update w.phase p (.holding i .claimed)) (pid : w'.pid = w.pid)
      (fresh : w'.fresh = w.fresh) (lock : w'.lock = Function.update w.lock i (some p))
  | bails (i : Inode) (hw : w.phase p = .holding i .claimed) (hserves : w.serves = true)
      (phase : w'.phase = Function.update w.phase p (.holding i .bailing)) (pid : w'.pid = w.pid)
      (fresh : w'.fresh = w.fresh) (lock : w'.lock = w.lock)
  | moves (i : Inode) (from_ to_ : Stage) (hw : w.phase p = .holding i from_)
      (hto : to_.cleans = true)
      (phase : w'.phase = Function.update w.phase p (.holding i to_)) (pid : w'.pid = w.pid)
      (fresh : w'.fresh = w.fresh) (lock : w'.lock = w.lock)
  | unlinks (i : Inode) (stage : Stage) (hw : w.phase p = .holding i stage)
      (phase : w'.phase = Function.update w.phase p (.holding i .unlinked)) (pid : w'.pid = none)
      (fresh : w'.fresh = w.fresh) (lock : w'.lock = w.lock)
  | closes (i : Inode) (stage : Stage) (hw : w.phase p = .holding i stage)
      (hstage : stage.cleans = false)
      (phase : w'.phase = Function.update w.phase p .gone) (pid : w'.pid = w.pid)
      (fresh : w'.fresh = w.fresh) (lock : w'.lock = Function.update w.lock i none)

theorem step_turn {w w' : World} {p : Proc} {call : Syscall} (hcrash : call ≠ .crash)
    (h : w.step (p, call) = some w') : Turn w p w' := by
  simp only [World.step] at h
  split at h
  case h_1 hp =>
    split at h
    case h_1 i hpid =>
      cases h
      exact .opens i hp rfl hpid (.inl ⟨hpid, rfl⟩) rfl
    case h_2 =>
      cases h
      exact .opens w.fresh hp rfl rfl (.inr ⟨rfl, rfl⟩) rfl
  case h_2 hp =>
    cases h
    exact .leaves (.inl hp) rfl rfl rfl rfl
  case h_3 i hp =>
    split at h
    case h_1 =>
      cases h
      exact .claims i hp rfl rfl rfl rfl
    case h_2 q hlock =>
      cases h
      exact .leaves (.inr ⟨i, q, hp, hlock⟩) rfl rfl rfl rfl
  case h_4 i hp =>
    split at h
    case isTrue hserves =>
      cases h
      exact .bails i hp hserves rfl rfl rfl rfl
    case isFalse => cases h
  case h_7 i hp =>
    split at h
    case h_1 =>
      cases h
      exact .moves i _ .bound hp rfl rfl rfl rfl rfl
    case h_2 => cases h
  case h_15 i hp =>
    cases h
    exact .unlinks i _ hp rfl rfl rfl rfl
  case h_16 i hp =>
    cases h
    exact .closes i _ hp rfl rfl rfl rfl rfl
  case h_17 i hp =>
    cases h
    exact .closes i _ hp rfl rfl rfl rfl rfl
  case h_18 => exact absurd rfl hcrash
  case h_19 => exact absurd rfl hcrash
  case h_20 => exact absurd rfl hcrash
  case h_21 => cases h
  -- the other calls of a holder lead to a stage from which it cleans up
  all_goals
    rename_i hp
    cases h
    exact .moves _ _ _ hp rfl rfl rfl rfl rfl

/-- Others stay where they are. -/
theorem Turn.phase_other {w w' : World} {p q : Proc} (h : Turn w p w') (hq : q ≠ p) :
    w'.phase q = w.phase q := by
  cases h <;> simp [*]

/-! ## The pid path -/

section Step

variable {leftover : Option Inode} {w w' : World} {p : Proc} {ph : Phase}

/-- Who is where the moving process is not going was there before. -/
theorem phase_of_ne {q : Proc} {ph' : Phase} (phase : w'.phase = Function.update w.phase p ph)
    (h : w'.phase q = ph') (hne : ph ≠ ph') : w.phase q = ph' := by
  rw [phase] at h
  by_cases hq : q = p
  · subst hq
    rw [Function.update_self] at h
    exact absurd h hne
  · rwa [Function.update_of_ne hq] at h

/-- A cleaner stays one until it has unlinked the path. -/
theorem World.Cleaner.step (h : w.Cleaner) (phase : w'.phase = Function.update w.phase p ph)
    (hstay : ∀ i stage, w.phase p = .holding i stage → stage.cleans = true →
      ∃ i' stage', ph = .holding i' stage' ∧ stage'.cleans = true) : w'.Cleaner := by
  obtain ⟨q, i, stage, hq, hcleans⟩ := h
  by_cases hqp : q = p
  · subst hqp
    obtain ⟨i', stage', hph, hcleans'⟩ := hstay i stage hq hcleans
    exact ⟨q, i', stage', by rw [phase, Function.update_self, hph], hcleans'⟩
  · exact ⟨q, i, stage, by rw [phase, Function.update_of_ne hqp, hq], hcleans⟩

theorem known_update {fresh : Inode} (h : ∀ q, ∀ i ∈ (w.phase q).inode, i < fresh)
    (phase : w'.phase = Function.update w.phase p ph) (hph : ∀ i ∈ ph.inode, i < fresh) :
    ∀ q, ∀ i ∈ (w'.phase q).inode, i < fresh := by
  intro q i hi
  rw [phase] at hi
  by_cases hq : q = p
  · subst hq
    rw [Function.update_self] at hi
    exact hph i hi
  · rw [Function.update_of_ne hq] at hi
    exact h q i hi

theorem lock_update (h : ∀ i q, w.lock i = some q → ∃ stage, w.phase q = .holding i stage)
    (phase : w'.phase = Function.update w.phase p ph)
    (hph : ∀ i stage, w.phase p = .holding i stage → ∃ stage', ph = .holding i stage') :
    ∀ i q, w.lock i = some q → ∃ stage, w'.phase q = .holding i stage := by
  intro i q hlock
  obtain ⟨stage, hq⟩ := h i q hlock
  by_cases hqp : q = p
  · subst hqp
    obtain ⟨stage', hph'⟩ := hph i stage hq
    exact ⟨stage', by rw [phase, Function.update_self, hph']⟩
  · exact ⟨stage, by rw [phase, Function.update_of_ne hqp, hq]⟩

/-- A call that leaves the pid path alone. -/
theorem Tidy.of_phase (h : Tidy leftover w) (phase : w'.phase = Function.update w.phase p ph)
    (pid : w'.pid = w.pid) (fresh : w'.fresh = w.fresh)
    (hknown : ∀ i ∈ ph.inode, i ∈ (w.phase p).inode)
    (hlock : ∀ i q, w'.lock i = some q → ∃ stage, w'.phase q = .holding i stage)
    (hunlinked : ∀ i, ph ≠ .holding i .unlinked) (hcleaner : w.Cleaner → w'.Cleaner)
    (hbailing : ∀ i, ph = .holding i .bailing → w'.Cleaner)
    (howed : ∀ i, w.phase p = .opened i → w.pid = some i → w'.Cleaner) : Tidy leftover w' := by
  constructor
  case fresh =>
    rw [pid, fresh]
    exact h.fresh
  case known =>
    rw [fresh]
    exact known_update h.known phase fun i hi => h.known p i (hknown i hi)
  case lock => exact hlock
  case unlinked =>
    intro q i hq
    rw [pid]
    exact h.unlinked q i (phase_of_ne phase hq (hunlinked i))
  case bailing =>
    intro q i hq hpid
    rw [pid] at hpid
    by_cases hph : ph = .holding i .bailing
    · exact hbailing i hph
    · exact hcleaner (h.bailing q i (phase_of_ne phase hq hph) hpid)
  case owed =>
    intro i hpid
    rw [pid] at hpid ⊢
    obtain hleft | hclean | ⟨q, hq⟩ := h.owed i hpid
    · exact .inl hleft
    · exact .inr (.inl (hcleaner hclean))
    · by_cases hqp : q = p
      · subst hqp
        exact .inr (.inl (howed i hq hpid))
      · exact .inr (.inr ⟨q, by rw [phase, Function.update_of_ne hqp, hq]⟩)

/-- An inode that the path names and somebody has locked has a cleaner. -/
theorem Tidy.cleaner_of_lock (h : Tidy leftover w) {i : Inode} {q : Proc}
    (hlock : w.lock i = some q)
    (hpid : w.pid = some i) : w.Cleaner := by
  obtain ⟨stage, hq⟩ := h.lock i q hlock
  cases hcleans : stage.cleans with
  | true => exact ⟨q, i, stage, hq, hcleans⟩
  | false =>
    cases stage with
    | bailing => exact h.bailing q i hq hpid
    | unlinked => exact absurd hpid (h.unlinked q i hq)
    | _ => cases hcleans

theorem Tidy.opens (h : Tidy leftover w) {i : Inode} (hw : w.phase p = .start)
    (phase : w'.phase = Function.update w.phase p (.opened i)) (pid : w'.pid = some i)
    (named : w.pid = some i ∧ w'.fresh = w.fresh ∨ i = w.fresh ∧ w'.fresh = w.fresh + 1)
    (lock : w'.lock = w.lock) : Tidy leftover w' := by
  have hnew : i < w'.fresh := by
    rcases named with ⟨hpid, hfresh⟩ | ⟨hi, hfresh⟩
    · exact hfresh ▸ h.fresh i hpid
    · rw [hfresh, hi]
      exact Nat.lt_succ_self w.fresh
  have hle : w.fresh ≤ w'.fresh := by
    rcases named with ⟨-, hfresh⟩ | ⟨-, hfresh⟩
    · exact Nat.le_of_eq hfresh.symm
    · exact hfresh ▸ Nat.le_succ w.fresh
  -- a process that holds the inode has seen the path name it before
  have hseen : ∀ q j stage, w'.phase q = .holding j stage → w'.pid = some j →
      w.phase q = .holding j stage ∧ w.pid = some j := by
    intro q j stage hq hj
    have hold := phase_of_ne phase hq (by simp)
    obtain rfl : i = j := Option.some.inj (pid.symm.trans hj)
    have hlt : i < w.fresh := h.known q i (by simp [hold, Phase.inode])
    refine ⟨hold, ?_⟩
    rcases named with ⟨hpid, -⟩ | ⟨hi, -⟩
    · exact hpid
    · exact absurd hlt (hi ▸ Nat.lt_irrefl i)
  constructor
  case fresh =>
    intro j hj
    obtain rfl : i = j := Option.some.inj (pid.symm.trans hj)
    exact hnew
  case known =>
    refine known_update (fun q j hj => Nat.lt_of_lt_of_le (h.known q j hj) hle) phase ?_
    intro j hj
    obtain rfl : i = j := Option.some.inj hj
    exact hnew
  case lock =>
    rw [lock]
    exact lock_update h.lock phase (by simp [hw])
  case unlinked =>
    intro q j hq hj
    obtain ⟨hq', hj'⟩ := hseen q j _ hq hj
    exact h.unlinked q j hq' hj'
  case bailing =>
    intro q j hq hj
    obtain ⟨hq', hj'⟩ := hseen q j _ hq hj
    exact (h.bailing q j hq' hj').step phase (by simp [hw])
  case owed =>
    intro j hj
    obtain rfl : i = j := Option.some.inj (pid.symm.trans hj)
    exact .inr (.inr ⟨p, by rw [phase, Function.update_self]⟩)

theorem Tidy.unlinks (h : Tidy leftover w) {i : Inode} {stage : Stage}
    (hw : w.phase p = .holding i stage)
    (phase : w'.phase = Function.update w.phase p (.holding i .unlinked)) (pid : w'.pid = none)
    (fresh : w'.fresh = w.fresh) (lock : w'.lock = w.lock) : Tidy leftover w' := by
  constructor
  case known =>
    rw [fresh]
    exact known_update h.known phase fun j hj => h.known p j (by simpa [hw, Phase.inode] using hj)
  case lock =>
    rw [lock]
    refine lock_update h.lock phase fun j stage' hj => ?_
    rw [hw] at hj
    cases hj
    exact ⟨_, rfl⟩
  all_goals simp [pid]

theorem Tidy.turn (h : Tidy leftover w) (hturn : Turn w p w') : Tidy leftover w' := by
  cases hturn with
  | opens i hw phase pid named lock => exact h.opens hw phase pid named lock
  | leaves hw phase pid fresh lock =>
    have hcleaner : w.Cleaner → w'.Cleaner := fun hc => hc.step phase (by
      intro i stage hp
      rcases hw with hw | ⟨j, q, hw, -⟩ <;> rw [hw] at hp <;> cases hp)
    refine h.of_phase phase pid fresh (by simp [Phase.inode]) ?_ (by simp) hcleaner (by simp) ?_
    · rw [lock]
      refine lock_update h.lock phase fun i stage hp => ?_
      rcases hw with hw | ⟨j, q, hw, -⟩ <;> rw [hw] at hp <;> cases hp
    · -- the lock of the inode is somebody else's
      intro i hp hpid
      rcases hw with hw | ⟨j, q, hw, hlock⟩
      · rw [hw] at hp
        cases hp
      · rw [hw] at hp
        cases hp
        exact hcleaner (h.cleaner_of_lock hlock hpid)
  | claims i hw phase pid fresh lock =>
    have hclean : w'.Cleaner := ⟨p, i, .claimed, by rw [phase, Function.update_self], rfl⟩
    refine h.of_phase phase pid fresh (by simp [hw, Phase.inode]) ?_ (by simp) (fun _ => hclean)
      (by simp) fun _ _ _ => hclean
    intro j q hlock
    rw [lock] at hlock
    by_cases hj : j = i
    · subst hj
      rw [Function.update_self] at hlock
      cases hlock
      exact ⟨.claimed, by rw [phase, Function.update_self]⟩
    · rw [Function.update_of_ne hj] at hlock
      exact lock_update h.lock phase (by simp [hw]) j q hlock
  | bails i hw hserves phase pid fresh lock =>
    -- the agent that has answered is another one
    obtain ⟨q, j, hq⟩ : ∃ q j, w.phase q = .holding j .accepting := by
      unfold World.serves at hserves
      split at hserves
      case h_1 q _ =>
        split at hserves
        case h_1 j hq => exact ⟨q, j, hq⟩
        case h_2 => cases hserves
      case h_2 => cases hserves
    have hqp : q ≠ p := by
      rintro rfl
      rw [hw] at hq
      cases hq
    have hclean : w'.Cleaner := ⟨q, j, .accepting, by rw [phase, Function.update_of_ne hqp, hq], rfl⟩
    refine h.of_phase phase pid fresh (by simp [hw, Phase.inode]) ?_ (by simp) (fun _ => hclean)
      (fun _ _ => hclean) fun _ _ _ => hclean
    rw [lock]
    refine lock_update h.lock phase fun k stage hk => ?_
    rw [hw] at hk
    cases hk
    exact ⟨_, rfl⟩
  | moves i from_ to_ hw hto phase pid fresh lock =>
    have hclean : w'.Cleaner := ⟨p, i, to_, by rw [phase, Function.update_self], hto⟩
    refine h.of_phase phase pid fresh (by simp [hw, Phase.inode]) ?_ ?_ (fun _ => hclean)
      (fun _ _ => hclean) fun _ _ _ => hclean
    · rw [lock]
      refine lock_update h.lock phase fun j stage hj => ?_
      rw [hw] at hj
      cases hj
      exact ⟨_, rfl⟩
    · rintro j heq
      cases heq
      cases hto
  | unlinks i stage hw phase pid fresh lock => exact h.unlinks hw phase pid fresh lock
  | closes i stage hw hstage phase pid fresh lock =>
    refine h.of_phase phase pid fresh (by simp [Phase.inode]) ?_ (by simp) ?_ (by simp) (by simp [hw])
    · intro j q hlock
      rw [lock] at hlock
      by_cases hj : j = i
      · subst hj
        rw [Function.update_self] at hlock
        cases hlock
      · rw [Function.update_of_ne hj] at hlock
        obtain ⟨stage', hq⟩ := h.lock j q hlock
        have hqp : q ≠ p := by
          rintro rfl
          rw [hw] at hq
          cases hq
          exact hj rfl
        exact ⟨stage', by rw [phase, Function.update_of_ne hqp, hq]⟩
    · intro hc
      refine hc.step phase fun j stage' hj hcleans => ?_
      rw [hw] at hj
      cases hj
      rw [hstage] at hcleans
      cases hcleans

end Step

/-! ## The socket path -/

/-- What a call other than a crash does to the socket path: it is cleared, or named after
the process, or left alone by a process whose own socket is not at stake. -/
theorem step_socket {w w' : World} {p : Proc} {call : Syscall} (hcrash : call ≠ .crash)
    (h : w.step (p, call) = some w') :
    w'.socket = none ∨ (w'.socket = some p ∧ ∃ i, w'.phase p = .holding i .bound) ∨
      w'.socket = w.socket ∧ ∀ i stage, w.phase p = .holding i stage → stage.serves = true →
        ∃ i' stage', w'.phase p = .holding i' stage' ∧ stage'.serves = true := by
  have hidle : ∀ {i : Inode} {from_ : Stage}, w.phase p = .holding i from_ →
      from_.serves = false → ∀ j stage, w.phase p = .holding j stage → stage.serves = true →
        ∃ i' stage', w'.phase p = .holding i' stage' ∧ stage'.serves = true := by
    intro i from_ hp hfrom j stage hj hstage
    rw [hp] at hj
    cases hj
    rw [hfrom] at hstage
    cases hstage
  have hserving : ∀ {i : Inode} (to_ : Stage), to_.serves = true →
      w'.phase = Function.update w.phase p (.holding i to_) →
      ∃ i' stage', w'.phase p = .holding i' stage' ∧ stage'.serves = true := by
    intro i to_ hto phase
    exact ⟨i, to_, by rw [phase, Function.update_self], hto⟩
  simp only [World.step] at h
  split at h
  case h_1 hp => split at h <;> cases h <;> exact .inr (.inr ⟨rfl, by simp [hp]⟩)
  case h_2 hp =>
    cases h
    exact .inr (.inr ⟨rfl, by simp [hp]⟩)
  case h_3 hp => split at h <;> cases h <;> exact .inr (.inr ⟨rfl, by simp [hp]⟩)
  case h_4 hp =>
    split at h <;> cases h
    exact .inr (.inr ⟨rfl, hidle hp rfl⟩)
  case h_6 =>
    cases h
    exact .inl rfl
  case h_7 i hp =>
    split at h <;> cases h
    exact .inr (.inl ⟨rfl, i, by simp [World.goto]⟩)
  case h_9 =>
    cases h
    exact .inr (.inr ⟨rfl, fun _ _ _ _ => hserving .listening rfl rfl⟩)
  case h_10 =>
    cases h
    exact .inr (.inr ⟨rfl, fun _ _ _ _ => hserving .dropping rfl rfl⟩)
  case h_11 =>
    cases h
    exact .inr (.inr ⟨rfl, fun _ _ _ _ => hserving .accepting rfl rfl⟩)
  case h_12 =>
    cases h
    exact .inr (.inr ⟨rfl, fun _ _ _ _ => hserving .dropping rfl rfl⟩)
  case h_13 =>
    cases h
    exact .inr (.inr ⟨rfl, fun _ _ _ _ => hserving .dropping rfl rfl⟩)
  case h_14 =>
    cases h
    exact .inl rfl
  case h_18 => exact absurd rfl hcrash
  case h_19 => exact absurd rfl hcrash
  case h_20 => exact absurd rfl hcrash
  case h_21 => cases h
  -- the other calls are made where the process has no socket at the path
  all_goals
    rename_i hp
    cases h
    exact .inr (.inr ⟨rfl, hidle hp rfl⟩)

theorem SocketOwned.step {leftover : Option Proc} {w w' : World} {p : Proc} {call : Syscall}
    (h : SocketOwned leftover w) (hcrash : call ≠ .crash) (hstep : w.step (p, call) = some w') :
    SocketOwned leftover w' := by
  intro q hq
  obtain hnone | ⟨hown, i, hp⟩ | ⟨hsame, hstays⟩ := step_socket hcrash hstep
  · rw [hnone] at hq
    cases hq
  · obtain rfl : p = q := Option.some.inj (hown.symm.trans hq)
    exact .inr ⟨i, .bound, hp, rfl⟩
  · rw [hsame] at hq ⊢
    obtain hleft | ⟨i, stage, hphase, hserves⟩ := h q hq
    · exact .inl hleft
    · refine .inr ?_
      by_cases hqp : q = p
      · subst hqp
        exact hstays i stage hphase hserves
      · have hother : w'.phase q = w.phase q := (step_turn hcrash hstep).phase_other hqp
        exact ⟨i, stage, hother ▸ hphase, hserves⟩

/-! ## Whole runs -/

theorem tidy_initial {w : World} (h : w.Initial) (hfresh : ∀ i ∈ w.pid, i < w.fresh) :
    Tidy w.pid w := by
  have hphase : ∀ p i stage, w.phase p ≠ .holding i stage := by
    intro p i stage hp
    rcases h.phase p with hs | hs <;> rw [hs] at hp <;> cases hp
  constructor
  case fresh => exact hfresh
  case known =>
    intro p i hi
    rcases h.phase p with hs | hs <;> simp [hs, Phase.inode] at hi
  case lock => simp [h.lock]
  case unlinked => exact fun p i hp => absurd hp (hphase p i _)
  case bailing => exact fun p i hp => absurd hp (hphase p i _)
  case owed => exact fun _ _ => .inl rfl

/-- **Nothing is left behind**: when agents have started and stopped, any number of them
and in any interleaving, without a crash, neither path names anything but what it named
before the first of them. -/
theorem nothing_left {w₀ w : World} {calls : List (Proc × Syscall)} (hinit : w₀.Initial)
    (hfresh : ∀ i ∈ w₀.pid, i < w₀.fresh) (hrun : Transition.run World.step w₀ calls = some w)
    (hcrash : ∀ label ∈ calls, label.2 ≠ .crash)
    (hdone : ∀ p, w.phase p = .start ∨ w.phase p = .gone) :
    (w.pid = none ∨ w.pid = w₀.pid) ∧ (w.socket = none ∨ w.socket = w₀.socket) := by
  have hmeets : Transition.Meets World.step (fun _ label => label.2 ≠ .crash) w₀ calls :=
    Transition.meets_of_mem hcrash
  have hkept : ∀ s label t, Tidy w₀.pid s ∧ SocketOwned w₀.socket s → label.2 ≠ .crash →
      World.step s label = some t → Tidy w₀.pid t ∧ SocketOwned w₀.socket t := by
    rintro s ⟨p, call⟩ t ⟨htidy, howned⟩ hlabel hstep
    exact ⟨htidy.turn (step_turn hlabel hstep), howned.step hlabel hstep⟩
  obtain ⟨htidy, howned⟩ := Transition.run_invariant hkept calls w₀ w
    ⟨tidy_initial hinit hfresh, fun _ _ => .inl rfl⟩ hmeets hrun
  have hnobody : ∀ p i stage, w.phase p ≠ .holding i stage := by
    intro p i stage hp
    rcases hdone p with hs | hs <;> rw [hs] at hp <;> cases hp
  constructor
  · cases hpid : w.pid with
    | none => exact .inl rfl
    | some i =>
      obtain hleft | ⟨p, j, stage, hp, -⟩ | ⟨p, hp⟩ := htidy.owed i hpid
      · exact .inr (hpid ▸ hleft)
      · exact absurd hp (hnobody p j stage)
      · rcases hdone p with hs | hs <;> rw [hs] at hp <;> cases hp
  · cases hsocket : w.socket with
    | none => exact .inl rfl
    | some q =>
      obtain hleft | ⟨i, stage, hq, -⟩ := howned q hsocket
      · exact .inr (hsocket ▸ hleft)
      · exact absurd hq (hnobody q i stage)

/-- Two agents at once: the second takes the claim that the first one's predecessor has
unlinked, the third unlinks its socket, and both stop. -/
def raceOver : List (Proc × Syscall) :=
  [(0, .open), (0, .flock), (0, .probe false), (0, .unlinkStale), (0, .bind true),
    (0, .writePid true), (0, .accept), (1, .open), (0, .exit), (0, .unlinkSocket),
    (0, .unlinkPid), (0, .close), (1, .flock), (1, .probe false), (1, .unlinkStale),
    (1, .bind true), (2, .open), (2, .flock), (2, .probe false), (2, .unlinkStale),
    (2, .bind true), (1, .writePid true), (2, .writePid true), (1, .exit), (2, .exit),
    (1, .unlinkSocket), (1, .unlinkPid), (2, .unlinkSocket), (1, .close), (2, .unlinkPid),
    (2, .close)]

theorem nothing_left_race : ∃ w, Transition.run World.step World.init raceOver = some w ∧
    w.pid = none ∧ w.socket = none := by
  obtain ⟨w, hrun, hdone⟩ : ∃ w, Transition.run World.step World.init raceOver = some w ∧
      ∀ p, w.phase p = .start ∨ w.phase p = .gone := by
    refine ⟨_, rfl, fun p => ?_⟩
    match p with
    | 0 => exact .inr rfl
    | 1 => exact .inr rfl
    | 2 => exact .inr rfl
    | _ + 3 => exact .inl rfl
  have hleft := nothing_left World.init_initial (by simp [World.init]) hrun (by decide) hdone
  exact ⟨w, hrun, by simpa [World.init] using hleft⟩

end Btwattch2.PidFile
