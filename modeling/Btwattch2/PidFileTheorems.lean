/-
Btwattch2.PidFileTheorems — when the pid file is an exclusive claim, and when
it is not.

The lock is on an inode and the path is unlinked on exit. A process that opened
the path before the unlink can lock the old inode after the close, while a third
one creates and locks a new file (`race`): two agents run, and the third unlinks
the socket the second has bound. A process that creates the path between another
one's unlink and close overlaps with it for that moment.

`exclusive_of_locksNamed` shows these to be the only ways: as long as every lock
is granted on the inode the path still names and outside that moment, at most
one process holds a claim and no agent loses its socket to another.
-/
import Btwattch2.PidFile

namespace Btwattch2.PidFile

open Lib

/-! ## The invariant -/

/-- Who holds the claim, if anybody: the process, its inode and its stage. -/
abbrev Holder := Option (Proc × Inode × Stage)

/-- The phases and the lock table agree on one holder at most, and a holder that
has not unlinked the pid path finds it naming its own inode. -/
structure HeldBy (w : World) (holder : Holder) : Prop where
  phase : ∀ p fd stage, w.phase p = .holding fd stage ↔ holder = some (p, fd, stage)
  lock : ∀ p fd, w.lock fd = some p ↔ ∃ stage, holder = some (p, fd, stage)
  named : ∀ p fd stage, holder = some (p, fd, stage) → stage ≠ .unlinked → w.pid = some fd

theorem HeldBy.holder_eq {w : World} {holder : Holder} (h : HeldBy w holder) {p : Proc} {fd : Inode}
    {stage : Stage} (hp : w.phase p = .holding fd stage) : holder = some (p, fd, stage) :=
  (h.phase p fd stage).mp hp

theorem HeldBy.atMostOne {w : World} {holder : Holder} (h : HeldBy w holder) : AtMostOne w := by
  rintro p q ⟨fd, stage, hp⟩ ⟨fd', stage', hq⟩
  have := (h.holder_eq hp).symm.trans (h.holder_eq hq)
  cases this
  rfl

theorem heldBy_initial {w : World} (h : w.Initial) : HeldBy w none := by
  refine ⟨?_, ?_, ?_⟩
  · intro p fd stage
    rcases h.phase p with hs | hs <;> simp [hs]
  · intro p fd
    simp [h.lock]
  · intro p fd stage hp
    cases hp

/-- What a step does to the lock table, the phases and the pid path: `p` takes
no part in the claim, takes a free lock, moves on with its claim, or gives it
up. -/
inductive Effect (w : World) (p : Proc) (call : Syscall) (w' : World) : Prop where
  | idle (ph : Phase) (hw : ∀ fd stage, w.phase p ≠ .holding fd stage)
      (hph : ∀ fd stage, ph ≠ .holding fd stage)
      (phase : w'.phase = Function.update w.phase p ph) (lock : w'.lock = w.lock)
      (pid : w'.pid = w.pid ∨ w.pid = none)
  | lock (fd : Inode) (hcall : call = .flock) (hw : w.phase p = .opened fd)
      (hfree : w.lock fd = none)
      (phase : w'.phase = Function.update w.phase p (.holding fd .claimed))
      (lock : w'.lock = Function.update w.lock fd (some p)) (pid : w'.pid = w.pid)
  | move (fd : Inode) (from_ to_ : Stage) (hw : w.phase p = .holding fd from_)
      (hfrom : from_ ≠ .unlinked)
      (phase : w'.phase = Function.update w.phase p (.holding fd to_)) (lock : w'.lock = w.lock)
      (pid : w'.pid = w.pid ∨ to_ = .unlinked)
  | release (fd : Inode) (stage : Stage) (hw : w.phase p = .holding fd stage)
      (phase : w'.phase = Function.update w.phase p .gone)
      (lock : w'.lock = Function.update w.lock fd none) (pid : w'.pid = w.pid)

theorem step_effect {w w' : World} {p : Proc} {call : Syscall}
    (h : w.step (p, call) = some w') : Effect w p call w' := by
  simp only [World.step] at h
  split at h
  case h_1 hp =>
    split at h <;> cases h
    · exact .idle _ (by simp [hp]) (by simp) rfl rfl (.inl rfl)
    · rename_i hpid
      exact .idle _ (by simp [hp]) (by simp) rfl rfl (.inr hpid)
  case h_2 hp => cases h; exact .idle _ (by simp [hp]) (by simp) rfl rfl (.inl rfl)
  case h_3 i hp =>
    split at h <;> cases h
    · rename_i hfree
      exact .lock i rfl hp hfree rfl rfl rfl
    · exact .idle _ (by simp [hp]) (by simp) rfl rfl (.inl rfl)
  case h_4 hp =>
    split at h <;> cases h
    exact .move _ _ _ hp (by simp) rfl rfl (.inl rfl)
  case h_7 hp =>
    split at h <;> cases h
    exact .move _ _ _ hp (by simp) rfl rfl (.inl rfl)
  case h_15 hp => cases h; exact .move _ _ _ hp (by simp) rfl rfl (.inr rfl)
  case h_16 hp => cases h; exact .release _ _ hp rfl rfl rfl
  case h_17 hp => cases h; exact .release _ _ hp rfl rfl rfl
  case h_18 hp => cases h; exact .release _ _ hp rfl rfl rfl
  case h_19 hp => cases h; exact .idle _ (by simp [hp]) (by simp) rfl rfl (.inl rfl)
  case h_20 hp => cases h; exact .idle _ (by simp [hp]) (by simp) rfl rfl (.inl rfl)
  case h_21 => cases h
  -- the other calls of a holder neither take nor give a lock
  all_goals
    rename_i hp
    cases h
    exact .move _ _ _ hp (by simp) rfl rfl (.inl rfl)

/-- The phases after one process changed its own. -/
theorem phase_update_iff {w w' : World} {p : Proc} {ph : Phase} {holder holder' : Holder}
    (h : HeldBy w holder) (phase : w'.phase = Function.update w.phase p ph)
    (hself : ∀ fd stage, ph = .holding fd stage ↔ holder' = some (p, fd, stage))
    (hother : ∀ q fd stage, q ≠ p →
    (holder = some (q, fd, stage) ↔ holder' = some (q, fd, stage))) :
    ∀ q fd stage, w'.phase q = .holding fd stage ↔ holder' = some (q, fd, stage) := by
  intro q fd stage
  rw [phase]
  by_cases hq : q = p
  · subst hq
    rw [Function.update_self]
    exact hself fd stage
  · rw [Function.update_of_ne hq, h.phase]
    exact hother q fd stage hq

/-- Nobody holds the claim when a lock is granted on the inode the path names and
no claim is about to be released with the path already unlinked. -/
theorem holder_eq_none {w : World} {holder : Holder} {fd : Inode} (h : HeldBy w holder)
    (hfree : w.lock fd = none) (hpid : w.pid = some fd)
    (hun : ∀ q i, w.phase q ≠ .holding i .unlinked) : holder = none := by
  match holder, h with
  | none, _ => rfl
  | some (q, i, stage), h =>
    have hstage : stage ≠ .unlinked := by
      rintro rfl
      exact hun q i ((h.phase q i _).mpr rfl)
    have hi : some i = some fd := (h.named q i stage rfl hstage).symm.trans hpid
    have hlock := (h.lock q i).mpr ⟨stage, rfl⟩
    rw [Option.some.inj hi, hfree] at hlock
    cases hlock

theorem heldBy_step {w w' : World} {label : Proc × Syscall} {holder : Holder}
    (h : HeldBy w holder) (hok : LocksNamed w label) (hstep : w.step label = some w') :
    ∃ holder', HeldBy w' holder' := by
  obtain ⟨p, call⟩ := label
  cases step_effect hstep with
  | idle ph hw hph phase lock pid =>
    refine ⟨holder, phase_update_iff h phase (fun fd stage => ?_) (fun _ _ _ _ => Iff.rfl), ?_, ?_⟩
    · exact ⟨fun hp => absurd hp (hph fd stage),
        fun hp => absurd ((h.phase p fd stage).mpr hp) (hw fd stage)⟩
    · intro q fd
      rw [lock, h.lock]
    · intro q fd stage hq hst
      have hnamed := h.named q fd stage hq hst
      rcases pid with hpid | hpid
      · rw [hpid, hnamed]
      · rw [hpid] at hnamed
        cases hnamed
  | lock fd hcall hw hfree phase lock pid =>
    obtain ⟨hpid, hun⟩ := hok hcall fd hw hfree
    obtain rfl := holder_eq_none h hfree hpid hun
    refine ⟨some (p, fd, .claimed),
      phase_update_iff h phase (by simp) (fun q i st hq => ?_), ?_, ?_⟩
    · simp [Ne.symm hq]
    · intro q i
      rw [lock]
      by_cases hi : i = fd
      · subst hi
        simp
      · simpa [Function.update_of_ne hi, Ne.symm hi] using h.lock q i
    · rintro q i stage hq -
      cases hq
      rw [pid, hpid]
  | move fd from_ to_ hw hfrom phase lock pid =>
    obtain rfl := h.holder_eq hw
    refine ⟨some (p, fd, to_), phase_update_iff h phase (by simp) (fun q i st hq => ?_), ?_, ?_⟩
    · simp [Ne.symm hq]
    · intro q i
      rw [lock, h.lock]
      simp
    · intro q i stage hq hst
      cases hq
      rcases pid with hpid | hun
      · rw [hpid, h.named p fd from_ rfl hfrom]
      · exact absurd hun hst
  | release fd stage hw phase lock pid =>
    obtain rfl := h.holder_eq hw
    refine ⟨none, phase_update_iff h phase (by simp) (fun q i st hq => ?_), ?_, ?_⟩
    · simp [Ne.symm hq]
    · intro q i
      rw [lock]
      by_cases hi : i = fd
      · subst hi
        simp
      · simp only [Function.update_of_ne hi, h.lock, Option.some.injEq, Prod.mk.injEq]
        simp [Ne.symm hi]
    · intro q i st hq
      cases hq

/-! ## The claim is exclusive where locks are granted on the named inode -/

/-- A process that unlinks the socket path holds the claim. -/
theorem holds_of_unlinks {w w' : World} {p : Proc} {call : Syscall}
    (h : w.step (p, call) = some w') (hcall : call = .unlinkStale ∨ call = .unlinkSocket) :
    w.Holds p := by
  rcases hcall with rfl | rfl <;> simp only [World.step] at h <;> split at h <;>
    simp_all [World.Holds]

/-- **Mutual exclusion of agents**, in every run whose locks are granted on the
inode the pid path names and outside the moment between a holder's unlink and
its close. -/
theorem exclusive_of_locksNamed {w₀ w : World} {calls : List (Proc × Syscall)}
    (hinit : w₀.Initial) (hrun : Transition.run World.step w₀ calls = some w)
    (hok : Transition.Meets World.step LocksNamed w₀ calls) :
    AtMostOne w ∧ ∀ label w', w.step label = some w' → SparesOthers w label := by
  have hkept : ∀ s label t, (∃ holder, HeldBy s holder) → LocksNamed s label →
      World.step s label = some t → ∃ holder, HeldBy t holder := by
    rintro s label t ⟨holder, h⟩ hlabel hstep
    exact heldBy_step h hlabel hstep
  have hstart : ∃ holder, HeldBy w₀ holder := ⟨none, heldBy_initial hinit⟩
  obtain ⟨holder, hheld⟩ := Transition.run_invariant hkept calls w₀ w hstart hok hrun
  refine ⟨hheld.atMostOne, ?_⟩
  rintro ⟨p, call⟩ w' hstep hcall q hqp - hq
  exact hqp (hheld.atMostOne q p hq (holds_of_unlinks hstep hcall))

/-- A challenger opens the pid file of a running agent and tries its lock. -/
def challenge : List (Proc × Syscall) := [(0, .open), (0, .flock), (1, .open), (1, .flock)]

theorem meets_challenge : Transition.Meets World.step LocksNamed World.init challenge := by
  refine .cons rfl (fun h => nomatch h) (.cons rfl ?_
    (.cons rfl (fun h => nomatch h) (.cons rfl ?_ trivial)))
  · intro _ fd hfd _
    cases hfd
    refine ⟨rfl, fun q i hq => ?_⟩
    by_cases h : q = 0 <;> simp_all [World.goto, World.init]
  · intro _ fd hfd hfree
    cases hfd
    cases hfree

/-- The challenger is refused, and the claim stays with the running agent. -/
theorem exclusive_of_locksNamed_challenger :
    ∃ w, Transition.run World.step World.init challenge = some w ∧ w.phase 1 = .gone ∧
      AtMostOne w ∧ ∀ label w', w.step label = some w' → SparesOthers w label := by
  obtain ⟨w, hrun, hgone⟩ :
      ∃ w, Transition.run World.step World.init challenge = some w ∧ w.phase 1 = .gone :=
    ⟨_, rfl, rfl⟩
  exact ⟨w, hrun, hgone, exclusive_of_locksNamed World.init_initial hrun meets_challenge⟩

/-! ## The race -/

/-- Process 0 starts, serves and exits; process 1 opens the pid path before the
exit and locks the old inode after it; process 2 creates and locks a new one,
and gets no answer from process 1, which has bound but does not serve yet. -/
def race : List (Proc × Syscall) :=
  [(0, .open), (0, .flock), (0, .probe false), (0, .unlinkStale), (0, .bind true),
    (0, .writePid true), (0, .accept), (1, .open), (0, .exit), (0, .unlinkSocket),
    (0, .unlinkPid), (0, .close), (1, .flock), (1, .probe false), (1, .unlinkStale),
    (1, .bind true), (2, .open), (2, .flock), (2, .probe false)]

theorem run_race : ∃ w w', Transition.run World.step World.init race = some w ∧
    w.step (2, .unlinkStale) = some w' ∧ w.phase 1 = .holding 0 .bound ∧
    w.phase 2 = .holding 1 .probed ∧ w.socket = some 1 :=
  ⟨_, _, rfl, rfl, rfl, rfl, rfl⟩

/-- The claim is not exclusive: a run leaves two processes holding it, and the
next call unlinks the socket one of them has bound. -/
theorem claim_not_exclusive :
    (¬ ∀ calls w, Transition.run World.step World.init calls = some w → AtMostOne w) ∧
    ¬ ∀ calls w label w', Transition.run World.step World.init calls = some w →
      w.step label = some w' → SparesOthers w label := by
  obtain ⟨w, w', hrun, hstep, h1, h2, hsock⟩ := run_race
  refine ⟨fun hall => ?_, fun hall => ?_⟩
  · have := hall race w hrun 1 2 ⟨0, .bound, h1⟩ ⟨1, .probed, h2⟩
    cases this
  · exact hall race w (2, .unlinkStale) w' hrun hstep (.inl rfl) 1 (by decide) hsock
      ⟨0, .bound, h1⟩

end Btwattch2.PidFile
