/-
Btwattch2.Lib.Progress — runs that come to an end because a rank runs out.

Some of the labels are the system's own steps, the others its surroundings'. When no
step raises the rank and each step of its own lowers it, a run can hold only so many
of these (`rank_run`), whatever the surroundings do in between.
-/
import Btwattch2.Lib.Transition

namespace Btwattch2.Lib.Transition

variable {σ α : Type} {step : σ → α → Option σ} {rank : σ → Nat} {own : α → Bool}

/-- Every step keeps the rank, and one of the system's own lowers it. -/
def Ranked (step : σ → α → Option σ) (rank : σ → Nat) (own : α → Bool) : Prop :=
  ∀ s a t, step s a = some t → rank t + (if own a then 1 else 0) ≤ rank s

theorem rank_run (h : Ranked step rank own) : ∀ {as : List α} {s t : σ},
    run step s as = some t → rank t + as.countP own ≤ rank s := by
  intro as
  induction as with
  | nil =>
    intro s t hrun
    cases hrun
    simp
  | cons a as ih =>
    intro s t hrun
    obtain ⟨u, hstep, hrest⟩ := run_cons hrun
    have hfirst := h s a u hstep
    have hthen := ih hrest
    rw [List.countP_cons]
    omega

end Btwattch2.Lib.Transition
