/-
Btwattch2.Lib.Transition — runs of a partial step function.

`run` takes labels one after the other and refuses as soon as a step does.
`Meets` says that every step of a run satisfies a condition on the state it is
taken from and on its label; `run_invariant` is induction over the steps of
such a run, proved once.
-/
import Mathlib.Data.List.Basic
import Mathlib.Data.List.Induction

namespace Btwattch2.Lib.Transition

variable {σ α : Type} (step : σ → α → Option σ)

/-- Take the labels one after the other; `none` as soon as a step refuses. -/
def run : σ → List α → Option σ
  | s, [] => some s
  | s, a :: as => (step s a).bind fun t => run t as

/-- Every step of the run meets `ok` in the state it is taken from. -/
def Meets (ok : σ → α → Prop) : σ → List α → Prop
  | _, [] => True
  | s, a :: as => ok s a ∧ ∀ t, step s a = some t → Meets ok t as

instance decidableMeets {ok : σ → α → Prop} [∀ s a, Decidable (ok s a)] :
    ∀ (as : List α) (s : σ), Decidable (Meets step ok s as)
  | [], _ => .isTrue trivial
  | a :: as, s =>
    have : ∀ t, Decidable (Meets step ok t as) := decidableMeets as
    inferInstanceAs (Decidable (ok s a ∧ ∀ t ∈ step s a, Meets step ok t as))

variable {step}

theorem run_cons {s u : σ} {a : α} {as : List α} (h : run step s (a :: as) = some u) :
    ∃ t, step s a = some t ∧ run step t as = some u :=
  Option.bind_eq_some_iff.mp h

theorem run_append {s : σ} (as bs : List α) :
    run step s (as ++ bs) = (run step s as).bind fun t => run step t bs := by
  induction as generalizing s with
  | nil => rfl
  | cons a as ih => simp [run, ih, Option.bind_assoc]

/-- The last step of a run. -/
theorem run_concat {s u : σ} {a : α} {as : List α} (h : run step s (as ++ [a]) = some u) :
    ∃ t, run step s as = some t ∧ step t a = some u := by
  rw [run_append] at h
  simpa [run] using Option.bind_eq_some_iff.mp h

/-- A step that is known to be taken, and the rest of the run from where it leads. -/
theorem Meets.cons {ok : σ → α → Prop} {s t : σ} {a : α} {as : List α} (h : step s a = some t)
    (hok : ok s a) (hrest : Meets step ok t as) : Meets step ok s (a :: as) := by
  refine ⟨hok, fun u hu => ?_⟩
  rw [h] at hu
  cases hu
  exact hrest

/-- What holds at the start and is kept by every step that meets `ok` holds
wherever a run of such steps arrives. -/
theorem run_invariant {ok : σ → α → Prop} {inv : σ → Prop}
    (hstep : ∀ s a t, inv s → ok s a → step s a = some t → inv t) :
    ∀ (as : List α) (s t : σ), inv s → Meets step ok s as → run step s as = some t → inv t := by
  intro as
  induction as with
  | nil =>
    intro s t hs _ hrun
    cases hrun
    exact hs
  | cons a as ih =>
    intro s t hs hmeets hrun
    obtain ⟨u, hstep', hrun'⟩ := run_cons hrun
    exact ih u t (hstep s a u hs hmeets.1 hstep') (hmeets.2 u hstep') hrun'

theorem meets_congr {ok ok' : σ → α → Prop} (h : ∀ s a, ok s a ↔ ok' s a) :
    ∀ {as : List α} {s : σ}, Meets step ok s as ↔ Meets step ok' s as
  | [], _ => Iff.rfl
  | a :: _, s => and_congr (h s a) (forall_congr' fun _ => imp_congr Iff.rfl (meets_congr h))

theorem meets_of_forall {ok : σ → α → Prop} (h : ∀ s a, ok s a) : ∀ (as : List α) (s : σ),
    Meets step ok s as
  | [], _ => trivial
  | a :: as, s => ⟨h s a, fun t _ => meets_of_forall h as t⟩

theorem meets_of_mem {ok : α → Prop} : ∀ {as : List α} {s : σ}, (∀ a ∈ as, ok a) →
    Meets step (fun _ a => ok a) s as
  | [], _, _ => trivial
  | a :: _, _, h =>
    ⟨h a List.mem_cons_self, fun _ _ => meets_of_mem fun b hb => h b (List.mem_cons_of_mem a hb)⟩

/-- When every step keeps `inv` exactly if it meets `ok`, and none ever restores
it, a run keeps it exactly if all of its steps meet `ok`. -/
theorem run_iff {ok : σ → α → Prop} {good inv : σ → Prop}
    (hstep : ∀ s a t, good s → step s a = some t → good t ∧ (inv t ↔ inv s ∧ ok s a)) :
    ∀ (as : List α) (s t : σ), good s → run step s as = some t →
      (inv t ↔ inv s ∧ Meets step ok s as) := by
  intro as
  induction as with
  | nil =>
    intro s t _ hrun
    cases hrun
    exact (and_iff_left trivial).symm
  | cons a as ih =>
    intro s t hs hrun
    obtain ⟨u, hstep', hrun'⟩ := run_cons hrun
    obtain ⟨hu, hinv⟩ := hstep s a u hs hstep'
    rw [ih u t hu hrun', hinv, and_assoc]
    refine and_congr_right fun _ => and_congr_right fun _ =>
      ⟨fun hrest v hv => ?_, fun hrest => hrest u hstep'⟩
    cases hstep'.symm.trans hv
    exact hrest

/-- When a step from a state of `inv` leads to one exactly if it meets `ok`, all
states a run visits are of `inv` exactly if all of its steps meet `ok`. -/
theorem visits_iff {ok : σ → α → Prop} {inv : σ → Prop}
    (hstep : ∀ s a t, inv s → step s a = some t → (inv t ↔ ok s a)) (as : List α) :
    ∀ s t : σ, inv s → run step s as = some t →
      ((∀ pre u, pre <+: as → run step s pre = some u → inv u) ↔ Meets step ok s as) := by
  induction as with
  | nil =>
    intro s t hs _
    refine ⟨fun _ => trivial, fun _ pre u hpre hrun => ?_⟩
    obtain rfl := List.prefix_nil.mp hpre
    cases hrun
    exact hs
  | cons a as ih =>
    intro s t hs hrun
    obtain ⟨v, hv, hrun'⟩ := run_cons hrun
    constructor
    · intro hall
      have hinv : inv v := hall [a] v (by simp) (by simp [run, hv])
      refine Meets.cons hv ((hstep s a v hs hv).mp hinv) ?_
      rw [← ih v t hinv hrun']
      intro pre u hpre hu
      exact hall (a :: pre) u (by simpa using hpre) (by simpa [run, hv] using hu)
    · rintro ⟨hok, hrest⟩ pre u hpre hu
      cases pre with
      | nil =>
        cases hu
        exact hs
      | cons b pre =>
        obtain ⟨rfl, hpre'⟩ := List.cons_prefix_cons.mp hpre
        have hinv := (hstep s b v hs hv).mpr hok
        have hu' : run step v pre = some u := by simpa [run, hv] using hu
        exact (ih v t hinv hrun').mpr (hrest v hv) pre u hpre' hu'

theorem meets_append {ok : σ → α → Prop} {s t : σ} (as bs : List α) (h : run step s as = some t) :
    Meets step ok s (as ++ bs) ↔ Meets step ok s as ∧ Meets step ok t bs := by
  induction as generalizing s with
  | nil =>
    cases h
    simp [Meets]
  | cons a as ih =>
    obtain ⟨u, hu, hrun⟩ := run_cons h
    simp [Meets, hu, ih hrun, and_assoc]

/-- As `run_invariant`, for what may speak of the steps taken so far. -/
theorem run_history {ok : σ → α → Prop} {s : σ} {inv : List α → σ → Prop} (hstart : inv [] s)
    (hstep : ∀ as t a u, run step s as = some t → inv as t → ok t a → step t a = some u →
      inv (as ++ [a]) u) (as : List α) :
    ∀ t, Meets step ok s as → run step s as = some t → inv as t := by
  induction as using List.reverseRecOn with
  | nil =>
    intro t _ hrun
    cases hrun
    exact hstart
  | append_singleton as a ih =>
    intro u hmeets hrun
    obtain ⟨t, hrun', hlast⟩ := run_concat hrun
    obtain ⟨hmeets', hok, -⟩ := (meets_append as [a] hrun').mp hmeets
    exact hstep as t a u hrun' (ih t hmeets' hrun') hok hlast

/-! ### An observer beside the run -/

section Observer

variable (step) {β : Type} (observe : β → σ → α → β)

/-- The steps, with what an observer keeps of them. -/
def observed (p : β × σ) (a : α) : Option (β × σ) :=
  (step p.2 a).map fun t => (observe p.1 p.2 a, t)

variable {step}

/-- An observer refuses no run. -/
theorem run_observed {s t : σ} {as : List α} (h : run step s as = some t) (b : β) :
    ∃ c, run (observed step observe) (b, s) as = some (c, t) := by
  induction as generalizing s b with
  | nil =>
    cases h
    exact ⟨b, rfl⟩
  | cons a as ih =>
    obtain ⟨u, hu, hrun⟩ := run_cons h
    obtain ⟨c, hc⟩ := ih hrun (observe b s a)
    exact ⟨c, by simpa [run, observed, hu] using hc⟩

/-- What was observed is a run. -/
theorem run_of_observed {as : List α} {p q : β × σ}
    (h : run (observed step observe) p as = some q) : run step p.2 as = some q.2 := by
  induction as generalizing p with
  | nil =>
    cases h
    rfl
  | cons a as ih =>
    obtain ⟨u, hu, hrun⟩ := run_cons h
    obtain ⟨t, ht, rfl⟩ := Option.map_eq_some_iff.mp hu
    simpa [run, ht] using ih hrun

end Observer

/-- What holds at the start and is kept by every step holds wherever a run
arrives. -/
theorem run_keeps {inv : σ → Prop} (hstep : ∀ s a t, inv s → step s a = some t → inv t)
    {as : List α} {s t : σ} (hs : inv s) (hrun : run step s as = some t) : inv t :=
  run_invariant (fun s a t h (_ : True) => hstep s a t h) as s t hs
    (meets_of_forall (fun _ _ => trivial) as s) hrun

end Btwattch2.Lib.Transition
