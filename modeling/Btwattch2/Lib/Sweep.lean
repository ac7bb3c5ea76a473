/-
Btwattch2.Lib.Sweep — one pass over a list of keys into a table.

`sweep f` visits the entries of the keys in order, replaces each by what `f`
makes of it and keeps the keys `f` says to keep: a `retain` whose predicate has
effects. When no key is listed twice the order does not matter, and the pass is
a filter of the list and a pointwise change of the table (`sweep_eq`).
-/
import Mathlib.Logic.Function.Basic
import Mathlib.Data.List.Nodup

namespace Btwattch2.Lib

variable {ι σ : Type} [DecidableEq ι]

/-- The keys that are kept, and the table after the pass. -/
def sweep (f : σ → Bool × σ) : List ι → (ι → σ) → List ι × (ι → σ)
  | [], table => ([], table)
  | i :: keys, table =>
    let r := f (table i)
    let rest := sweep f keys (Function.update table i r.2)
    (if r.1 then i :: rest.1 else rest.1, rest.2)

/-- A pass over distinct keys is a filter and a pointwise change. -/
theorem sweep_eq (f : σ → Bool × σ) : ∀ (keys : List ι) (table : ι → σ), keys.Nodup →
    sweep f keys table = (keys.filter fun i => (f (table i)).1,
      fun i => if i ∈ keys then (f (table i)).2 else table i)
  | [], table, _ => by simp [sweep]
  | i :: keys, table, h => by
    obtain ⟨hi, hkeys⟩ := List.nodup_cons.mp h
    have hsame : ∀ j ∈ keys, Function.update table i (f (table i)).2 j = table j := by
      intro j hj
      have hji : j ≠ i := by
        rintro rfl
        exact hi hj
      exact Function.update_of_ne hji _ _
    have hfilter : (keys.filter fun j => (f (Function.update table i (f (table i)).2 j)).1) =
        keys.filter fun j => (f (table j)).1 :=
      List.filter_congr fun j hj => by rw [hsame j hj]
    simp only [sweep, sweep_eq f keys _ hkeys, hfilter, List.filter_cons, Prod.mk.injEq, true_and]
    funext j
    by_cases hj : j ∈ keys
    · simp [hj, hsame j hj]
    · by_cases hji : j = i
      · subst hji
        simp [hi]
      · simp [hj, hji]

end Btwattch2.Lib
