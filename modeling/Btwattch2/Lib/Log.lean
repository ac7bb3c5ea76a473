/-
Btwattch2.Lib.Log — laws of a log.

`Always law log` says of every entry that it obeys a law of the entries before
it. A log grows at its end, so a law is kept entry by entry (`always_concat`) or
by whole segments (`always_append`).

`lastOf f log` is what the last entry that `f` reads says. A state that is
written by such entries holds it, or what it held before (`get_foldl`).
-/
import Mathlib.Data.List.Basic

namespace Btwattch2.Lib

variable {ω : Type} {law : List ω → ω → Prop}

/-- Every entry obeys the law, given what was logged before it. -/
def Always (law : List ω → ω → Prop) (log : List ω) : Prop :=
  ∀ pre o post, log = pre ++ o :: post → law pre o

theorem always_nil : Always law [] := by
  intro pre o post h
  simp at h

theorem always_append {log seg : List ω} :
    Always law (log ++ seg) ↔ Always law log ∧ Always (fun pre => law (log ++ pre)) seg := by
  constructor
  · intro h
    refine ⟨fun pre o post heq => h pre o (post ++ seg) (by simp [heq]), ?_⟩
    rintro pre o post rfl
    exact h (log ++ pre) o post (by simp)
  · rintro ⟨hlog, hseg⟩ pre o post heq
    rcases List.append_eq_append_iff.mp heq with ⟨mid, rfl, hmid⟩ | ⟨mid, rfl, hmid⟩
    · exact hseg mid o post hmid
    · cases mid with
      | nil =>
        have := hseg [] o post (by simpa using hmid.symm)
        simpa using this
      | cons x mid =>
        obtain ⟨rfl, rfl⟩ := List.cons_eq_cons.mp hmid
        exact hlog pre o mid rfl

theorem always_concat {log : List ω} {o : ω} :
    Always law (log ++ [o]) ↔ Always law log ∧ law log o := by
  rw [always_append]
  refine and_congr_right fun _ => ⟨fun h => ?_, fun h pre x post heq => ?_⟩
  · simpa using h [] o [] rfl
  · cases pre with
    | nil =>
      obtain ⟨rfl, rfl⟩ := List.cons_eq_cons.mp heq
      simpa using h
    | cons y pre => simp at heq

/-- A law that some entries obey whatever comes before them. -/
theorem Always.append {log seg : List ω} (h : Always law log) (hseg : ∀ o ∈ seg, ∀ pre, law pre o) :
    Always law (log ++ seg) :=
  always_append.mpr ⟨h, fun pre o _ heq => hseg o (by simp [heq]) _⟩

/-- A law kept throughout a log is kept throughout what came before an entry. -/
theorem Always.of_prefix {log pre post : List ω} {o : ω} (h : Always law log)
    (hlog : log = pre ++ o :: post) : Always law pre := by
  rintro pre' x post' rfl
  exact h pre' x (post' ++ o :: post) (by simp [hlog])

theorem always_iff_getElem {log : List ω} :
    Always law log ↔ ∀ i, (h : i < log.length) → law (log.take i) log[i] := by
  constructor
  · intro hlaw i h
    refine hlaw _ _ (log.drop (i + 1)) ?_
    rw [List.getElem_cons_drop, List.take_append_drop]
  · rintro hlaw pre o post rfl
    simpa using hlaw pre.length (by simp)

instance {log : List ω} [∀ pre o, Decidable (law pre o)] : Decidable (Always law log) :=
  decidable_of_iff' _ always_iff_getElem

/-! ## The last entry of a kind -/

variable {β σ : Type} {f : ω → Option β}

/-- What the last entry that `f` reads says. -/
def lastOf (f : ω → Option β) (log : List ω) : Option β := (log.filterMap f).getLast?

@[simp] theorem lastOf_nil : lastOf f [] = none := rfl

theorem lastOf_append (log log' : List ω) :
    lastOf f (log ++ log') = (lastOf f log').or (lastOf f log) := by
  simp [lastOf, List.getLast?_append]

theorem lastOf_cons (o : ω) (log : List ω) : lastOf f (o :: log) = (lastOf f log).or (f o) := by
  rw [← List.singleton_append, lastOf_append]
  cases h : f o <;> simp [lastOf, h]

/-- Entries that `f` does not read may be left out. -/
theorem lastOf_filter {keep : ω → Bool} {log : List ω}
    (h : ∀ o ∈ log, keep o = false → f o = none) :
    lastOf f (log.filter keep) = lastOf f log := by
  induction log with
  | nil => rfl
  | cons o log ih =>
    have hlog := ih fun x hx => h x (List.mem_cons_of_mem o hx)
    cases hkeep : keep o with
    | true => rw [List.filter_cons_of_pos hkeep, lastOf_cons, lastOf_cons, hlog]
    | false =>
      rw [List.filter_cons_of_neg (by simp [hkeep]), lastOf_cons, hlog,
        h o List.mem_cons_self hkeep, Option.or_none]

theorem lastOf_isSome {log : List ω} : (lastOf f log).isSome ↔ ∃ o ∈ log, (f o).isSome := by
  induction log with
  | nil => simp
  | cons o log ih =>
    rw [lastOf_cons, Option.isSome_or, Bool.or_eq_true, ih]
    simp [or_comm]

/-- A reader that passes over some entries another one reads says as much only if
it passes over none. -/
theorem length_filterMap_iff {g : ω → Option β} (h : ∀ o, f o = none ∨ f o = g o) (log : List ω) :
    (log.filterMap f).length ≤ (log.filterMap g).length ∧
    ((log.filterMap f).length = (log.filterMap g).length ↔ ∀ o ∈ log, f o = g o) := by
  induction log with
  | nil => simp
  | cons o log ih =>
    obtain ⟨hle, hiff⟩ := ih
    rcases h o with ho | ho
    · cases hg : g o with
      | none => simpa [List.filterMap_cons, ho, hg] using ⟨hle, hiff⟩
      | some b =>
        simp only [List.filterMap_cons, ho, hg, List.length_cons, List.forall_mem_cons,
          reduceCtorEq,
          false_and, iff_false]
        omega
    · cases hg : g o with
      | none => simpa [List.filterMap_cons, ho, hg] using ⟨hle, hiff⟩
      | some b => simpa [List.filterMap_cons, ho, hg] using ⟨hle, hiff⟩

/-- Part of a state that every entry either writes or leaves. -/
theorem get_foldl (get : σ → Option β) {step : σ → ω → σ}
    (hstep : ∀ s o, get (step s o) = (f o).or (get s)) (log : List ω) (s : σ) :
    get (log.foldl step s) = (lastOf f log).or (get s) := by
  induction log generalizing s with
  | nil => rfl
  | cons o log ih => rw [List.foldl_cons, ih, hstep, lastOf_cons, Option.or_assoc]

end Btwattch2.Lib
