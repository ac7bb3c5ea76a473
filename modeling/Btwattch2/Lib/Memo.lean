/-
Btwattch2.Lib.Memo — a table filled from reports about its keys, with a memo.

Reports come in one after the other, each about one key, and are merged into the
entry of their key. An entry that is `done` is left alone: no further report
about its key is read. `lookup_visitAll` says what becomes of one key: the merge
of its own reports, up to and including the one that makes it done.
-/
import Mathlib.Data.List.AList

namespace Btwattch2.Lib

variable {κ β ρ : Type} [DecidableEq κ]

abbrev Table (κ β : Type) := AList fun _ : κ => β

namespace Memo

variable (merge : β → ρ → β) (done : β → Bool) (init : β)

/-- Read one report about a key, unless its entry is done. A report may turn out
to say nothing. -/
def visit (table : Table κ β) : κ × Option ρ → Table κ β
  | (key, report) =>
    if (table.lookup key).any done then table
    else
      match report with
      | none => table
      | some r => table.insert key (merge ((table.lookup key).getD init) r)

def visitAll (table : Table κ β) (reports : List (κ × Option ρ)) : Table κ β :=
  reports.foldl (visit merge done init) table

/-- The reports about one key that say something, in order. -/
def reportsOf (key : κ) : List (κ × Option ρ) → List ρ :=
  List.filterMap fun x => if x.1 = key then x.2 else none

/-- Merge reports until the entry is done. -/
def mergeUntil : β → List ρ → β
  | b, [] => b
  | b, r :: rs => if done b then b else mergeUntil (merge b r) rs

/-- The first reports up to and including one that satisfies `p`. -/
def through (p : ρ → Bool) : List ρ → List ρ
  | [] => []
  | r :: rs => if p r then [r] else r :: through p rs

theorem mergeUntil_done {b : β} (h : done b = true) (rs : List ρ) :
    mergeUntil merge done b rs = b := by
  cases rs with
  | nil => rfl
  | cons r rs => exact if_pos h

/-! ## One key of the table -/

theorem visit_none (table : Table κ β) (k : κ) :
    visit merge done init table (k, none) = table := by
  simp [visit]

theorem visitAll_cons (table : Table κ β) (x : κ × Option ρ) (reports : List (κ × Option ρ)) :
    visitAll merge done init table (x :: reports) =
      visitAll merge done init (visit merge done init table x) reports := rfl

theorem lookup_visit_ne {key : κ} {x : κ × Option ρ} (h : x.1 ≠ key) (table : Table κ β) :
    (visit merge done init table x).lookup key = table.lookup key := by
  obtain ⟨k, report⟩ := x
  unfold visit
  dsimp only
  split
  · rfl
  · cases report with
    | none => rfl
    | some r => exact AList.lookup_insert_ne (Ne.symm h)

/-- An entry takes the reports about its key until it is done. -/
theorem lookup_visitAll_some : ∀ (reports : List (κ × Option ρ)) {table : Table κ β}
    {key : κ} {b : β},
    table.lookup key = some b →
    (visitAll merge done init table reports).lookup key =
      some (mergeUntil merge done b (reportsOf key reports))
  | [], _, _, _, h => h
  | (k, report) :: reports, table, key, b, h => by
    have ih := fun table' b' h' => @lookup_visitAll_some reports table' key b' h'
    rw [visitAll_cons]
    by_cases hk : k = key
    · subst hk
      cases report with
      | none =>
        rw [visit_none, ih table b h]
        simp [reportsOf]
      | some r =>
        have hreports : reportsOf k ((k, some r) :: reports) = r :: reportsOf k reports := by
          simp [reportsOf]
        rw [hreports, mergeUntil]
        by_cases hdone : done b
        · have hsame : visit merge done init table (k, some r) = table := by simp [visit, h, hdone]
          rw [hsame, ih table b h, if_pos hdone, mergeUntil_done merge done hdone]
        · rw [if_neg hdone]
          refine ih _ (merge b r) ?_
          simp [visit, h, hdone]
    · rw [ih _ b ((lookup_visit_ne merge done init hk table).trans h)]
      simp [reportsOf, hk]

/-- What becomes of a key that is not in the table yet. -/
theorem lookup_visitAll : ∀ (reports : List (κ × Option ρ)) {table : Table κ β} {key : κ},
    table.lookup key = none →
    (visitAll merge done init table reports).lookup key =
      match reportsOf key reports with
      | [] => none
      | r :: rs => some (mergeUntil merge done (merge init r) rs)
  | [], _, _, h => h
  | (k, report) :: reports, table, key, h => by
    rw [visitAll_cons]
    by_cases hk : k = key
    · subst hk
      cases report with
      | none =>
        rw [visit_none, lookup_visitAll reports h]
        simp [reportsOf]
      | some r =>
        have hreports : reportsOf k ((k, some r) :: reports) = r :: reportsOf k reports := by
          simp [reportsOf]
        rw [hreports]
        exact lookup_visitAll_some merge done init reports (by simp [visit, h])
    · rw [lookup_visitAll reports ((lookup_visit_ne merge done init hk table).trans h)]
      simp [reportsOf, hk]

/-! ## The reports that are read -/

/-- When an entry is done as soon as one of its reports satisfies `p`, the ones
that are read are those through the first such report. -/
theorem mergeUntil_eq {p : ρ → Bool} (hdone : ∀ b r, done (merge b r) = (done b || p r)) :
    ∀ (rs : List ρ) {b : β}, done b = false →
      mergeUntil merge done b rs = (through p rs).foldl merge b
  | [], _, _ => rfl
  | r :: rs, b, hb => by
    rw [mergeUntil, if_neg (by simp [hb]), through]
    by_cases hr : p r
    · have hnow : done (merge b r) = true := by simp [hdone, hr]
      rw [if_pos hr, mergeUntil_done merge done hnow]
      rfl
    · rw [if_neg hr, List.foldl_cons]
      exact mergeUntil_eq hdone rs (by simp [hdone, hb, hr])

/-- What a key holds in the end: the merge of its reports through the first that
makes it done, if there are any reports. -/
theorem lookup_visitAll_empty {p : ρ → Bool} (hinit : done init = false)
    (hdone : ∀ b r, done (merge b r) = (done b || p r)) (reports : List (κ × Option ρ)) (key : κ) :
    (visitAll merge done init ∅ reports).lookup key =
      if reportsOf key reports = [] then none
      else some ((through p (reportsOf key reports)).foldl merge init) := by
  rw [lookup_visitAll merge done init reports (AList.lookup_empty key)]
  cases hreports : reportsOf key reports with
  | nil => rfl
  | cons r rs =>
    rw [if_neg (by simp), ← mergeUntil_eq merge done hdone (r :: rs) hinit, mergeUntil,
      if_neg (by simp [hinit])]

theorem exists_through_iff {p : ρ → Bool} {rs : List ρ} :
    (∃ r ∈ through p rs, p r = true) ↔ ∃ r ∈ rs, p r = true := by
  induction rs with
  | nil => simp [through]
  | cons r rs ih =>
    by_cases hr : p r
    · simp [through, hr]
    · simp [through, hr, ih]

theorem through_sublist {p : ρ → Bool} {rs : List ρ} : (through p rs).Sublist rs := by
  induction rs with
  | nil => exact List.Sublist.refl _
  | cons r rs ih =>
    unfold through
    split
    · exact (List.nil_sublist rs).cons_cons r
    · exact ih.cons_cons r

end Memo

end Btwattch2.Lib
