/-
Btwattch2.Lib.Table — rows written one after the other, and the cells of a row
written side by side.

A terminator stands behind every row and a separator between two cells. As long as
neither occurs in a cell, what was written is read back by splitting at them.
-/
import Mathlib.Data.List.Basic
import Mathlib.Data.List.TakeDrop
import Mathlib.Data.List.TakeWhile

namespace Btwattch2.Lib

variable {α : Type*} {term a : α}

/-- The rows, each with its terminator. -/
def terminated (term : α) (rows : List (List α)) : List α := rows.flatMap fun row => row ++ [term]

@[simp] theorem terminated_cons (row : List α) (rows : List (List α)) :
    terminated term (row :: rows) = row ++ term :: terminated term rows := by
  simp [terminated]

theorem mem_intercalate {sep : List α} {cells : List (List α)} (h : a ∈ sep.intercalate cells) :
    a ∈ sep ∨ ∃ cell ∈ cells, a ∈ cell := by
  induction cells with
  | nil => simp [List.intercalate_nil] at h
  | cons cell cells ih =>
    cases cells with
    | nil =>
      rw [List.intercalate_singleton] at h
      exact .inr ⟨cell, List.mem_cons_self, h⟩
    | cons next cells =>
      rw [List.intercalate_cons_cons, List.mem_append, List.mem_append] at h
      rcases h with (hcell | hsep) | hrest
      · exact .inr ⟨cell, List.mem_cons_self, hcell⟩
      · exact .inl hsep
      · obtain hsep | ⟨other, hother, ha⟩ := ih hrest
        · exact .inl hsep
        · exact .inr ⟨other, List.mem_cons_of_mem _ hother, ha⟩

/-- A run of characters is cut off where it ends. -/
theorem span_append {p : α → Bool} {run rest : List α} (h : ∀ a ∈ run, p a = true)
    (hrest : ∀ a ∈ rest.head?, p a = false) : (run ++ rest).span p = (run, rest) := by
  rw [List.span_eq_takeWhile_dropWhile, List.takeWhile_append_of_pos h,
    List.dropWhile_append_of_pos h]
  cases rest with
  | nil => simp
  | cons a rest =>
    have ha : p a = false := hrest a rfl
    simp [ha]

variable [BEq α] [LawfulBEq α]

/-- Rows are read back, and nothing is left behind the last one. -/
theorem splitOn_terminated {rows : List (List α)} (h : ∀ row ∈ rows, term ∉ row) :
    (terminated term rows).splitOn term = rows ++ [[]] := by
  induction rows with
  | nil => exact List.splitOn_nil term
  | cons row rows ih =>
    have hrest := ih fun other hother => h other (List.mem_cons_of_mem _ hother)
    rw [terminated_cons, List.splitOn_append_cons_self_of_not_mem (h row List.mem_cons_self),
      hrest, List.cons_append]

end Btwattch2.Lib
