/-
Btwattch2.Lib.Scanner — resynchronising scanners over a stream of symbols.

A scanner looks at the front of what has arrived and answers one of three
things: wait for more, skip one symbol, or emit the next `n` symbols. The one
law that makes it safe to run on a stream cut into pieces is `stable`: a
verdict other than `wait` is not revised by symbols that arrive later.

`scan` runs the verdicts until the scanner waits. Four groups of facts follow
from the laws alone:

* `scan_append` — scanning `b ++ c` at once is scanning `b`, then scanning what
  `b` left behind followed by `c`. Chunking invariance is its iteration.
* `next`, `after` — a scan taken one piece at a time, and what follows so many
  pieces.
* `starts` — the positions and lengths of what is emitted: each is a position
  where the scanner emits, they do not overlap, and none is missed.
* `scan_skip_append`, `scan_emit_append` — how a known prefix is consumed.
-/
import Mathlib.Data.List.Basic
import Mathlib.Data.List.Infix

namespace Btwattch2.Lib

/-- What a scanner makes of the symbols at the front of its buffer. -/
inductive Verdict where
  | wait
  | skip
  | emit (n : Nat)
  deriving DecidableEq, Repr

/-- A resynchronising scanner: the verdict on a buffer, and the laws a run
rests on. An emitted piece is never empty and never longer than the buffer, so
every step shortens it. -/
structure Scanner (α : Type) where
  look : List α → Verdict
  look_nil : look [] = .wait
  emit_pos : ∀ {b n}, look b = .emit n → 0 < n
  emit_le : ∀ {b n}, look b = .emit n → n ≤ b.length
  stable : ∀ {b}, look b ≠ .wait → ∀ c, look (b ++ c) = look b

namespace Scanner

variable {α : Type} (S : Scanner α)

theorem ne_nil_of_look {b : List α} (h : S.look b ≠ .wait) : b ≠ [] := by
  rintro rfl
  exact h S.look_nil

theorem length_pos_of_look {b : List α} (h : S.look b ≠ .wait) : 0 < b.length :=
  List.length_pos_iff.mpr (S.ne_nil_of_look h)

/-- Follow the verdicts until the scanner waits: what was emitted, and the
buffer it waits with. -/
def scan (b : List α) : List (List α) × List α :=
  match _h : S.look b with
  | .wait => ([], b)
  | .skip => scan (b.drop 1)
  | .emit n => (b.take n :: (scan (b.drop n)).1, (scan (b.drop n)).2)
termination_by b.length
decreasing_by
  all_goals
    have hb : 0 < b.length := S.length_pos_of_look (by simp [*])
    simp only [List.length_drop]
  · omega
  all_goals
    have := S.emit_pos ‹_›
    omega

theorem scan_wait {b : List α} (h : S.look b = .wait) : S.scan b = ([], b) := by
  rw [scan]
  split <;> simp_all

theorem scan_skip {b : List α} (h : S.look b = .skip) : S.scan b = S.scan (b.drop 1) := by
  rw [scan]
  split <;> simp_all

theorem scan_emit {b : List α} {n : Nat} (h : S.look b = .emit n) :
    S.scan b = (b.take n :: (S.scan (b.drop n)).1, (S.scan (b.drop n)).2) := by
  rw [scan]
  split <;> simp_all

@[simp] theorem scan_nil : S.scan [] = ([], []) := S.scan_wait S.look_nil

/-- Induction along a scan: one case per verdict. -/
@[elab_as_elim]
theorem scan_induction {motive : List α → Prop}
    (wait : ∀ b, S.look b = .wait → motive b)
    (skip : ∀ b, S.look b = .skip → motive (b.drop 1) → motive b)
    (emit : ∀ b n, S.look b = .emit n → motive (b.drop n) → motive b) (b : List α) :
    motive b := by
  fun_induction S.scan b with
  | case1 b h => exact wait b h
  | case2 b h ih => exact skip b h ih
  | case3 b n h ih => exact emit b n h ih

/-! ## Cutting the stream -/

/-- Scanning in two goes: what the first go leaves behind is the front of the
buffer the second go starts from. -/
theorem scan_append (b c : List α) :
    S.scan (b ++ c) = ((S.scan b).1 ++ (S.scan ((S.scan b).2 ++ c)).1,
      (S.scan ((S.scan b).2 ++ c)).2) := by
  induction b using S.scan_induction with
  | wait b h =>
    simp [S.scan_wait h]
  | skip b h ih =>
    have hc : S.look (b ++ c) = .skip := by rw [S.stable (by simp [h]), h]
    have hd : (b ++ c).drop 1 = b.drop 1 ++ c :=
      List.drop_append_of_le_length (S.length_pos_of_look (by simp [h]))
    rw [S.scan_skip hc, hd, ih, S.scan_skip h]
  | emit b n h ih =>
    have hc : S.look (b ++ c) = .emit n := by rw [S.stable (by simp [h]), h]
    have hd : (b ++ c).drop n = b.drop n ++ c := List.drop_append_of_le_length (S.emit_le h)
    have ht : (b ++ c).take n = b.take n := List.take_append_of_le_length (S.emit_le h)
    rw [S.scan_emit hc, hd, ht, ih, S.scan_emit h]
    simp

/-- What a scan leaves behind is a suffix of what it was given. -/
theorem scan_suffix (b : List α) : (S.scan b).2 <:+ b := by
  induction b using S.scan_induction with
  | wait b h => simp [S.scan_wait h]
  | skip b h ih =>
    rw [S.scan_skip h]
    exact ih.trans (List.drop_suffix 1 b)
  | emit b n h ih =>
    rw [S.scan_emit h]
    exact ih.trans (List.drop_suffix n b)

/-- A scan stops only where the scanner waits. -/
theorem look_scan (b : List α) : S.look (S.scan b).2 = .wait := by
  induction b using S.scan_induction with
  | wait b h => simpa [S.scan_wait h] using h
  | skip b h ih => rwa [S.scan_skip h]
  | emit b n h ih => rwa [S.scan_emit h]

/-- Scanning again what a scan left behind emits nothing. -/
theorem scan_scan (b : List α) : S.scan (S.scan b).2 = ([], (S.scan b).2) :=
  S.scan_wait (S.look_scan b)

/-! ## Known prefixes -/

/-- A prefix that is skipped symbol by symbol leaves no trace. -/
theorem scan_skip_append (pre tail : List α)
    (h : ∀ k, k < pre.length → S.look (pre.drop k ++ tail) = .skip) :
    S.scan (pre ++ tail) = S.scan tail := by
  induction pre with
  | nil => rfl
  | cons a pre ih =>
    have h0 : S.look (a :: pre ++ tail) = .skip := h 0 (by simp)
    rw [S.scan_skip h0]
    exact ih fun k hk => h (k + 1) (by simpa using hk)

/-- A piece the scanner emits whole is the first thing a scan yields. -/
theorem scan_emit_append (piece tail : List α)
    (h : S.look (piece ++ tail) = .emit piece.length) :
    S.scan (piece ++ tail) = (piece :: (S.scan tail).1, (S.scan tail).2) := by
  rw [S.scan_emit h]
  simp

/-! ## One piece at a time -/

/-- The first piece a scan emits, and what follows it; without one, what the
scanner waits with. -/
def next (b : List α) : Option (List α) × List α :=
  match _h : S.look b with
  | .wait => (none, b)
  | .skip => next (b.drop 1)
  | .emit n => (some (b.take n), b.drop n)
termination_by b.length
decreasing_by
  have hb : 0 < b.length := S.length_pos_of_look (by simp [*])
  simp only [List.length_drop]
  omega

theorem next_wait {b : List α} (h : S.look b = .wait) : S.next b = (none, b) := by
  rw [next]
  split <;> simp_all

theorem next_skip {b : List α} (h : S.look b = .skip) : S.next b = S.next (b.drop 1) := by
  rw [next]
  split <;> simp_all

theorem next_emit {b : List α} {n : Nat} (h : S.look b = .emit n) :
    S.next b = (some (b.take n), b.drop n) := by
  rw [next]
  split <;> simp_all

/-- A scan goes on behind the first piece. -/
theorem scan_next (b : List α) :
    S.scan b = ((S.next b).1.toList ++ (S.scan (S.next b).2).1, (S.scan (S.next b).2).2) := by
  induction b using S.scan_induction with
  | wait b h => simp [S.next_wait h]
  | skip b h ih => rw [S.scan_skip h, S.next_skip h, ih]
  | emit b n h ih => simp [S.scan_emit h, S.next_emit h]

/-- What is waited with yields nothing. -/
theorem scan_of_next_none {b : List α} (h : (S.next b).1 = none) :
    S.scan b = ([], (S.next b).2) := by
  induction b using S.scan_induction with
  | wait b hb => rw [S.scan_wait hb, S.next_wait hb]
  | skip b hb ih =>
    rw [S.next_skip hb] at h ⊢
    rw [S.scan_skip hb, ih h]
  | emit b n hb ih =>
    rw [S.next_emit hb] at h
    cases h

/-- A piece is taken off the buffer. -/
theorem length_next_lt {b : List α} (h : (S.next b).1.isSome) : (S.next b).2.length < b.length := by
  induction b using S.scan_induction with
  | wait b hb =>
    rw [S.next_wait hb] at h
    cases h
  | skip b hb ih =>
    have hpos : 0 < b.length := S.length_pos_of_look (by simp [hb])
    rw [S.next_skip hb] at h ⊢
    have hlt := ih h
    simp only [List.length_drop] at hlt
    omega
  | emit b n hb ih =>
    have hpos := S.emit_pos hb
    have hle := S.emit_le hb
    rw [S.next_emit hb, List.length_drop]
    omega

theorem next_skip_append {b : List α} (hb : S.look b = .skip) (c : List α) :
    S.next (b ++ c) = S.next (b.drop 1 ++ c) := by
  have hc : S.look (b ++ c) = .skip := by rw [S.stable (by simp [hb]), hb]
  have hd : (b ++ c).drop 1 = b.drop 1 ++ c :=
    List.drop_append_of_le_length (S.length_pos_of_look (by simp [hb]))
  rw [S.next_skip hc, hd]

/-- A first piece stays the first whatever arrives later. -/
theorem next_append_of_some {b : List α} (h : (S.next b).1.isSome) (c : List α) :
    S.next (b ++ c) = ((S.next b).1, (S.next b).2 ++ c) := by
  induction b using S.scan_induction with
  | wait b hb =>
    rw [S.next_wait hb] at h
    cases h
  | skip b hb ih =>
    rw [S.next_skip hb] at h ⊢
    rw [S.next_skip_append hb, ih h]
  | emit b n hb ih =>
    have hc : S.look (b ++ c) = .emit n := by rw [S.stable (by simp [hb]), hb]
    rw [S.next_emit hc, S.next_emit hb, List.drop_append_of_le_length (S.emit_le hb),
      List.take_append_of_le_length (S.emit_le hb)]

/-- Without one, what arrives later joins what is waited with. -/
theorem next_append_of_none {b : List α} (h : (S.next b).1 = none) (c : List α) :
    S.next (b ++ c) = S.next ((S.next b).2 ++ c) := by
  induction b using S.scan_induction with
  | wait b hb => rw [S.next_wait hb]
  | skip b hb ih =>
    rw [S.next_skip hb] at h ⊢
    rw [S.next_skip_append hb, ih h]
  | emit b n hb ih =>
    rw [S.next_emit hb] at h
    cases h

/-- What follows the first `k` pieces. -/
def after : Nat → List α → List α
  | 0, b => b
  | k + 1, b => after k (S.next b).2

@[simp] theorem after_zero (b : List α) : S.after 0 b = b := rfl

theorem after_succ (k : Nat) (b : List α) : S.after (k + 1) b = S.after k (S.next b).2 := rfl

theorem after_add (k m : Nat) (b : List α) : S.after (k + m) b = S.after m (S.after k b) := by
  induction k generalizing b with
  | zero => rw [Nat.zero_add, after_zero]
  | succ k ih => rw [Nat.succ_add, after_succ, after_succ, ih]

/-- What follows pieces that have arrived grows by what arrives later. -/
theorem after_append {k : Nat} {b : List α} (h : k ≤ (S.scan b).1.length) (c : List α) :
    S.after k (b ++ c) = S.after k b ++ c := by
  induction k generalizing b with
  | zero => rfl
  | succ k ih =>
    have hscan := S.scan_next b
    cases hnext : (S.next b).1 with
    | none =>
      rw [S.scan_of_next_none hnext] at h
      simp at h
    | some piece =>
      have hb := S.next_append_of_some (by rw [hnext]; rfl : (S.next b).1.isSome) c
      rw [hscan, hnext] at h
      rw [after_succ, after_succ, hb]
      exact ih (by simpa using h)

/-! ## Positions -/

/-- Where a scan of `b` emits, and how much: positions count from the front of
`b`. -/
def starts (b : List α) : List (Nat × Nat) :=
  match _h : S.look b with
  | .wait => []
  | .skip => (starts (b.drop 1)).map fun x => (x.1 + 1, x.2)
  | .emit n => (0, n) :: (starts (b.drop n)).map fun x => (x.1 + n, x.2)
termination_by b.length
decreasing_by
  all_goals
    have hb : 0 < b.length := S.length_pos_of_look (by simp [*])
    simp only [List.length_drop]
  · omega
  · have := S.emit_pos ‹_›
    omega

theorem starts_wait {b : List α} (h : S.look b = .wait) : S.starts b = [] := by
  rw [starts]
  split <;> simp_all

theorem starts_skip {b : List α} (h : S.look b = .skip) :
    S.starts b = (S.starts (b.drop 1)).map fun x => (x.1 + 1, x.2) := by
  rw [starts]
  split <;> simp_all

theorem starts_emit {b : List α} {n : Nat} (h : S.look b = .emit n) :
    S.starts b = (0, n) :: (S.starts (b.drop n)).map fun x => (x.1 + n, x.2) := by
  rw [starts]
  split <;> simp_all

/-- What is emitted is what stands at the starts. -/
theorem scan_fst_eq_starts (b : List α) :
    (S.scan b).1 = (S.starts b).map fun x => (b.drop x.1).take x.2 := by
  induction b using S.scan_induction with
  | wait b h => simp [S.scan_wait h, S.starts_wait h]
  | skip b h ih =>
    rw [S.scan_skip h, S.starts_skip h, ih]
    simp [Function.comp_def]
  | emit b n h ih =>
    rw [S.scan_emit h, S.starts_emit h, ih]
    simp [Function.comp_def, Nat.add_comm]

/-- The scanner emits at every start. -/
theorem look_of_mem_starts (b : List α) : ∀ x ∈ S.starts b,
    S.look (b.drop x.1) = .emit x.2 := by
  induction b using S.scan_induction with
  | wait b h => simp [S.starts_wait h]
  | skip b h ih =>
    intro x hx
    rw [S.starts_skip h] at hx
    obtain ⟨y, hy, rfl⟩ := List.mem_map.mp hx
    simpa [Nat.add_comm] using ih y hy
  | emit b n h ih =>
    intro x hx
    rw [S.starts_emit h] at hx
    rcases List.mem_cons.mp hx with rfl | hx
    · simpa using h
    · obtain ⟨y, hy, rfl⟩ := List.mem_map.mp hx
      simpa [Nat.add_comm] using ih y hy

/-- Starts come in order and what is emitted at them does not overlap. -/
theorem starts_pairwise (b : List α) :
    (S.starts b).Pairwise fun x y => x.1 + x.2 ≤ y.1 := by
  induction b using S.scan_induction with
  | wait b h => simp [S.starts_wait h]
  | skip b h ih =>
    rw [S.starts_skip h, List.pairwise_map]
    exact ih.imp fun hxy => by simp only; omega
  | emit b n h ih =>
    rw [S.starts_emit h, List.pairwise_cons, List.pairwise_map]
    refine ⟨?_, ih.imp fun hxy => by simp only; omega⟩
    intro y hy
    obtain ⟨z, -, rfl⟩ := List.mem_map.mp hy
    simp

/-- No emission is missed: a position where the scanner would emit is a start,
lies strictly inside an emitted piece, or lies in what the scan left behind. -/
theorem starts_complete (b : List α) : ∀ p n, S.look (b.drop p) = .emit n →
    (p, n) ∈ S.starts b ∨ (∃ x ∈ S.starts b, x.1 < p ∧ p < x.1 + x.2) ∨
      b.length - (S.scan b).2.length ≤ p := by
  induction b using S.scan_induction with
  | wait b h => intro p n _; simp [S.scan_wait h]
  | skip b h ih =>
    intro p n hp
    cases p with
    | zero => rw [List.drop_zero, h] at hp; cases hp
    | succ p =>
      rw [S.scan_skip h, S.starts_skip h]
      have hp' : S.look ((b.drop 1).drop p) = .emit n := by
        rwa [List.drop_drop, Nat.add_comm]
      rcases ih p n hp' with hm | ⟨x, hx, hlo, hhi⟩ | hr
      · exact .inl (List.mem_map.mpr ⟨_, hm, rfl⟩)
      · exact .inr (.inl ⟨_, List.mem_map.mpr ⟨x, hx, rfl⟩, by simp only; omega,
          by simp only; omega⟩)
      · refine .inr (.inr ?_)
        simp only [List.length_drop] at hr
        omega
  | emit b m h ih =>
    intro p n hp
    rw [S.scan_emit h, S.starts_emit h]
    by_cases hpm : p < m
    · rcases Nat.eq_zero_or_pos p with rfl | hpos
      · rw [List.drop_zero, h] at hp
        cases hp
        exact .inl (by simp)
      · exact .inr (.inl ⟨(0, m), by simp, by simpa using hpos, by simpa using hpm⟩)
    · obtain ⟨q, rfl⟩ : ∃ q, p = m + q := ⟨p - m, by omega⟩
      have hp' : S.look ((b.drop m).drop q) = .emit n := by rwa [List.drop_drop]
      rcases ih q n hp' with hm | ⟨x, hx, hlo, hhi⟩ | hr
      · exact .inl (List.mem_cons_of_mem _ (List.mem_map.mpr ⟨_, hm, by simp [Nat.add_comm]⟩))
      · exact .inr (.inl ⟨_, List.mem_cons_of_mem _ (List.mem_map.mpr ⟨x, hx, rfl⟩),
          by simp only; omega, by simp only; omega⟩)
      · refine .inr (.inr ?_)
        simp only [List.length_drop] at hr
        have := S.emit_le h
        simp only
        omega

end Scanner

end Btwattch2.Lib
