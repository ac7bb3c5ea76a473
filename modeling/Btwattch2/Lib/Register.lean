/-
Btwattch2.Lib.Register — linear feedback shift registers.

A register holds an element of a commutative group, takes in one bit after the
other and is shifted after each. The shift is additive and a bit is worth the
same element whenever it comes in, so what a register holds at the end is
additive in its input (`run_add`). For a checksum this says that an error is
detected independently of the message it strikes: exactly when the register,
started at zero and given the error alone, does not end at zero. Two kinds of
error are detected by that measure:

* `run_ne_zero_of_odd` — an odd number of bits, if some additive map that sees a
  bit come in does not see the shift;
* `run_ne_zero_of_burst` — a burst no longer than a window that is detected by
  itself, if the shift is injective.
-/
import Mathlib.Algebra.Group.Hom.Basic
import Mathlib.Algebra.Ring.Parity
import Mathlib.Data.List.Basic

namespace Btwattch2.Lib

/-- A shift register: what a bit is worth when it comes in, and the shift. -/
structure Register (α : Type) [AddCommGroup α] where
  tap : α
  tap_add_tap : tap + tap = 0
  shift : α →+ α

namespace Register

variable {α : Type} [AddCommGroup α] (R : Register α)

def bit (b : Bool) : α := if b then R.tap else 0

/-- One bit comes in, and the register is shifted. -/
def feed (s : α) (b : Bool) : α := R.shift (s + R.bit b)

/-- The bits come in one after the other. -/
def run (s : α) (bits : List Bool) : α := bits.foldl R.feed s

@[simp] theorem bit_false : R.bit false = 0 := rfl

@[simp] theorem bit_true : R.bit true = R.tap := rfl

@[simp] theorem run_nil (s : α) : R.run s [] = s := rfl

@[simp] theorem run_cons (s : α) (b : Bool) (bits : List Bool) :
    R.run s (b :: bits) = R.run (R.feed s b) bits := rfl

theorem run_append (s : α) (bits bits' : List Bool) :
    R.run s (bits ++ bits') = R.run (R.run s bits) bits' := List.foldl_append

/-! ## Linearity -/

theorem bit_xor (b c : Bool) : R.bit (b ^^ c) = R.bit b + R.bit c := by
  cases b <;> cases c <;> simp [R.tap_add_tap]

theorem feed_add (s t : α) (b c : Bool) : R.feed (s + t) (b ^^ c) = R.feed s b + R.feed t c := by
  rw [feed, bit_xor, add_add_add_comm, map_add]
  rfl

/-- What a register holds is additive in what it held and in what came in. -/
theorem run_add : ∀ {bits error : List Bool} (s t : α), error.length = bits.length →
    R.run (s + t) (List.zipWith (· ^^ ·) bits error) = R.run s bits + R.run t error
  | [], [], _, _, _ => rfl
  | b :: bits, c :: error, s, t, h => by
    rw [List.zipWith_cons_cons, run_cons, feed_add, run_add _ _ (Nat.succ.inj h)]
    rfl

/-- Zeros only shift. -/
theorem run_replicate_false (s : α) (n : Nat) :
    R.run s (List.replicate n false) = R.shift^[n] s := by
  induction n generalizing s with
  | zero => rfl
  | succ n ih =>
    rw [List.replicate_succ, run_cons, ih, Function.iterate_succ_apply, feed, bit_false, add_zero]

theorem iterate_shift_zero (n : Nat) : R.shift^[n] 0 = 0 := Function.iterate_fixed (map_zero _) n

/-- What was held, and what came in, apart. -/
theorem run_eq_add (s : α) (bits : List Bool) :
    R.run s bits = R.shift^[bits.length] s + R.run 0 bits := by
  induction bits generalizing s with
  | nil => simp
  | cons b bits ih =>
    rw [run_cons, run_cons, ih, ih (R.feed 0 b), List.length_cons, Function.iterate_succ_apply,
      feed, feed, zero_add, map_add, ← run_replicate_false, ← run_replicate_false,
      ← run_replicate_false, ← add_assoc]
    congr 1
    have hzeros : List.replicate bits.length false = List.zipWith (· ^^ ·)
        (List.replicate bits.length false) (List.replicate bits.length false) := by simp
    rw [hzeros, run_add _ _ _ rfl, ← hzeros]

/-! ## Errors that are detected -/

/-- An additive map that does not see the shift counts the bits that came in. -/
theorem map_run {β : Type} [AddCommGroup β] (π : α →+ β) (hshift : ∀ s, π (R.shift s) = π s)
    (s : α) (bits : List Bool) : π (R.run s bits) = π s + bits.count true • π R.tap := by
  induction bits generalizing s with
  | nil => simp
  | cons b bits ih =>
    rw [run_cons, ih, feed, hshift, map_add]
    cases b with
    | false => simp
    | true => rw [bit_true, List.count_cons_self, succ_nsmul', add_assoc]

/-- An odd number of bits never cancel. -/
theorem run_ne_zero_of_odd {β : Type} [AddCommGroup β] (π : α →+ β)
    (hshift : ∀ s, π (R.shift s) = π s) (htap : π R.tap ≠ 0) {bits : List Bool}
    (hodd : Odd (bits.count true)) : R.run 0 bits ≠ 0 := by
  obtain ⟨k, hk⟩ := hodd
  intro hzero
  have htwice : π R.tap + π R.tap = 0 := by rw [← map_add, R.tap_add_tap, map_zero]
  have hmap := R.map_run π hshift 0 bits
  rw [hzero, map_zero, zero_add, hk, succ_nsmul, mul_comm, mul_nsmul, two_nsmul, ← nsmul_add,
    htwice, nsmul_zero, zero_add] at hmap
  exact htap hmap.symm

/-- Bits with no one outside a window: zeros, the window, and zeros. -/
theorem exists_window {bits : List Bool} {k n : Nat} (hlen : n ≤ bits.length)
    (h : ∀ i, bits[i]? = some true → k ≤ i ∧ i < k + n) :
    ∃ before window after, window.length = n ∧
      bits = List.replicate before false ++ window ++ List.replicate after false := by
  -- a window that sticks out at the end is moved to the front
  let before := min k (bits.length - n)
  have hzeros : ∀ part : List Bool, (∀ (i : Nat) b, part[i]? = some b → b = false) →
      part = List.replicate part.length false := by
    intro part hpart
    refine List.eq_replicate_iff.mpr ⟨rfl, fun b hb => ?_⟩
    obtain ⟨i, hi⟩ := List.getElem?_of_mem hb
    exact hpart i b hi
  have hfront : bits.take before = List.replicate (bits.take before).length false := by
    refine hzeros _ fun i b hb => Bool.eq_false_iff.mpr fun hone => ?_
    rw [List.getElem?_take] at hb
    split at hb
    · have := h i (hb.trans (congrArg some hone))
      omega
    · cases hb
  have hback : bits.drop (before + n) = List.replicate (bits.drop (before + n)).length false := by
    refine hzeros _ fun i b hb => Bool.eq_false_iff.mpr fun hone => ?_
    rw [List.getElem?_drop] at hb
    have hin : before + n + i < bits.length := (List.getElem?_eq_some_iff.mp hb).1
    have := h _ (hb.trans (congrArg some hone))
    omega
  refine ⟨(bits.take before).length, (bits.drop before).take n,
    (bits.drop (before + n)).length, ?_, ?_⟩
  · rw [List.length_take, List.length_drop]
    omega
  · rw [← hfront, ← hback, List.append_assoc, ← List.drop_drop, List.take_append_drop,
      List.take_append_drop]

/-- A burst that is detected by itself is detected wherever it strikes. -/
theorem run_ne_zero_of_burst (hshift : Function.Injective R.shift) {burst : List Bool}
    (hburst : R.run 0 burst ≠ 0) (before after : Nat) :
    R.run 0 (List.replicate before false ++ burst ++ List.replicate after false) ≠ 0 := by
  rw [run_append, run_append, run_replicate_false, run_replicate_false, iterate_shift_zero]
  intro hzero
  exact hburst (hshift.iterate after (hzero.trans (R.iterate_shift_zero after).symm))

end Register

end Btwattch2.Lib
