/-
Btwattch2.Lib.Drift — how far a value is off after so many roundings.

`Drift u n a x` says that `a` is `x` but for `n` factors between `1 - u` and `1 + u`.
Roundings add up over a computation on values that are not negative: over a product,
over a quotient by a constant, and over a sum, where the summand with more of them counts.
-/
import Mathlib.Algebra.Order.Field.Basic
import Mathlib.Tactic.Linarith
import Mathlib.Tactic.Positivity
import Mathlib.Tactic.Ring

namespace Btwattch2.Lib

section

variable {K : Type*} [Field K] [LinearOrder K] [IsStrictOrderedRing K]

/-- `a` is `x` after at most `n` roundings of relative error `u`. -/
structure Drift (u : K) (n : ℕ) (a x : K) : Prop where
  lower : (1 - u) ^ n * x ≤ a
  upper : a ≤ (1 + u) ^ n * x

namespace Drift

variable {u a b x y r c : K} {n m : ℕ}

omit [IsStrictOrderedRing K] in
theorem refl (u x : K) : Drift u 0 x x := ⟨by simp, by simp⟩

theorem nonneg (hu : u ≤ 1) (h : Drift u n a x) (hx : 0 ≤ x) : 0 ≤ a :=
  (mul_nonneg (pow_nonneg (sub_nonneg.mpr hu) n) hx).trans h.lower

theorem mono (hu : 0 ≤ u) (hu1 : u ≤ 1) (hx : 0 ≤ x) (h : Drift u n a x) (hnm : n ≤ m) :
    Drift u m a x := by
  have hdown : (1 - u) ^ m ≤ (1 - u) ^ n :=
    pow_le_pow_of_le_one (sub_nonneg.mpr hu1) (by linarith) hnm
  have hup : (1 + u) ^ n ≤ (1 + u) ^ m := pow_le_pow_right₀ (by linarith) hnm
  exact ⟨(mul_le_mul_of_nonneg_right hdown hx).trans h.lower,
    h.upper.trans (mul_le_mul_of_nonneg_right hup hx)⟩

theorem add (ha : Drift u n a x) (hb : Drift u n b y) : Drift u n (a + b) (x + y) := by
  constructor
  · rw [mul_add]
    exact add_le_add ha.lower hb.lower
  · rw [mul_add]
    exact add_le_add ha.upper hb.upper

theorem mul (hu : 0 ≤ u) (hu1 : u ≤ 1) (hx : 0 ≤ x) (hy : 0 ≤ y) (ha : Drift u n a x)
    (hb : Drift u m b y) : Drift u (n + m) (a * b) (x * y) := by
  have hb0 := hb.nonneg hu1 hy
  have hdown : 0 ≤ (1 - u) ^ m * y := mul_nonneg (pow_nonneg (sub_nonneg.mpr hu1) m) hy
  have hup : 0 ≤ (1 + u) ^ n * x := mul_nonneg (pow_nonneg (by linarith) n) hx
  constructor
  · calc (1 - u) ^ (n + m) * (x * y) = (1 - u) ^ n * x * ((1 - u) ^ m * y) := by ring
      _ ≤ a * b := mul_le_mul ha.lower hb.lower hdown (ha.nonneg hu1 hx)
  · calc a * b ≤ (1 + u) ^ n * x * ((1 + u) ^ m * y) := mul_le_mul ha.upper hb.upper hb0 hup
      _ = (1 + u) ^ (n + m) * (x * y) := by ring

theorem div_const (hc : 0 ≤ c) (h : Drift u n a x) : Drift u n (a / c) (x / c) := by
  constructor
  · rw [← mul_div_assoc]
    exact div_le_div_of_nonneg_right h.lower hc
  · rw [← mul_div_assoc]
    exact div_le_div_of_nonneg_right h.upper hc

/-- One more rounding. -/
theorem round (hu : 0 ≤ u) (hu1 : u ≤ 1) (h : Drift u n a x) (hr : |r - a| ≤ a * u) :
    Drift u (n + 1) r x := by
  obtain ⟨hlow, hhigh⟩ := abs_le.mp hr
  constructor
  · calc (1 - u) ^ (n + 1) * x = (1 - u) ^ n * x * (1 - u) := by ring
      _ ≤ a * (1 - u) := mul_le_mul_of_nonneg_right h.lower (sub_nonneg.mpr hu1)
      _ ≤ r := by linarith
  · calc r ≤ a * (1 + u) := by linarith
      _ ≤ (1 + u) ^ n * x * (1 + u) := mul_le_mul_of_nonneg_right h.upper (by linarith)
      _ = (1 + u) ^ (n + 1) * x := by ring

end Drift

end

end Btwattch2.Lib
