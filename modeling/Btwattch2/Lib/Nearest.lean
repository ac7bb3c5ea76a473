/-
Btwattch2.Lib.Nearest — the nearest integer, a tie going to the even one, and the
nearest number of `p` significant digits in base `b`.

A number of `p` digits is `m * b ^ e` with `m < b ^ p`; the exponent is not
bounded. `roundTo` is for non-negative numbers, everything below zero rounds to
zero.
-/
import Mathlib.Algebra.Order.Floor.Ring
import Mathlib.Algebra.Order.Round
import Mathlib.Data.Int.Log
import Mathlib.Tactic.Linarith
import Mathlib.Tactic.FieldSimp
import Mathlib.Tactic.Positivity
import Mathlib.Tactic.Ring

set_option linter.unusedSectionVars false

namespace Btwattch2.Lib

variable {K : Type*} [Field K] [LinearOrder K] [IsStrictOrderedRing K] [FloorRing K]

/-! ## To an integer -/

/-- The nearest integer, a tie going to the even one. -/
def nearest (x : K) : ℤ :=
  if 1 / 2 < Int.fract x ∨ (Int.fract x = 1 / 2 ∧ ⌊x⌋ % 2 = 1) then ⌊x⌋ + 1 else ⌊x⌋

theorem abs_nearest_sub_le (x : K) : |(nearest x : K) - x| ≤ 1 / 2 := by
  have hfloor : (⌊x⌋ : K) = x - Int.fract x := (Int.self_sub_fract x).symm
  have hnonneg : 0 ≤ Int.fract x := Int.fract_nonneg x
  have hlt : Int.fract x < 1 := Int.fract_lt_one x
  unfold nearest
  split
  case isTrue h =>
    have hhalf : 1 / 2 ≤ Int.fract x := h.elim le_of_lt fun h => h.1.ge
    rw [Int.cast_add, Int.cast_one, hfloor, abs_le]
    constructor <;> linarith
  case isFalse h =>
    have hhalf : Int.fract x ≤ 1 / 2 := le_of_not_gt fun hgt => h (.inl hgt)
    rw [hfloor, abs_le]
    constructor <;> linarith

/-- Nothing else is as near. -/
theorem nearest_eq_of_abs_lt {x : K} {n : ℤ} (h : |x - n| < 1 / 2) : nearest x = n := by
  have hnear := abs_le.mp (abs_nearest_sub_le x)
  have hn := abs_lt.mp h
  have hlt : ((nearest x : K)) < (n + 1 : ℤ) := by
    push_cast
    linarith
  have hgt : ((n - 1 : ℤ) : K) < nearest x := by
    push_cast
    linarith
  have := Int.cast_lt.mp hlt
  have := Int.cast_lt.mp hgt
  omega

@[simp] theorem nearest_intCast (n : ℤ) : nearest (n : K) = n :=
  nearest_eq_of_abs_lt (by simp)

theorem nearest_mono {x y : K} (h : x ≤ y) : nearest x ≤ nearest y := by
  by_contra hlt
  have hstep : nearest y + 1 ≤ nearest x := by omega
  have hcast : (nearest y : K) + 1 ≤ nearest x := by exact_mod_cast hstep
  have hx := abs_le.mp (abs_nearest_sub_le x)
  have hy := abs_le.mp (abs_nearest_sub_le y)
  -- both are the tie between the two
  have heq : x = y := le_antisymm h (by linarith)
  rw [heq] at hstep
  omega

theorem le_nearest {x : K} {n : ℤ} (h : (n : K) ≤ x) : n ≤ nearest x := by
  simpa using nearest_mono h

theorem nearest_le {x : K} {n : ℤ} (h : x ≤ (n : K)) : nearest x ≤ n := by
  simpa using nearest_mono h

/-! ## Logarithms of fractions -/

/-- How many digits a fraction has in front of the point, up to one: as many as the
numerator has more than the denominator. -/
theorem log_div_natCast {b m n : ℕ} (hb : 1 < b) (hm : m ≠ 0) (hn : n ≠ 0) :
    (Nat.log b m : ℤ) - Nat.log b n - 1 ≤ Int.log b (m / n : K) ∧
      Int.log b (m / n : K) ≤ Nat.log b m - Nat.log b n := by
  have hb0 : (b : K) ≠ 0 := by exact_mod_cast (by omega : b ≠ 0)
  have hm0 : (0 : K) < m := by exact_mod_cast Nat.pos_of_ne_zero hm
  have hn0 : (0 : K) < n := by exact_mod_cast Nat.pos_of_ne_zero hn
  have hmle : (b : K) ^ Nat.log b m ≤ m := by exact_mod_cast Nat.pow_log_le_self b hm
  have hnle : (b : K) ^ Nat.log b n ≤ n := by exact_mod_cast Nat.pow_log_le_self b hn
  have hmlt : (m : K) < (b : K) ^ (Nat.log b m + 1) := by
    exact_mod_cast Nat.lt_pow_succ_log_self hb m
  have hnlt : (n : K) < (b : K) ^ (Nat.log b n + 1) := by
    exact_mod_cast Nat.lt_pow_succ_log_self hb n
  constructor
  · rw [← Int.zpow_le_iff_le_log hb (div_pos hm0 hn0), le_div_iff₀ hn0]
    calc (b : K) ^ ((Nat.log b m : ℤ) - Nat.log b n - 1) * n
        ≤ (b : K) ^ ((Nat.log b m : ℤ) - Nat.log b n - 1) * (b : K) ^ (Nat.log b n + 1) :=
          mul_le_mul_of_nonneg_left hnlt.le (zpow_nonneg (by positivity) _)
      _ = (b : K) ^ Nat.log b m := by
          rw [← zpow_natCast, ← zpow_natCast, ← zpow_add₀ hb0]
          congr 1
          push_cast
          ring
      _ ≤ m := hmle
  · rw [← Int.lt_add_one_iff, ← Int.lt_zpow_iff_log_lt hb (div_pos hm0 hn0), div_lt_iff₀ hn0]
    calc (m : K) < (b : K) ^ (Nat.log b m + 1) := hmlt
      _ = (b : K) ^ ((Nat.log b m : ℤ) - Nat.log b n + 1) * (b : K) ^ Nat.log b n := by
          rw [← zpow_natCast, ← zpow_natCast, ← zpow_add₀ hb0]
          congr 1
          push_cast
          ring
      _ ≤ (b : K) ^ ((Nat.log b m : ℤ) - Nat.log b n + 1) * n :=
          mul_le_mul_of_nonneg_left hnle (zpow_nonneg (by positivity) _)

/-! ## To a number of digits -/

section

variable (b p : ℕ)

/-- One unit in the last of the `p` digits of `q`. -/
def ulp (q : K) : K := (b : K) ^ (Int.log b q - (p - 1))

/-- The nearest number of `p` digits. -/
def roundTo (q : K) : K := if q ≤ 0 then 0 else nearest (q / ulp b p q) * ulp b p q

/-- The numbers of `p` digits. -/
def HasDigits (q : K) : Prop := ∃ (m : ℕ) (e : ℤ), m < b ^ p ∧ q = m * (b : K) ^ e

variable {b p}

theorem hasDigits_zero (hb : 1 < b) : HasDigits b p (0 : K) :=
  ⟨0, 0, Nat.pow_pos (by omega), by simp⟩

theorem ulp_pos (hb : 1 < b) (q : K) : 0 < ulp b p q :=
  zpow_pos (by exact_mod_cast (by omega : 0 < b)) _

theorem base_ne_zero (hb : 1 < b) : (b : K) ≠ 0 := by exact_mod_cast (by omega : b ≠ 0)

theorem base_pos (hb : 1 < b) : 0 < (b : K) := by exact_mod_cast (by omega : 0 < b)

theorem one_lt_base (hb : 1 < b) : 1 < (b : K) := by exact_mod_cast hb

/-- The power of the base at or below `q`, in units of the last digit. -/
theorem zpow_log_eq (hb : 1 < b) (hp : 0 < p) (q : K) :
    (b : K) ^ Int.log b q = (b : K) ^ (p - 1) * ulp b p q := by
  rw [ulp, ← zpow_natCast, ← zpow_add₀ (base_ne_zero hb)]
  congr 1
  omega

theorem zpow_log_add_one_eq (hb : 1 < b) (q : K) :
    (b : K) ^ (Int.log b q + 1) = (b : K) ^ p * ulp b p q := by
  rw [ulp, ← zpow_natCast, ← zpow_add₀ (base_ne_zero hb)]
  congr 1
  omega

theorem pow_le_div_ulp (hb : 1 < b) (hp : 0 < p) {q : K} (hq : 0 < q) :
    (b : K) ^ (p - 1) ≤ q / ulp b p q := by
  rw [le_div_iff₀ (ulp_pos hb q), ← zpow_log_eq hb hp]
  exact Int.zpow_log_le_self hb hq

theorem div_ulp_lt_pow (hb : 1 < b) (q : K) : q / ulp b p q < (b : K) ^ p := by
  rw [div_lt_iff₀ (ulp_pos hb q), ← zpow_log_add_one_eq hb]
  exact Int.lt_zpow_succ_log_self hb q

theorem roundTo_of_pos {q : K} (hq : 0 < q) :
    roundTo b p q = nearest (q / ulp b p q) * ulp b p q := if_neg (not_le.mpr hq)

@[simp] theorem roundTo_zero : roundTo b p (0 : K) = 0 := if_pos le_rfl

theorem abs_roundTo_sub_le (hb : 1 < b) {q : K} (hq : 0 < q) :
    |roundTo b p q - q| ≤ ulp b p q / 2 := by
  have hulp := ulp_pos (p := p) hb q
  calc |roundTo b p q - q|
      = |nearest (q / ulp b p q) - q / ulp b p q| * ulp b p q := by
        rw [roundTo_of_pos hq, ← abs_of_pos hulp, ← abs_mul, abs_of_pos hulp, sub_mul,
          div_mul_cancel₀ _ hulp.ne']
    _ ≤ 1 / 2 * ulp b p q := by
        exact mul_le_mul_of_nonneg_right (abs_nearest_sub_le _) hulp.le
    _ = ulp b p q / 2 := by ring

/-- The relative error of rounding. -/
theorem abs_roundTo_sub_le_mul (hb : 1 < b) (hp : 0 < p) {q : K} (hq : 0 ≤ q) :
    |roundTo b p q - q| ≤ q / (2 * (b : K) ^ (p - 1)) := by
  rcases hq.eq_or_lt with rfl | hpos
  · simp
  have hulp := ulp_pos (p := p) hb q
  have hbase : 0 < (b : K) ^ (p - 1) := pow_pos (base_pos hb) _
  refine (abs_roundTo_sub_le hb hpos).trans ?_
  have hle := pow_le_div_ulp hb hp hpos
  rw [le_div_iff₀ hulp] at hle
  rw [div_le_div_iff₀ (by norm_num) (by positivity)]
  linarith

theorem roundTo_nonneg (hb : 1 < b) (q : K) : 0 ≤ roundTo b p q := by
  unfold roundTo
  split
  · exact le_rfl
  case isFalse h =>
    have hdiv : 0 ≤ q / ulp b p q := div_nonneg (le_of_not_ge h) (ulp_pos hb q).le
    have hnear : 0 ≤ nearest (q / ulp b p q) := le_nearest (by simpa using hdiv)
    exact mul_nonneg (by exact_mod_cast hnear) (ulp_pos hb q).le

/-- Rounding stays between the two powers of the base around `q`. -/
theorem zpow_log_le_roundTo (hb : 1 < b) (hp : 0 < p) {q : K} (hq : 0 < q) :
    (b : K) ^ Int.log b q ≤ roundTo b p q := by
  rw [roundTo_of_pos hq, zpow_log_eq hb hp]
  refine mul_le_mul_of_nonneg_right ?_ (ulp_pos hb q).le
  have h : ((b ^ (p - 1) : ℕ) : ℤ) ≤ nearest (q / ulp b p q) :=
    le_nearest (by simpa using pow_le_div_ulp hb hp hq)
  exact_mod_cast h

theorem roundTo_le_zpow_log (hb : 1 < b) {q : K} (hq : 0 < q) :
    roundTo b p q ≤ (b : K) ^ (Int.log b q + 1) := by
  rw [roundTo_of_pos hq, zpow_log_add_one_eq hb]
  refine mul_le_mul_of_nonneg_right ?_ (ulp_pos hb q).le
  have h : nearest (q / ulp b p q) ≤ ((b ^ p : ℕ) : ℤ) :=
    nearest_le (by simpa using (div_ulp_lt_pow hb q).le)
  exact_mod_cast h

theorem roundTo_mono (hb : 1 < b) (hp : 0 < p) {q r : K} (h : q ≤ r) :
    roundTo b p q ≤ roundTo b p r := by
  rcases le_or_gt q 0 with hq | hq
  · rw [roundTo, if_pos hq]
    exact roundTo_nonneg hb r
  have hr : 0 < r := hq.trans_le h
  rcases (Int.log_mono_right (b := b) hq h).eq_or_lt with heq | hlt
  · -- within one power of the base the unit is the same
    have hulp : ulp b p q = ulp b p r := by rw [ulp, ulp, heq]
    rw [roundTo_of_pos hq, roundTo_of_pos hr, hulp]
    refine mul_le_mul_of_nonneg_right ?_ (ulp_pos hb r).le
    exact_mod_cast nearest_mono (div_le_div_of_nonneg_right h (ulp_pos hb r).le)
  · calc roundTo b p q ≤ (b : K) ^ (Int.log b q + 1) := roundTo_le_zpow_log hb hq
      _ ≤ (b : K) ^ Int.log b r := zpow_le_zpow_right₀ (one_lt_base hb).le hlt
      _ ≤ roundTo b p r := zpow_log_le_roundTo hb hp hr

/-- A power of the base has one digit. -/
theorem hasDigits_zpow (hb : 1 < b) (hp : 0 < p) (e : ℤ) : HasDigits b p ((b : K) ^ e) :=
  ⟨1, e, Nat.one_lt_pow (by omega) hb, by simp⟩

theorem hasDigits_roundTo (hb : 1 < b) (hp : 0 < p) (q : K) : HasDigits b p (roundTo b p q) := by
  rcases le_or_gt q 0 with hq | hq
  · rw [roundTo, if_pos hq]
    exact hasDigits_zero hb
  rcases (roundTo_le_zpow_log (p := p) hb hq).eq_or_lt with heq | hlt
  · rw [heq]
    exact hasDigits_zpow hb hp _
  have hulp := ulp_pos (p := p) hb q
  have hnonneg : 0 ≤ nearest (q / ulp b p q) := le_nearest (by simpa using (div_pos hq hulp).le)
  obtain ⟨m, hm⟩ := Int.eq_ofNat_of_zero_le hnonneg
  have heq : roundTo b p q = m * ulp b p q := by rw [roundTo_of_pos hq, hm, Int.cast_natCast]
  refine ⟨m, Int.log b q - (p - 1), ?_, heq⟩
  rw [heq, zpow_log_add_one_eq hb] at hlt
  exact_mod_cast lt_of_mul_lt_mul_right hlt hulp.le

/-- A number of `p` digits is a whole number of units in its last one. -/
theorem HasDigits.exists_ulps (hb : 1 < b) {q : K} (h : HasDigits b p q) (hq : 0 < q) :
    ∃ n : ℕ, q / ulp b p q = n := by
  obtain ⟨m, e, hm, heq⟩ := h
  have hm0 : m ≠ 0 := by
    rintro rfl
    simp [heq] at hq
  have hlt : q < (b : K) ^ (p + e : ℤ) := by
    rw [zpow_add₀ (base_ne_zero hb), heq, zpow_natCast]
    exact mul_lt_mul_of_pos_right (by exact_mod_cast hm) (zpow_pos (base_pos hb) _)
  have hlog : Int.log b q < p + e := (Int.lt_zpow_iff_log_lt hb hq).mp hlt
  obtain ⟨k, hk⟩ : ∃ k : ℕ, e = Int.log b q - (p - 1) + k :=
    ⟨(e - (Int.log b q - (p - 1))).toNat, by omega⟩
  refine ⟨m * b ^ k, ?_⟩
  rw [div_eq_iff (ulp_pos hb q).ne', ulp, Nat.cast_mul, Nat.cast_pow, mul_assoc, ← zpow_natCast,
    ← zpow_add₀ (base_ne_zero hb), add_comm (k : ℤ), ← hk]
  exact heq

theorem roundTo_of_hasDigits (hb : 1 < b) {q : K} (h : HasDigits b p q) (hq : 0 ≤ q) :
    roundTo b p q = q := by
  rcases hq.eq_or_lt with rfl | hpos
  · exact roundTo_zero
  obtain ⟨n, hn⟩ := h.exists_ulps hb hpos
  have hnear : nearest (q / ulp b p q) = n := by
    rw [hn]
    exact_mod_cast nearest_intCast (K := K) n
  rw [roundTo_of_pos hpos, hnear, Int.cast_natCast, ← hn, div_mul_cancel₀ _ (ulp_pos hb q).ne']

/-- What lies above a number of `p` digits by less than half its last unit rounds
down to it. -/
theorem roundTo_eq_of_lt (hb : 1 < b) {q r : K} (h : HasDigits b p q) (hq : 0 < q)
    (hle : q ≤ r) (hlt : r < q + ulp b p q / 2) : roundTo b p r = q := by
  have hulp := ulp_pos (p := p) hb q
  have hr : 0 < r := hq.trans_le hle
  obtain ⟨n, hn⟩ := h.exists_ulps hb hq
  have hqn : q = n * ulp b p q := (div_eq_iff hulp.ne').mp hn
  -- the next number of `p` digits is at most the next power of the base
  have hnext : q + ulp b p q ≤ (b : K) ^ (Int.log b q + 1) := by
    have hn' : (n : K) < (b : K) ^ p := hn ▸ div_ulp_lt_pow hb q
    have hstep : (n : K) + 1 ≤ (b : K) ^ p := by exact_mod_cast hn'
    calc q + ulp b p q = (n + 1) * ulp b p q := by rw [add_mul, one_mul, ← hqn]
      _ ≤ (b : K) ^ p * ulp b p q := mul_le_mul_of_nonneg_right hstep hulp.le
      _ = (b : K) ^ (Int.log b q + 1) := (zpow_log_add_one_eq hb q).symm
  have hlog : Int.log b r = Int.log b q := by
    have hge : Int.log b q ≤ Int.log b r := Int.log_mono_right hq hle
    have hlt' : Int.log b r < Int.log b q + 1 :=
      (Int.lt_zpow_iff_log_lt hb hr).mp (by linarith)
    omega
  have hsame : ulp b p r = ulp b p q := by rw [ulp, ulp, hlog]
  have hnear : nearest (r / ulp b p q) = n := by
    refine nearest_eq_of_abs_lt ?_
    rw [Int.cast_natCast, ← hn, ← sub_div, abs_of_nonneg (div_nonneg (by linarith) hulp.le),
      div_lt_iff₀ hulp]
    linarith
  rw [roundTo_of_pos hr, hsame, hnear, Int.cast_natCast, ← hqn]

/-- What lies below it by less than half its last unit rounds up to it, unless it is a
power of the base: the numbers below that lie closer. -/
theorem roundTo_eq_of_gt (hb : 1 < b) (hp : 0 < p) {q r : K} (h : HasDigits b p q) (hq : 0 < q)
    (hpow : (b : K) ^ Int.log b q < q) (hle : r ≤ q) (hgt : q - ulp b p q / 2 < r) :
    roundTo b p r = q := by
  have hulp := ulp_pos (p := p) hb q
  obtain ⟨n, hn⟩ := h.exists_ulps hb hq
  have hqn : q = n * ulp b p q := (div_eq_iff hulp.ne').mp hn
  have hprev : (b : K) ^ Int.log b q ≤ q - ulp b p q := by
    rw [zpow_log_eq hb hp] at hpow
    have hlt : (b : K) ^ (p - 1) < n := lt_of_mul_lt_mul_right (hpow.trans_eq hqn) hulp.le
    have hstep : (b : K) ^ (p - 1) + 1 ≤ n := by exact_mod_cast hlt
    calc (b : K) ^ Int.log b q = (b : K) ^ (p - 1) * ulp b p q := zpow_log_eq hb hp q
      _ ≤ (n - 1) * ulp b p q := mul_le_mul_of_nonneg_right (by linarith) hulp.le
      _ = q - ulp b p q := by rw [sub_mul, one_mul, ← hqn]
  have hbelow : (b : K) ^ Int.log b q ≤ r := by linarith
  have hr : 0 < r := (zpow_pos (base_pos hb) _).trans_le hbelow
  have hlog : Int.log b r = Int.log b q :=
    le_antisymm (Int.log_mono_right hr hle) ((Int.zpow_le_iff_le_log hb hr).mp hbelow)
  have hsame : ulp b p r = ulp b p q := by rw [ulp, ulp, hlog]
  have hnear : nearest (r / ulp b p q) = n := by
    refine nearest_eq_of_abs_lt ?_
    rw [Int.cast_natCast, ← hn, ← sub_div, abs_div, abs_of_pos hulp, abs_of_nonpos (by linarith),
      div_lt_iff₀ hulp]
    linarith
  rw [roundTo_of_pos hr, hsame, hnear, Int.cast_natCast, ← hqn]

end

end Btwattch2.Lib
