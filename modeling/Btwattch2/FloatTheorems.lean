/-
Btwattch2.FloatTheorems — results about the `f64` of `Measurement` and `Decimal`:
what rounding does to a value, and that the shortest decimal of a value reads back
as the value.
-/
import Btwattch2.Decimal
import Btwattch2.Lib.Digits
import Btwattch2.Lib.Nearest

namespace Btwattch2.F64

open Lib

/-! ## Exponents -/

theorem log2_eq_log (n : ℕ) : Nat.log2 n = Nat.log 2 n := Nat.log2_eq_log_two

theorem length_toDigits {n : ℕ} (h : n ≠ 0) : (Nat.toDigits 10 n).length = Nat.log 10 n + 1 := by
  refine le_antisymm ((Nat.length_toDigits_le_iff (by decide) (Nat.succ_pos _)).mpr
    (Nat.lt_pow_succ_log_self (by decide) n)) ?_
  by_contra hlt
  have hle : (Nat.toDigits 10 n).length ≤ Nat.log 10 n := by omega
  have hlog : 0 < Nat.log 10 n := Nat.length_toDigits_pos.trans_le hle
  exact absurd ((Nat.length_toDigits_le_iff (by decide) hlog).mp hle)
    (not_lt.mpr (Nat.pow_log_le_self 10 h))

/-- An exponent found from the digits of the numerator and the denominator, which
may be one too many. -/
theorem log_eq_ite {b : ℕ} (hb : 1 < b) {q : ℚ} (hq : 0 < q) {e : ℤ}
    (he : e = Nat.log b q.num.natAbs - Nat.log b q.den) :
    (if (b : ℚ) ^ e ≤ q then e else e - 1) = Int.log b q := by
  have hnum : q.num.natAbs ≠ 0 := by
    have := Rat.num_pos.mpr hq
    omega
  have hdiv : (q.num.natAbs / q.den : ℚ) = q := by
    have habs : ((q.num.natAbs : ℤ) : ℚ) = q.num := by
      rw [Int.natAbs_of_nonneg (Rat.num_pos.mpr hq).le]
    rw [← Int.cast_natCast q.num.natAbs, habs, Rat.num_div_den]
  have hbounds := log_div_natCast (K := ℚ) hb hnum q.den_nz
  rw [hdiv, ← he] at hbounds
  split
  case isTrue h =>
    have := (Int.zpow_le_iff_le_log hb hq).mp h
    omega
  case isFalse h =>
    have := (Int.lt_zpow_iff_log_lt hb hq).mp (not_le.mp h)
    omega

theorem exponent_eq_log {q : ℚ} (hq : 0 < q) : exponent q = Int.log 2 q := by
  rw [← log_eq_ite (b := 2) (by decide) hq rfl]
  simp only [exponent, log2_eq_log]
  rfl

theorem exponent10_eq_log {q : ℚ} (hq : 0 < q) : exponent10 q = Int.log 10 q := by
  have hnum : q.num.natAbs ≠ 0 := by
    have := Rat.num_pos.mpr hq
    omega
  rw [← log_eq_ite (b := 10) (by decide) hq rfl]
  simp only [exponent10, length_toDigits hnum, length_toDigits q.den_nz]
  push_cast
  simp only [add_sub_add_right_eq_sub]

/-! ## Rounding -/

/-- The values of an `f64` that is not negative. -/
def IsFloat (q : ℚ) : Prop := 0 ≤ q ∧ HasDigits 2 53 q

theorem round_eq_roundTo (q : ℚ) : round q = roundTo 2 53 q := by
  unfold round roundTo
  split
  · rfl
  case isFalse h =>
    have hq : 0 < q := not_le.mp h
    rw [exponent_eq_log hq]
    simp only [ulp, nearest, Int.fract]
    push_cast
    norm_num
    rfl

theorem round_nonneg (q : ℚ) : 0 ≤ round q := by
  rw [round_eq_roundTo]
  exact roundTo_nonneg (by decide) q

theorem isFloat_round (q : ℚ) : IsFloat (round q) :=
  ⟨round_nonneg q, by
    rw [round_eq_roundTo]
    exact hasDigits_roundTo (by decide) (by decide) q⟩

theorem isFloat_zero : IsFloat 0 := ⟨le_rfl, hasDigits_zero (by decide)⟩

theorem IsFloat.round_eq {q : ℚ} (h : IsFloat q) : round q = q := by
  rw [round_eq_roundTo]
  exact roundTo_of_hasDigits (by decide) h.2 h.1

theorem round_mono {q r : ℚ} (h : q ≤ r) : round q ≤ round r := by
  rw [round_eq_roundTo, round_eq_roundTo]
  exact roundTo_mono (by decide) (by decide) h

/-- An integer below `2 ^ 53` over a power of two is a value. -/
theorem isFloat_div_pow {m : ℕ} (h : m < 2 ^ 53) (k : ℕ) : IsFloat (m / 2 ^ k) := by
  refine ⟨by positivity, m, -k, h, ?_⟩
  rw [zpow_neg, zpow_natCast, ← div_eq_mul_inv]
  rfl

theorem isFloat_natCast {m : ℕ} (h : m < 2 ^ 53) : IsFloat m := by
  simpa using isFloat_div_pow h 0

/-- The relative error of rounding. -/
theorem abs_round_sub_le {q : ℚ} (h : 0 ≤ q) : |round q - q| ≤ q / 2 ^ 53 := by
  rw [round_eq_roundTo]
  refine (abs_roundTo_sub_le_mul (by decide) (by decide) h).trans_eq ?_
  norm_num

theorem round_le_two_mul {q : ℚ} (h : 0 ≤ q) : round q ≤ 2 * q := by
  have herr := (abs_le.mp (abs_round_sub_le h)).2
  have hsmall : q / 2 ^ 53 ≤ q := div_le_self h (by norm_num)
  linarith

/-- The relative error of a product of two rounded values. -/
theorem abs_mul_round_sub_le {a b : ℚ} (ha : 0 ≤ a) (hb : 0 ≤ b) :
    |mul (round a) (round b) - a * b| ≤ a * b / 2 ^ 50 := by
  have hA := abs_round_sub_le ha
  have hB := abs_round_sub_le hb
  have hB0 := round_nonneg b
  have hAB0 : 0 ≤ round a * round b := mul_nonneg (round_nonneg a) hB0
  have hAB : round a * round b ≤ 4 * (a * b) :=
    calc round a * round b ≤ (2 * a) * (2 * b) :=
          mul_le_mul (round_le_two_mul ha) (round_le_two_mul hb) hB0 (by linarith)
      _ = 4 * (a * b) := by ring
  have hleft : |round a * round b - a * round b| ≤ 2 * (a * b) / 2 ^ 53 :=
    calc |round a * round b - a * round b| = |round a - a| * round b := by
          rw [← sub_mul, abs_mul, abs_of_nonneg hB0]
      _ ≤ a / 2 ^ 53 * (2 * b) :=
          mul_le_mul hA (round_le_two_mul hb) hB0 (by positivity)
      _ = 2 * (a * b) / 2 ^ 53 := by ring
  have hright : |a * round b - a * b| ≤ a * b / 2 ^ 53 :=
    calc |a * round b - a * b| = a * |round b - b| := by
          rw [← mul_sub, abs_mul, abs_of_nonneg ha]
      _ ≤ a * (b / 2 ^ 53) := mul_le_mul_of_nonneg_left hB ha
      _ = a * b / 2 ^ 53 := by ring
  have hmul : |mul (round a) (round b) - round a * round b| ≤ 4 * (a * b) / 2 ^ 53 :=
    (abs_round_sub_le hAB0).trans (div_le_div_of_nonneg_right hAB (by norm_num))
  have hab : 0 ≤ a * b := mul_nonneg ha hb
  calc |mul (round a) (round b) - a * b|
      ≤ |mul (round a) (round b) - round a * round b| + |round a * round b - a * b| :=
        abs_sub_le _ _ _
    _ ≤ |mul (round a) (round b) - round a * round b| +
          (|round a * round b - a * round b| + |a * round b - a * b|) :=
        add_le_add_right (abs_sub_le _ _ _) _
    _ ≤ 4 * (a * b) / 2 ^ 53 + (2 * (a * b) / 2 ^ 53 + a * b / 2 ^ 53) :=
        add_le_add hmul (add_le_add hleft hright)
    _ ≤ a * b / 2 ^ 50 := by
        norm_num
        linarith

/-! ## The shortest decimal -/

/-- A candidate reads back. -/
theorem round_candidate {q : ℚ} {k : ℤ} {d : ℕ} (h : candidate q k = some d) :
    round (d * 10 ^ k) = q := by
  unfold candidate at h
  simp only [Bool.and_eq_true, decide_eq_true_eq] at h
  split at h
  case isTrue hboth =>
    split at h <;> cases h
    · exact hboth.1
    · exact hboth.2
  · split at h
    case isTrue hbelow =>
      cases h
      exact hbelow
    · split at h
      case isTrue habove =>
        cases h
        exact habove
      · cases h

/-- Among the multiples of a unit of at most a `10 ^ 16`th there is a candidate. -/
theorem candidate_isSome {q : ℚ} (h : IsFloat q) (hq : 0 < q) {k : ℤ}
    (hk : (10 : ℚ) ^ k * 10 ^ 16 ≤ q) : (candidate q k).isSome := by
  have hunit : (0 : ℚ) < 10 ^ k := zpow_pos (by norm_num) _
  have hulp : 0 < ulp 2 53 q := ulp_pos (by decide) q
  have hfloor : 0 ≤ ⌊q / 10 ^ k⌋ := Int.floor_nonneg.mpr (div_nonneg h.1 hunit.le)
  obtain ⟨below, hbelow⟩ := Int.eq_ofNat_of_zero_le hfloor
  have hle : (below : ℚ) * 10 ^ k ≤ q := by
    have := Int.floor_le (q / 10 ^ k)
    rw [hbelow, le_div_iff₀ hunit] at this
    exact_mod_cast this
  have hlt : q < (below + 1) * 10 ^ k := by
    have := Int.lt_floor_add_one (q / 10 ^ k)
    rw [hbelow, div_lt_iff₀ hunit] at this
    exact_mod_cast this
  have hsize : q < 2 ^ 53 * ulp 2 53 q := by
    have := div_ulp_lt_pow (p := 53) (by decide : 1 < 2) q
    rwa [div_lt_iff₀ hulp] at this
  -- one of the two is within half a unit, and that is less than half of the last digit
  have hreads : round (below * 10 ^ k) = q ∨ round ((below + 1 : ℕ) * 10 ^ k) = q := by
    rw [round_eq_roundTo, round_eq_roundTo]
    push_cast
    rcases le_or_gt ((below + 1) * 10 ^ k - q) ((10 : ℚ) ^ k / 2) with hnear | hfar
    · exact .inr (roundTo_eq_of_lt (by decide) h.2 hq hlt.le (by linarith))
    · rcases (Int.zpow_log_le_self (by decide : 1 < 2) hq).lt_or_eq with hpow | hpow
      · exact .inl (roundTo_eq_of_gt (by decide) (by decide) h.2 hq hpow hle (by linarith))
      · -- a power of two has half the size at most
        have hpow' : (2 : ℚ) ^ 52 * ulp 2 53 q = q :=
          (zpow_log_eq (by decide : 1 < 2) (by decide : 0 < 53) q).symm.trans hpow
        exact .inr (roundTo_eq_of_lt (by decide) h.2 hq hlt.le (by linarith))
  have hnat : (q / 10 ^ k).floor.toNat = below := by
    rw [show (q / 10 ^ k).floor = ⌊q / 10 ^ k⌋ from rfl, hbelow]
    rfl
  unfold candidate
  simp only [hnat, Bool.and_eq_true, decide_eq_true_eq]
  split
  · simp
  case isFalse hboth =>
    rcases hreads with hr | hr
    · simp [hr]
    · split <;> rfl

/-- The fewest digits of a value read back as the value. -/
theorem round_shortest {q : ℚ} (h : IsFloat q) (hq : 0 < q) :
    round ((shortest q).1 * 10 ^ (shortest q).2) = q := by
  have hlog : (10 : ℚ) ^ exponent10 q ≤ q := by
    rw [exponent10_eq_log hq]
    exact Int.zpow_log_le_self (by decide) hq
  have hlast : (candidate q (exponent10 q - (16 : ℕ))).isSome := by
    refine candidate_isSome h hq ?_
    rw [← zpow_natCast (10 : ℚ) 16, ← zpow_add₀ (by norm_num)]
    simpa using hlog
  obtain ⟨⟨d, k⟩, hfound⟩ : ∃ x, (List.range 17).findSome? (fun (i : Nat) =>
      (candidate q (exponent10 q - i)).map fun d => (d, exponent10 q - (i : Int))) = some x := by
    rw [← Option.isSome_iff_exists, List.findSome?_isSome_iff]
    exact ⟨16, by simp, by simpa using hlast⟩
  have hreads : round (d * 10 ^ k) = q := by
    obtain ⟨i, -, hi⟩ := List.exists_of_findSome?_eq_some hfound
    simp only [Option.map_eq_some_iff, Prod.mk.injEq] at hi
    obtain ⟨d', hd', rfl, rfl⟩ := hi
    exact round_candidate hd'
  unfold shortest
  simp only [hfound, Option.getD_some]
  split
  case isTrue hten =>
    have hd : (d : ℚ) = (d / 10 : ℕ) * 10 := by
      have : d = d / 10 * 10 := by omega
      exact_mod_cast this
    rw [hd, mul_assoc, ← zpow_one_add₀ (by norm_num), add_comm] at hreads
    exact hreads
  · exact hreads

/-! ## Reading back -/

theorem digitsValue_eq (ds : List Char) : digitsValue ds = Lib.digitsValue ds := rfl

theorem parseDecimal_whole {ds : List Char} (h : AllDigits ds) (hne : ds ≠ []) :
    parseDecimal ds = some (Lib.digitsValue ds : ℚ) := by
  have hspan : ds.span Char.isDigit = (ds, []) := by
    simpa using @span_append _ Char.isDigit ds [] h (by simp)
  have hempty : ds.isEmpty = false := by simpa using hne
  simp only [parseDecimal, hspan, hempty, Bool.false_and, List.append_nil, List.length_nil,
    digitsValue_eq]
  simp

theorem parseDecimal_point {ds fs : List Char} (h : AllDigits ds) (hf : AllDigits fs)
    (hne : ds ≠ []) :
    parseDecimal (ds ++ '.' :: fs) = some (Lib.digitsValue (ds ++ fs) / 10 ^ fs.length : ℚ) := by
  have hspan : (ds ++ '.' :: fs).span Char.isDigit = (ds, '.' :: fs) :=
    span_append h (by simp)
  have hfrac : fs.span Char.isDigit = (fs, []) := by
    simpa using @span_append _ Char.isDigit fs [] hf (by simp)
  have hempty : ds.isEmpty = false := by simpa using hne
  simp only [parseDecimal, hspan, hfrac, hempty, Bool.false_and, Bool.false_eq_true, if_false,
    digitsValue_eq]

/-- What a decimal says. -/
theorem parseDecimal_positional (d : Nat) (k : Int) :
    parseDecimal (positional d k) = some (d * 10 ^ k : ℚ) := by
  have hds := allDigits_toDigits d
  have hne : Nat.toDigits 10 d ≠ [] := Nat.toDigits_ne_nil
  unfold positional
  dsimp only
  split
  case isTrue hk =>
    obtain ⟨n, rfl⟩ := Int.eq_ofNat_of_zero_le hk
    rw [parseDecimal_whole (hds.append (allDigits_zeros _)) (by simp), digitsValue_append,
      digitsValue_toDigits, digitsValue_zeros]
    simp
  case isFalse hk =>
    obtain ⟨n, hn⟩ : ∃ n : ℕ, k = -n := ⟨(-k).toNat, by omega⟩
    have hplaces : (-k).toNat = n := by omega
    have hpow : (d * 10 ^ k : ℚ) = d / 10 ^ n := by
      rw [hn, zpow_neg, zpow_natCast, ← div_eq_mul_inv]
    rw [hplaces, hpow]
    split
    case isTrue hlt =>
      rw [parseDecimal_point (fun c hc => hds c (List.mem_of_mem_take hc))
        (fun c hc => hds c (List.mem_of_mem_drop hc)), List.take_append_drop,
        digitsValue_toDigits, List.length_drop, Nat.sub_sub_self hlt.le]
      intro hnil
      have := congrArg List.length hnil
      rw [List.length_take, List.length_nil] at this
      omega
    case isFalse hlt =>
      have hpoint := @parseDecimal_point ['0']
        (List.replicate (n - (Nat.toDigits 10 d).length) '0' ++ Nat.toDigits 10 d)
        (by simp [AllDigits]) ((allDigits_zeros _).append hds) (by simp)
      rw [List.singleton_append] at hpoint
      rw [hpoint]
      have hval : Lib.digitsValue ('0' :: (List.replicate (n - (Nat.toDigits 10 d).length) '0' ++
          Nat.toDigits 10 d)) = d := by
        rw [← List.cons_append, ← List.replicate_succ, digitsValue_append, digitsValue_zeros,
          digitsValue_toDigits, Nat.zero_mul, Nat.zero_add]
      have hlen : n - (Nat.toDigits 10 d).length + (Nat.toDigits 10 d).length = n := by omega
      simp [hval, hlen]

theorem head_positional (d : Nat) (k : Int) :
    ∃ c rest, positional d k = c :: rest ∧ c.isDigit = true := by
  have hds := allDigits_toDigits d
  obtain ⟨c, ds, hc⟩ := List.exists_cons_of_ne_nil (Nat.toDigits_ne_nil (n := d) (b := 10))
  rw [hc] at hds
  unfold positional
  dsimp only
  rw [hc]
  split
  · exact ⟨c, _, List.cons_append, hds c List.mem_cons_self⟩
  · split
    case isTrue h =>
      obtain ⟨n, hn⟩ : ∃ n, (c :: ds).length - (-k).toNat = n + 1 :=
        ⟨(c :: ds).length - (-k).toNat - 1, by omega⟩
      rw [hn, List.take_succ_cons, List.cons_append]
      exact ⟨c, _, rfl, hds c List.mem_cons_self⟩
    · exact ⟨'0', _, rfl, rfl⟩

theorem toLower_of_isDigit {c : Char} (h : c.isDigit = true) : c.toLower = c := by
  simp only [Char.isDigit, Bool.and_eq_true, decide_eq_true_eq] at h
  refine dif_neg fun hupper => ?_
  exact absurd (UInt32.le_trans hupper.1 h.2) (by decide)

/-- A text that starts with a digit is neither signed nor a name. -/
theorem parse_digit {c : Char} {cs : List Char} (h : c.isDigit = true) :
    parse (String.ofList (c :: cs)) =
      (parseDecimal (c :: cs)).map fun q => .finite false (round q) := by
  have hname : ∀ name : String, (∀ d ∈ name.toList.head?, d.isDigit = false) →
      String.ofList ((c :: cs).map Char.toLower) ≠ name := by
    rintro name hfirst rfl
    have hnot := hfirst c.toLower (by simp)
    rw [toLower_of_isDigit h, h] at hnot
    cases hnot
  unfold parse
  rw [String.toList_ofList]
  split
  rename_i negative cs' hsign
  have hcs : negative = false ∧ cs' = c :: cs := by
    split at hsign
    next heq =>
      obtain ⟨rfl, -⟩ := List.cons.inj heq
      cases h
    next heq =>
      obtain ⟨rfl, -⟩ := List.cons.inj heq
      cases h
    next => exact ⟨(congrArg Prod.fst hsign).symm, (congrArg Prod.snd hsign).symm⟩
  obtain ⟨rfl, rfl⟩ := hcs
  dsimp only
  rw [if_neg (hname "nan" (by simp)), if_neg]
  rintro (heq | heq)
  · exact hname "inf" (by simp) heq
  · exact hname "infinity" (by simp) heq

theorem parse_display {q : ℚ} (h : IsFloat q) : parse (display q) = some (.finite false q) := by
  rcases h.1.eq_or_lt with rfl | hq
  · decide +kernel
  have hdisplay : display q = String.ofList (positional (shortest q).1 (shortest q).2) := by
    have hpos : ¬ q < 0 := not_lt.mpr h.1
    simp only [display, hq.ne', if_false, abs_of_pos hq, hpos]
  obtain ⟨c, rest, hc, hdigit⟩ := head_positional (shortest q).1 (shortest q).2
  rw [hdisplay, hc, parse_digit hdigit, ← hc, parseDecimal_positional, Option.map_some,
    round_shortest h hq]

end Btwattch2.F64
