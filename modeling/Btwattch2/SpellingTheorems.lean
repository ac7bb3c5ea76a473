/-
Btwattch2.SpellingTheorems — what the program reports, it reads back: an interval
to the nanosecond, permission bits, a whole number; and the interval that `agent
status` shows, to half a millisecond.
-/
import Btwattch2.FloatTheorems
import Btwattch2.Spelling
import Btwattch2.TextTheorems
import Mathlib.Tactic.LinearCombination

namespace Btwattch2

open Lib F64

/-! ## Digits behind the point -/

theorem allDigits_fractionDigits (places fraction : Nat) (h : fraction < 10 ^ places) :
    AllDigits (fractionDigits places fraction) := by
  induction places generalizing fraction with
  | zero => simp [fractionDigits, AllDigits]
  | succ places ih =>
    unfold fractionDigits
    split
    · simp [AllDigits]
    · intro c hc
      rcases List.mem_cons.mp hc with rfl | hc
      · have : fraction / 10 ^ places < 10 := by
          rw [Nat.div_lt_iff_lt_mul (by positivity), ← Nat.pow_succ']
          exact h
        simpa using this
      · exact ih _ (Nat.mod_lt _ (by positivity)) c hc

/-- The digits stand for the fraction. -/
theorem digitsValue_fractionDigits (places fraction : Nat) (h : fraction < 10 ^ places) :
    (Lib.digitsValue (fractionDigits places fraction) /
      10 ^ (fractionDigits places fraction).length : ℚ) = fraction / 10 ^ places := by
  induction places generalizing fraction with
  | zero =>
    have hzero : fraction = 0 := by simpa using h
    simp [fractionDigits, hzero, Lib.digitsValue]
  | succ places ih =>
    unfold fractionDigits
    split
    case isTrue hzero => simp [hzero, Lib.digitsValue]
    case isFalse =>
      have hmod := ih _ (Nat.mod_lt fraction (by positivity : 0 < 10 ^ places))
      have hdigit : fraction / 10 ^ places < 10 := by
        rw [Nat.div_lt_iff_lt_mul (by positivity), ← Nat.pow_succ']
        exact h
      have hsplit : (fraction : ℚ) =
          10 ^ places * (fraction / 10 ^ places : ℕ) + (fraction % 10 ^ places : ℕ) := by
        exact_mod_cast (Nat.div_add_mod fraction (10 ^ places)).symm
      rw [← List.singleton_append, digitsValue_append, digitsValue_digitChar hdigit,
        List.length_append, List.length_singleton]
      generalize fractionDigits places (fraction % 10 ^ places) = ds at hmod
      rw [div_eq_div_iff (by positivity) (by positivity)] at hmod ⊢
      push_cast
      rw [hsplit]
      linear_combination 10 * hmod

/-- A decimal is read as what it stands for. -/
theorem parseDecimal_fmtDecimal (whole : Nat) {fraction places : Nat} (h : fraction < 10 ^ places) :
    parseDecimal (fmtDecimal whole fraction places) = some (whole + fraction / 10 ^ places : ℚ) := by
  have hvalue := digitsValue_fractionDigits places fraction h
  unfold fmtDecimal
  split
  case h_1 hnil =>
    rw [hnil] at hvalue
    rw [List.append_nil, parseDecimal_whole (allDigits_toDigits _) Nat.toDigits_ne_nil,
      digitsValue_toDigits, ← hvalue]
    simp [Lib.digitsValue]
  case h_2 =>
    rw [parseDecimal_point (allDigits_toDigits _) (allDigits_fractionDigits _ _ h)
      Nat.toDigits_ne_nil, digitsValue_append, digitsValue_toDigits, ← hvalue]
    push_cast
    rw [add_div, mul_div_cancel_right₀ _ (by positivity)]

theorem mem_fmtDecimal {whole fraction places : Nat} (h : fraction < 10 ^ places) {c : Char}
    (hc : c ∈ fmtDecimal whole fraction places) : c.isDigit = true ∨ c = '.' := by
  unfold fmtDecimal at hc
  rcases List.mem_append.mp hc with hc | hc
  · exact .inl (allDigits_toDigits _ c hc)
  · split at hc
    · cases hc
    · rcases List.mem_cons.mp hc with rfl | hc
      · exact .inr rfl
      · exact .inl (allDigits_fractionDigits _ _ h c hc)

theorem head_fmtDecimal (whole fraction places : Nat) :
    ∃ c rest, fmtDecimal whole fraction places = c :: rest ∧ c.isDigit = true := by
  obtain ⟨c, ds, hds⟩ := List.exists_cons_of_ne_nil (Nat.toDigits_ne_nil (n := whole) (b := 10))
  refine ⟨c, _, by rw [fmtDecimal, hds, List.cons_append], ?_⟩
  exact allDigits_toDigits whole c (by simp [hds])

/-! ## Units -/

namespace Text

/-- Nothing is trimmed where there is no white space. -/
theorem trim_of_clear {s : String} (h : ∀ c ∈ s.toList, isWhitespace c = false) : trim s = s := by
  have hdrop : ∀ {cs : List Char}, (∀ c ∈ cs, isWhitespace c = false) →
      cs.dropWhile isWhitespace = cs := by
    intro cs hcs
    cases cs with
    | nil => rfl
    | cons c cs => exact List.dropWhile_cons_of_neg (by simp [hcs c List.mem_cons_self])
  rw [trim, trimEnd, trimStart, String.toList_ofList, hdrop h, hdrop (by simpa using h),
    List.reverse_reverse, String.ofList_toList]

theorem stripSuffix_ms {number : String} (h : 'm' ∉ number.toList) :
    stripSuffix "ms" (number ++ "s") = none := by
  rw [stripSuffix, Option.map_eq_none_iff, Option.eq_none_iff_forall_ne_some]
  intro cs hcs
  have hsplit : cs ++ ['m', 's'] = number.toList ++ ['s'] := by
    simpa using List.isSuffixOf?_eq_some_iff_append_eq.mp hcs
  have hfront : cs ++ ['m'] = number.toList := by
    have := congrArg List.dropLast hsplit
    simpa using this
  exact h (hfront ▸ by simp)

end Text

theorem not_white_of_decimal {c : Char} (h : c.isDigit = true ∨ c = '.') :
    Text.isWhitespace c = false := by
  have hbounds : 46 ≤ c.toNat ∧ c.toNat ≤ 57 := by
    rcases h with h | rfl
    · simp only [Char.isDigit, Bool.and_eq_true, decide_eq_true_eq, ge_iff_le,
        UInt32.le_iff_toNat_le] at h
      exact ⟨le_trans (by decide) h.1, h.2⟩
    · decide
  simp only [Text.isWhitespace, Bool.or_eq_false_iff, Bool.and_eq_false_iff, beq_eq_false_iff_ne,
    decide_eq_false_iff_not]
  omega

/-! ## Intervals -/

theorem nearestNanos_eq {x : ℚ} (h : 0 ≤ x) :
    nearestNanos x = (nearest (x * nanosPerSec)).toNat := by
  have hx : 0 ≤ x * nanosPerSec := mul_nonneg h (by norm_num [nanosPerSec])
  have hfloor : 0 ≤ ⌊x * nanosPerSec⌋ := Int.floor_nonneg.mpr hx
  obtain ⟨n, hn⟩ := Int.eq_ofNat_of_zero_le hfloor
  have hfract : Int.fract (x * nanosPerSec) = x * nanosPerSec - n := by
    rw [Int.fract, hn]
    rfl
  have hrat : (x * nanosPerSec).floor = n := hn
  unfold nearestNanos nearest
  simp only [hfract, hn, hrat, Int.toNat_natCast]
  have heven : ((n : ℤ) % 2 = 1) ↔ n % 2 = 1 := by omega
  simp only [heven]
  split <;> omega

/-- Seconds next to a whole number of nanoseconds. -/
theorem tryFromSecsF64_near {x : ℚ} {n : ℕ} (h : 0 ≤ x) (hlt : x < 2 ^ 64)
    (hnear : |x * nanosPerSec - n| < 1 / 2) : tryFromSecsF64 (.finite false x) = .ok n := by
  have hn : nearestNanos x = n := by
    rw [nearestNanos_eq h, nearest_eq_of_abs_lt (n := n) (by exact_mod_cast hnear)]
    rfl
  simp [tryFromSecsF64, not_le.mpr hlt, hn]

/-- Whole and fraction are the two parts of one number. -/
theorem split_decimal (n places : Nat) :
    ((n / 10 ^ places : ℕ) + (n % 10 ^ places : ℕ) / 10 ^ places : ℚ) = n / 10 ^ places := by
  have hsplit : (n : ℚ) = 10 ^ places * (n / 10 ^ places : ℕ) + (n % 10 ^ places : ℕ) := by
    exact_mod_cast (Nat.div_add_mod n (10 ^ places)).symm
  rw [eq_div_iff (by positivity), add_mul, div_mul_cancel₀ _ (by positivity), mul_comm, ← hsplit]

/-- Seconds that are off by a small part of themselves are the nearest to no other
nanosecond. -/
theorem Interval.near {interval : Interval} {x : ℚ}
    (h : |x - interval.nanos / nanosPerSec| ≤ interval.nanos / nanosPerSec / 2 ^ 50) :
    |x * nanosPerSec - interval.nanos| < 1 / 2 := by
  have hmax : (interval.nanos : ℚ) ≤ 86400000000000 := by exact_mod_cast interval.le_max
  have hns : (0 : ℚ) < nanosPerSec := by norm_num [nanosPerSec]
  calc |x * nanosPerSec - interval.nanos|
      = |x - interval.nanos / nanosPerSec| * nanosPerSec := by
        rw [← abs_of_pos hns, ← abs_mul, abs_of_pos hns, sub_mul, div_mul_cancel₀ _ hns.ne']
    _ ≤ interval.nanos / nanosPerSec / 2 ^ 50 * nanosPerSec :=
        mul_le_mul_of_nonneg_right h hns.le
    _ = interval.nanos / 2 ^ 50 := by
        rw [div_right_comm, div_mul_cancel₀ _ hns.ne']
    _ < 1 / 2 := by
        rw [div_lt_div_iff₀ (by norm_num) (by norm_num)]
        linarith

theorem Interval.lt_of_near {interval : Interval} {x : ℚ}
    (h : |x * nanosPerSec - interval.nanos| < 1 / 2) : x < 2 ^ 64 := by
  have hmax : (interval.nanos : ℚ) ≤ 86400000000000 := by exact_mod_cast interval.le_max
  have hnear := (abs_lt.mp h).2
  have hns : (nanosPerSec : ℚ) = 1000000000 := by norm_num [nanosPerSec]
  rw [hns] at hnear
  linarith

/-- A decimal with its unit is read as an interval when its value, scaled, is off by a
small part of itself at most. -/
theorem Interval.fromStr_near {whole fraction places : Nat} (h : fraction < 10 ^ places)
    {unit : String} {scale : ℚ} (hunit : unit = "s" ∧ scale = 1 ∨ unit = "ms" ∧
      scale = F64.round (1 / 1000)) {interval : Interval} {q : ℚ}
    (hq : (whole + fraction / 10 ^ places : ℚ) = q)
    (hnear : |F64.mul (F64.round q) scale - interval.nanos / nanosPerSec| ≤
      interval.nanos / nanosPerSec / 2 ^ 50) :
    Interval.fromStr (String.ofList (fmtDecimal whole fraction places) ++ unit) = .ok interval := by
  have hclear : ∀ c ∈ fmtDecimal whole fraction places, Text.isWhitespace c = false := fun c hc =>
    not_white_of_decimal (mem_fmtDecimal h hc)
  have hnumber : Text.trim (String.ofList (fmtDecimal whole fraction places)) =
      String.ofList (fmtDecimal whole fraction places) :=
    Text.trim_of_clear (by simpa using hclear)
  have htext : Text.trim (String.ofList (fmtDecimal whole fraction places) ++ unit) =
      String.ofList (fmtDecimal whole fraction places) ++ unit := by
    refine Text.trim_of_clear fun c hc => ?_
    rw [String.toList_append, String.toList_ofList] at hc
    rcases List.mem_append.mp hc with hc | hc
    · exact hclear c hc
    · have hletter : c = 'm' ∨ c = 's' := by
        rcases hunit with ⟨rfl, -⟩ | ⟨rfl, -⟩ <;> simp at hc <;> tauto
      rcases hletter with rfl | rfl <;> rfl
  have hparse : F64.parse (String.ofList (fmtDecimal whole fraction places)) =
      some (.finite false (F64.round q)) := by
    obtain ⟨c, rest, hc, hdigit⟩ := head_fmtDecimal whole fraction places
    rw [hc, F64.parse_digit hdigit, ← hc, parseDecimal_fmtDecimal whole h, Option.map_some, hq]
  have hm : 'm' ∉ (String.ofList (fmtDecimal whole fraction places)).toList := by
    rw [String.toList_ofList]
    intro hm
    rcases mem_fmtDecimal h hm with hm | hm <;> revert hm <;> decide
  have hhalf := Interval.near hnear
  have hfrom : tryFromSecsF64 (.finite false (F64.mul (F64.round q) scale)) = .ok interval.nanos :=
    tryFromSecsF64_near (F64.round_nonneg _) (Interval.lt_of_near hhalf) hhalf
  have hmin := interval.min_le
  have hmax := interval.le_max
  unfold Interval.fromStr
  rcases hunit with ⟨rfl, rfl⟩ | ⟨rfl, rfl⟩
  · simp only [htext, Text.stripSuffix_ms hm, Text.stripSuffix_append, Option.getD_some, hnumber,
      hparse, F64.Value.scaled, hfrom, not_lt.mpr hmin, not_lt.mpr hmax, dite_false]
  · simp only [htext, Text.stripSuffix_append, hnumber, hparse, F64.Value.scaled, hfrom,
      not_lt.mpr hmin, not_lt.mpr hmax, dite_false]

/-- A duration that an interval can have is read as it is written. -/
theorem Interval.fromStr_debugDuration {nanos : Nat} (hmin : minInterval ≤ nanos)
    (hmax : nanos ≤ maxInterval) :
    Interval.fromStr (debugDuration nanos) = .ok ⟨nanos, hmin, hmax⟩ := by
  have hlow : 10000000 ≤ nanos := hmin
  have hns : (nanosPerSec : ℚ) = 10 ^ 9 := by norm_num [nanosPerSec]
  unfold debugDuration
  split
  case isTrue =>
    -- in seconds
    refine Interval.fromStr_near (Nat.mod_lt _ (by norm_num)) (.inl ⟨rfl, rfl⟩)
      (split_decimal nanos 9) ?_
    rw [F64.mul, mul_one, (F64.isFloat_round _).round_eq, hns]
    refine (F64.abs_round_sub_le (by positivity)).trans ?_
    exact div_le_div_of_nonneg_left (by positivity) (by norm_num) (by norm_num)
  case isFalse =>
    -- in milliseconds
    rw [if_pos (by omega)]
    refine Interval.fromStr_near (Nat.mod_lt _ (by norm_num)) (.inr ⟨rfl, rfl⟩)
      (split_decimal nanos 6) ?_
    have herr := F64.abs_mul_round_sub_le (a := nanos / 10 ^ 6) (b := 1 / 1000)
      (by positivity) (by norm_num)
    have hprod : (nanos : ℚ) / 10 ^ 6 * (1 / 1000) = nanos / nanosPerSec := by
      rw [hns, div_mul_div_comm, mul_one]
      norm_num
    rwa [hprod] at herr

/-- **What an interval is shown as is read as that interval**, to the nanosecond. -/
theorem Interval.fromStr_spelled (interval : Interval) :
    Interval.fromStr interval.display = .ok interval :=
  Interval.fromStr_debugDuration interval.min_le interval.le_max

/-! ## The interval that is shown -/

theorem abs_asSecsF64_sub_le (nanos : Nat) :
    |asSecsF64 nanos - nanos / nanosPerSec| ≤ (nanos : ℚ) / nanosPerSec / 2 ^ 51 := by
  have hns : (0 : ℚ) < nanosPerSec := by norm_num [nanosPerSec]
  have hsplit : (nanos / nanosPerSec : ℕ) + (nanos % nanosPerSec : ℕ) / (nanosPerSec : ℚ) =
      nanos / nanosPerSec := by
    rw [show (nanosPerSec : ℚ) = 10 ^ 9 by norm_num [nanosPerSec]]
    exact split_decimal nanos 9
  unfold asSecsF64 F64.add F64.div
  generalize hwhole : ((nanos / nanosPerSec : ℕ) : ℚ) = whole at hsplit ⊢
  generalize hpart : ((nanos % nanosPerSec : ℕ) : ℚ) / nanosPerSec = part at hsplit ⊢
  have hwhole0 : 0 ≤ whole := hwhole ▸ Nat.cast_nonneg _
  have hpart0 : 0 ≤ part := hpart ▸ div_nonneg (Nat.cast_nonneg _) hns.le
  have hinner := abs_le.mp (F64.abs_round_sub_le hpart0)
  have hround0 : 0 ≤ whole + F64.round part := add_nonneg hwhole0 (F64.round_nonneg _)
  have houter := abs_le.mp (F64.abs_round_sub_le hround0)
  have htwo := F64.round_le_two_mul hpart0
  rw [← hsplit, abs_le]
  norm_num at hinner houter ⊢
  constructor <;> linarith

/-- Milliseconds of a duration, as they are shown. -/
theorem roundHalfUp_asSecsF64 {nanos : Nat} (hmax : nanos ≤ 86400000000000) :
    |roundHalfUp (F64.mul (asSecsF64 nanos) 1000) * 1000000 - (nanos : ℤ)| ≤ 500000 := by
  have hsecs := abs_le.mp (abs_asSecsF64_sub_le nanos)
  have hsecs0 : 0 ≤ asSecsF64 nanos := F64.round_nonneg _
  have hmul := abs_le.mp (F64.abs_round_sub_le (mul_nonneg hsecs0 (by norm_num : (0 : ℚ) ≤ 1000)))
  have hcast : (nanos : ℚ) ≤ 86400000000000 := by exact_mod_cast hmax
  have hns : (nanosPerSec : ℚ) = 1000000000 := by norm_num [nanosPerSec]
  rw [hns] at hsecs
  have hle := Int.floor_le (F64.mul (asSecsF64 nanos) 1000 + 1 / 2)
  have hlt := Int.lt_floor_add_one (F64.mul (asSecsF64 nanos) 1000 + 1 / 2)
  have hfloor : roundHalfUp (F64.mul (asSecsF64 nanos) 1000) =
      ⌊F64.mul (asSecsF64 nanos) 1000 + 1 / 2⌋ := rfl
  rw [hfloor]
  generalize ⌊F64.mul (asSecsF64 nanos) 1000 + 1 / 2⌋ = millis at hle hlt
  rw [F64.mul] at hle hlt
  norm_num at hsecs hmul
  -- off by less than one more nanosecond
  have hbelow : ((millis * 1000000 - nanos : ℤ) : ℚ) < (500001 : ℤ) := by
    push_cast
    linarith
  have habove : ((-500001 : ℤ) : ℚ) < (millis * 1000000 - nanos : ℤ) := by
    push_cast
    linarith
  have h1 := Int.cast_lt.mp hbelow
  have h2 := Int.cast_lt.mp habove
  rw [abs_le]
  omega

/-- **The interval `agent status` shows can be given to `--interval`**: it is read as the
agent's own, rounded to whole milliseconds. -/
theorem formatSeconds_interval (interval : Interval) :
    ∃ shown : Interval, Interval.fromStr (formatSeconds (asSecsF64 interval.nanos)) = .ok shown ∧
      1000000 ∣ shown.nanos ∧ |(shown.nanos : ℤ) - interval.nanos| ≤ 500000 ∧
      (1000000 ∣ interval.nanos → shown = interval) := by
  have hmin : 10000000 ≤ interval.nanos := interval.min_le
  have hmax : interval.nanos ≤ 86400000000000 := interval.le_max
  have hnear := roundHalfUp_asSecsF64 hmax
  unfold formatSeconds
  generalize roundHalfUp (F64.mul (asSecsF64 interval.nanos) 1000) = millis at hnear ⊢
  rw [abs_le] at hnear
  obtain ⟨n, rfl⟩ : ∃ n : ℕ, millis = n := ⟨millis.toNat, by omega⟩
  have hmillis : min (n : ℤ).toNat (2 ^ 64 - 1) = n := by
    rw [Int.toNat_natCast, min_eq_left (by omega)]
  have hlow : minInterval ≤ n * 1000000 := by
    unfold minInterval
    omega
  have hhigh : n * 1000000 ≤ maxInterval := by
    unfold maxInterval
    omega
  refine ⟨⟨n * 1000000, hlow, hhigh⟩, ?_, Nat.dvd_mul_left _ _, ?_, ?_⟩
  · rw [hmillis]
    exact Interval.fromStr_debugDuration hlow hhigh
  · rw [abs_le]
    push_cast
    exact hnear
  · rintro ⟨k, hk⟩
    cases interval with
    | mk nanos _ _ =>
      simp only [Interval.mk.injEq]
      simp only at hk hnear
      omega

/-! ## Whole numbers -/

namespace Text

variable {radix max : Nat}

theorem toDigit_digitChar (hradix : radix ≤ 10) {d : Nat} (h : d < radix) :
    toDigit radix (Nat.digitChar d) = some d := by
  have hnat := Nat.toNat_digitChar_of_lt_ten (h.trans_le hradix)
  have hzero : '0'.toNat = 48 := rfl
  simp only [toDigit, hnat, hzero]
  rw [if_pos (by omega)]
  simp

theorem readDigits_append {cs cs' : List Char} {acc n : Nat}
    (h : readDigits radix max cs acc = .ok n) :
    readDigits radix max (cs ++ cs') acc = readDigits radix max cs' n := by
  induction cs generalizing acc with
  | nil =>
    cases h
    rfl
  | cons c cs ih =>
    rw [List.cons_append, readDigits]
    unfold readDigits at h
    split at h
    · cases h
    case h_2 d hd =>
      split at h
      · cases h
      case isFalse hmax =>
        rw [if_neg hmax]
        exact ih h

theorem readDigits_toDigits (hbase : 1 < radix) (hradix : radix ≤ 10) {n : Nat} (h : n ≤ max) :
    readDigits radix max (Nat.toDigits radix n) 0 = .ok n := by
  induction n using Nat.strong_induction_on with
  | _ n ih =>
    rw [Nat.toDigits_eq_if hbase]
    split
    case isTrue hlt =>
      simp [readDigits, toDigit_digitChar hradix hlt, not_lt.mpr h]
    case isFalse hge =>
      have hlt : n / radix < n := Nat.div_lt_self (by omega) hbase
      have hmod : n % radix < radix := Nat.mod_lt n (by omega)
      have hsum : n / radix * radix + n % radix = n := by
        rw [Nat.mul_comm]
        exact Nat.div_add_mod n radix
      rw [readDigits_append (ih _ hlt (hlt.le.trans h))]
      simp [readDigits, toDigit_digitChar hradix hmod, hsum, not_lt.mpr h]

theorem readDigits_zeros (hradix : radix ≤ 10) (hbase : 0 < radix) (k : Nat) :
    readDigits radix max (List.replicate k '0') 0 = .ok 0 := by
  have hzero : toDigit radix '0' = some 0 := toDigit_digitChar hradix hbase
  induction k with
  | zero => rfl
  | succ k ih =>
    rw [List.replicate_succ, readDigits, hzero]
    simpa using ih

/-- A number is read back, whatever zeros are written in front of it. -/
theorem fromStrRadix_toDigits (hbase : 1 < radix) (hradix : radix ≤ 10) {n : Nat} (h : n ≤ max)
    (k : Nat) :
    fromStrRadix radix max (String.ofList (List.replicate k '0' ++ Nat.toDigits radix n)) =
      .ok n := by
  have hdigits : ∀ c ∈ List.replicate k '0' ++ Nat.toDigits radix n, c.isDigit = true := by
    intro c hc
    rcases List.mem_append.mp hc with hc | hc
    · exact allDigits_zeros k c hc
    · exact Nat.isDigit_of_mem_toDigits (by omega) hradix hc
  have hread : readDigits radix max (List.replicate k '0' ++ Nat.toDigits radix n) 0 = .ok n := by
    rw [readDigits_append (readDigits_zeros hradix (by omega) k)]
    exact readDigits_toDigits hbase hradix h
  have hne : List.replicate k '0' ++ Nat.toDigits radix n ≠ [] := by simp
  unfold fromStrRadix
  rw [String.toList_ofList]
  generalize List.replicate k '0' ++ Nat.toDigits radix n = cs at hdigits hread hne
  split
  · exact absurd rfl hne
  · exact absurd (hdigits '+' (by simp)) (by decide)
  · exact absurd (hdigits '+' (by simp)) (by decide)
  · exact hread

theorem readDigits_le {radix max : Nat} : ∀ (cs : List Char) {acc n : Nat}, acc ≤ max →
    readDigits radix max cs acc = .ok n → n ≤ max
  | [], acc, n, hacc, h => by
    cases h
    exact hacc
  | c :: cs, acc, n, hacc, h => by
    unfold readDigits at h
    split at h
    · cases h
    · split at h
      · cases h
      case isFalse hmax => exact readDigits_le cs (Nat.le_of_not_lt hmax) h

theorem fromStrRadix_le {radix max n : Nat} {s : String} (h : fromStrRadix radix max s = .ok n) :
    n ≤ max := by
  unfold fromStrRadix at h
  split at h
  · cases h
  · cases h
  all_goals exact readDigits_le _ (Nat.zero_le _) h

theorem trim_digits {ds : List Char} (h : AllDigits ds) :
    trim (String.ofList ds) = String.ofList ds :=
  trim_of_clear fun c hc => not_white_of_decimal (.inl (h c (by simpa using hc)))

end Text

/-- Permission bits are shown in four octal digits, and read back from them. -/
theorem SocketMode.fromStr_display (mode : SocketMode) :
    SocketMode.fromStr mode.display = .ok mode := by
  have hdigits : AllDigits (List.replicate (4 - (Nat.toDigits 8 mode.bits).length) '0' ++
      Nat.toDigits 8 mode.bits) :=
    (allDigits_zeros _).append fun _ => Nat.isDigit_of_mem_toDigits (by decide) (by decide)
  have hmax : mode.bits ≤ 2 ^ 32 - 1 := mode.le_max.trans (by decide)
  unfold SocketMode.fromStr SocketMode.display
  rw [Text.trim_digits hdigits, Text.fromStrRadix_toDigits (by decide) (by decide) hmax]
  simp [not_lt.mpr mode.le_max]

theorem parseUsize_repr {n : Nat} (h : n ≤ 2 ^ 64 - 1) : parseUsize (toString n) = .ok n := by
  have hread := Text.fromStrRadix_toDigits (by decide : 1 < 10) le_rfl h 0
  rw [List.replicate_zero, List.nil_append] at hread
  exact hread

end Btwattch2
