/-
Btwattch2.FloatCodec — floats as JSON numbers, written as shortly as they read back and
read to the nearest: a library under which no float changes on its way (`read_write`).

`serde_json` is such a one with its feature `float_roundtrip`. As it is used here it may
read a long decimal one unit off, and a theorem about it leaves open what it reads. The
numbers next to zero, where an `f64` has fewer digits, are kept as they are.
-/
import Btwattch2.FloatTheorems
import Btwattch2.Lib.Json

namespace Btwattch2.F64

open Lib

/-- `d * 10 ^ k` with a digit or more on both sides of the point. -/
def pointed (d : Nat) (k : Int) : List Char × List Char :=
  let ds := Nat.toDigits 10 d
  let places := (-k).toNat
  if d = 0 then (['0'], ['0'])
  else if 0 ≤ k then (ds ++ List.replicate k.toNat '0', ['0'])
  else if places < ds.length then
    (ds.take (ds.length - places), ds.drop (ds.length - places))
  else (['0'], List.replicate (places - ds.length) '0' ++ ds)

/-- The digits of a float, and the power of ten they are taken to. -/
def digitsOf (x : ℚ) : Nat × Int := if x = 0 then (0, 0) else shortest |x|

def numberText (x : ℚ) : Json.NumberText :=
  let (whole, fraction) := pointed (digitsOf x).1 (digitsOf x).2
  ⟨x < 0, whole, fraction, none⟩

def readFloat (cs : List Char) : Option ℚ :=
  match parse (String.ofList cs) with
  | some (.finite negative q) => some (if negative then -q else q)
  | _ => none

/-- A number past the range of an `f64` is an error. -/
def readNumber (cs : List Char) : Option ℚ := (readFloat cs).filter fun q => |q| < 2 ^ 1024

theorem allDigits_pointed (d : Nat) (k : Int) :
    AllDigits (pointed d k).1 ∧ AllDigits (pointed d k).2 := by
  have hds := allDigits_toDigits d
  have hzero : AllDigits ['0'] := by simp [AllDigits]
  unfold pointed
  dsimp only
  split
  · exact ⟨hzero, hzero⟩
  split
  · exact ⟨hds.append (allDigits_zeros _), hzero⟩
  split
  · exact ⟨fun c hc => hds c (List.mem_of_mem_take hc), fun c hc => hds c (List.mem_of_mem_drop hc)⟩
  · exact ⟨hzero, (allDigits_zeros _).append hds⟩

theorem pointed_ne_nil (d : Nat) (k : Int) : (pointed d k).1 ≠ [] ∧ (pointed d k).2 ≠ [] := by
  have hne : Nat.toDigits 10 d ≠ [] := Nat.toDigits_ne_nil
  unfold pointed
  dsimp only
  split
  · exact ⟨by simp, by simp⟩
  split
  · exact ⟨by simp, by simp⟩
  split
  case isTrue h =>
    have hplaces : 0 < (-k).toNat := by omega
    simp only [ne_eq, List.take_eq_nil_iff, List.drop_eq_nil_iff, hne, or_false]
    omega
  · exact ⟨by simp, by simp⟩

theorem head_pointed (d : Nat) (k : Int) (h : (pointed d k).1.head? = some '0') :
    (pointed d k).1 = ['0'] := by
  have hne : Nat.toDigits 10 d ≠ [] := Nat.toDigits_ne_nil
  revert h
  unfold pointed
  dsimp only
  split
  case isTrue => exact fun _ => rfl
  case isFalse hd =>
    have hhead := head_toDigits (Nat.pos_of_ne_zero hd)
    split
    case isTrue =>
      rw [List.head?_append_of_ne_nil _ hne]
      exact fun h => absurd h hhead
    case isFalse =>
      split
      case isTrue hlt =>
        rw [List.head?_take, if_neg (by omega)]
        exact fun h => absurd h hhead
      case isFalse => exact fun _ => rfl

theorem parseDecimal_pointed (d : Nat) (k : Int) :
    parseDecimal ((pointed d k).1 ++ '.' :: (pointed d k).2) = some (d * 10 ^ k : ℚ) := by
  obtain ⟨hwhole, hfraction⟩ := allDigits_pointed d k
  by_cases hk : d = 0 ∨ 0 ≤ k
  · have hpoint := parseDecimal_point hwhole hfraction (pointed_ne_nil d k).1
    rw [hpoint]
    unfold pointed
    dsimp only
    split
    case isTrue hd => simp [hd, Lib.digitsValue]
    case isFalse hd =>
      obtain ⟨n, rfl⟩ := Int.eq_ofNat_of_zero_le (hk.resolve_left hd)
      have hvalue : Lib.digitsValue ['0'] = 0 := rfl
      have hshift : (d * 10 ^ (n + 1) / 10 : ℚ) = d * 10 ^ n := by
        rw [pow_succ, ← mul_assoc, mul_div_cancel_right₀ _ (by norm_num)]
      simp [digitsValue_append, digitsValue_toDigits, digitsValue_zeros, hvalue, hshift]
  · obtain ⟨hd, hneg⟩ := not_or.mp hk
    have hsame : (pointed d k).1 ++ '.' :: (pointed d k).2 = positional d k := by
      unfold pointed positional
      simp only [if_neg hd, if_neg hneg]
      split <;> rfl
    rw [hsame, parseDecimal_positional]

theorem wellFormed_numberText (x : ℚ) : (numberText x).WellFormed := by
  constructor
  case whole_ne_nil => exact (pointed_ne_nil _ _).1
  case whole_digits => exact (allDigits_pointed _ _).1
  case leading => exact head_pointed _ _
  case fraction_digits => exact (allDigits_pointed _ _).2
  case exponent_shape => simp [numberText]

def codec : Json.FloatCodec ℚ where
  parts := numberText
  read := readNumber
  wellFormed := wellFormed_numberText
  isFloat x := by simp [numberText, Json.NumberText.isFloat, (pointed_ne_nil _ _).2]

theorem write_of_nonneg {x : ℚ} (h : 0 ≤ x) :
    codec.write x = (pointed (digitsOf x).1 (digitsOf x).2).1 ++
      '.' :: (pointed (digitsOf x).1 (digitsOf x).2).2 := by
  obtain ⟨f, fs, hf⟩ := List.exists_cons_of_ne_nil
    (pointed_ne_nil (digitsOf x).1 (digitsOf x).2).2
  show (numberText x).text = _
  simp [numberText, Json.NumberText.text, Json.signText, Json.fractionText, Json.exponentText, hf,
    not_lt.mpr h]

theorem round_digitsOf {x : ℚ} (h : IsFloat x) :
    round ((digitsOf x).1 * 10 ^ (digitsOf x).2) = x := by
  rcases h.1.eq_or_lt with rfl | hpos
  · simp [digitsOf, isFloat_zero.round_eq]
  · rw [digitsOf, if_neg hpos.ne', abs_of_pos hpos, round_shortest h hpos]

/-- A float is read back as it was. -/
theorem read_write {x : ℚ} (h : IsFloat x) (hx : x < 2 ^ 1024) :
    codec.read (codec.write x) = some x := by
  obtain ⟨c, cs, hc⟩ := List.exists_cons_of_ne_nil
    (pointed_ne_nil (digitsOf x).1 (digitsOf x).2).1
  have hdigit := (allDigits_pointed (digitsOf x).1 (digitsOf x).2).1 c (by simp [hc])
  have hparse := parseDecimal_pointed (digitsOf x).1 (digitsOf x).2
  have htext := write_of_nonneg h.1
  rw [hc, List.cons_append] at hparse htext
  have hread : codec.read = readNumber := rfl
  have hrange : |x| < 2 ^ 1024 := by rwa [abs_of_nonneg h.1]
  have hvalue : parse (String.ofList (codec.write x)) = some (.finite false x) := by
    rw [htext, parse_digit hdigit, hparse, Option.map_some, round_digitsOf h]
  rw [hread, readNumber, readFloat, hvalue]
  simp [hrange]

end Btwattch2.F64
