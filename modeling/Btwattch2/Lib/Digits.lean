/-
Btwattch2.Lib.Digits — decimal digits: the value of a run of them, and the run that
`Nat.toDigits` writes.
-/
import Mathlib.Tactic.Ring
import Btwattch2.Lib.Table

namespace Btwattch2.Lib

/-- The value of a run of digits. -/
def digitsValue (ds : List Char) : Nat :=
  ds.foldl (fun acc c => acc * 10 + (c.toNat - '0'.toNat)) 0

theorem foldl_digits (ds : List Char) (acc : Nat) :
    ds.foldl (fun acc c => acc * 10 + (c.toNat - '0'.toNat)) acc =
      acc * 10 ^ ds.length + digitsValue ds := by
  induction ds generalizing acc with
  | nil => simp [digitsValue]
  | cons c ds ih =>
    rw [digitsValue, List.foldl_cons, List.foldl_cons, ih, ih (0 * 10 + _), List.length_cons]
    ring

theorem digitsValue_append (ds ds' : List Char) :
    digitsValue (ds ++ ds') = digitsValue ds * 10 ^ ds'.length + digitsValue ds' := by
  rw [digitsValue, List.foldl_append, foldl_digits]
  rfl

theorem digitsValue_digitChar {n : Nat} (h : n < 10) : digitsValue [Nat.digitChar n] = n := by
  simp [digitsValue, Nat.toNat_digitChar_of_lt_ten h]

theorem digitsValue_zeros (n : Nat) : digitsValue (List.replicate n '0') = 0 := by
  induction n with
  | zero => rfl
  | succ n ih => simpa [digitsValue, List.replicate_succ] using ih

/-- Written digits are read back. -/
theorem digitsValue_toDigits (n : Nat) : digitsValue (Nat.toDigits 10 n) = n := by
  induction n using Nat.strong_induction_on with
  | _ n ih =>
    rw [Nat.toDigits_eq_if (by decide)]
    split
    case isTrue h => exact digitsValue_digitChar h
    case isFalse h =>
      rw [digitsValue_append, ih (n / 10) (by omega), digitsValue_digitChar (by omega)]
      simp only [List.length_singleton, pow_one]
      omega

/-- No number but zero is written with a zero in front. -/
theorem head_toDigits {n : Nat} (h : 0 < n) : (Nat.toDigits 10 n).head? ≠ some '0' := by
  induction n using Nat.strong_induction_on with
  | _ n ih =>
    rw [Nat.toDigits_eq_if (by decide)]
    split
    case isTrue hlt =>
      rw [List.head?_cons, ne_eq, Option.some.injEq, Nat.digitChar_eq_zero]
      omega
    case isFalse hge =>
      rw [List.head?_append_of_ne_nil _ Nat.toDigits_ne_nil]
      exact ih (n / 10) (by omega) (by omega)

/-- Nothing but digits. -/
def AllDigits (ds : List Char) : Prop := ∀ c ∈ ds, c.isDigit = true

theorem allDigits_toDigits (n : Nat) : AllDigits (Nat.toDigits 10 n) := fun _ h =>
  Nat.isDigit_of_mem_toDigits (by decide) (by decide) h

theorem allDigits_zeros (n : Nat) : AllDigits (List.replicate n '0') := fun c h => by
  rw [List.eq_of_mem_replicate h]
  rfl

theorem AllDigits.append {ds ds' : List Char} (h : AllDigits ds) (h' : AllDigits ds') :
    AllDigits (ds ++ ds') := fun c hc =>
  (List.mem_append.mp hc).elim (h c) (h' c)

end Btwattch2.Lib
