/-
Btwattch2.Decimal — `f64` as text: reading a decimal, and the shortest one that
reads back as the same value.

Exponents are not bounded. A literal past either end of the `f64` range reads as
a huge or a tiny value here, and nothing in the program tells it from infinity
or zero.
-/
import Btwattch2.Measurement
import Btwattch2.Text

namespace Btwattch2.F64

/-! ## Reading -/

inductive Value where
  | nan
  | infinite (negative : Bool)
  | finite (negative : Bool) (magnitude : ℚ)
  deriving DecidableEq, Repr

def digitsValue (ds : List Char) : Nat :=
  ds.foldl (fun acc c => acc * 10 + (c.toNat - '0'.toNat)) 0

def parseExponent (cs : List Char) : Option Int :=
  let (negative, ds) := match cs with
    | '+' :: ds => (false, ds)
    | '-' :: ds => (true, ds)
    | ds => (false, ds)
  if ds.isEmpty || !ds.all Char.isDigit then none
  else some (if negative then -digitsValue ds else digitsValue ds)

/-- Digits with a point among them, before them or after them, and an exponent. -/
def parseDecimal (cs : List Char) : Option ℚ :=
  let (whole, rest) := cs.span Char.isDigit
  let (frac, rest) := match rest with
    | '.' :: rest => rest.span Char.isDigit
    | rest => ([], rest)
  let mantissa : ℚ := digitsValue (whole ++ frac) / 10 ^ frac.length
  if whole.isEmpty && frac.isEmpty then none
  else match rest with
    | [] => some mantissa
    | e :: rest =>
      if e = 'e' ∨ e = 'E' then (parseExponent rest).map fun k => mantissa * 10 ^ k else none

/-- `f64::from_str`. -/
def parse (s : String) : Option Value :=
  let (negative, cs) := match s.toList with
    | '+' :: cs => (false, cs)
    | '-' :: cs => (true, cs)
    | cs => (false, cs)
  let name := String.ofList (cs.map Char.toLower)
  if name = "nan" then some .nan
  else if name = "inf" ∨ name = "infinity" then some (.infinite negative)
  else (parseDecimal cs).map fun q => .finite negative (round q)

example : parse "0.5" = some (.finite false (1 / 2)) := by decide +kernel

/-! ## Writing -/

/-- The decimal exponent of a positive rational: the `e` with
`10 ^ e ≤ q < 10 ^ (e + 1)`. -/
def exponent10 (q : ℚ) : Int :=
  let digits (n : Nat) : Int := (Nat.toDigits 10 n).length
  let e := digits q.num.natAbs - digits q.den
  if (10 : ℚ) ^ e ≤ q then e else e - 1

/-- The multiple of `10 ^ k` nearest to `q` that reads back as `q`. -/
def candidate (q : ℚ) (k : Int) : Option Nat :=
  let unit : ℚ := 10 ^ k
  let below := (q / unit).floor.toNat
  let reads (d : Nat) : Bool := round (d * unit) = q
  if reads below && reads (below + 1) then
    some (if q - below * unit ≤ (below + 1 : Nat) * unit - q then below else below + 1)
  else if reads below then some below
  else if reads (below + 1) then some (below + 1)
  else none

/-- The fewest digits that read back as `q`, as a number and the power of ten it
is taken to; seventeen are always enough. -/
def shortest (q : ℚ) : Nat × Int :=
  let e := exponent10 q
  let found := (List.range 17).findSome? fun (i : Nat) =>
    (candidate q (e - i)).map fun d => (d, e - (i : Int))
  let (d, k) := found.getD (0, 0)
  if d % 10 = 0 then (d / 10, k + 1) else (d, k)

def positional (d : Nat) (k : Int) : List Char :=
  let ds := Nat.toDigits 10 d
  let places := (-k).toNat
  if 0 ≤ k then ds ++ List.replicate k.toNat '0'
  else if places < ds.length then
    ds.take (ds.length - places) ++ '.' :: ds.drop (ds.length - places)
  else '0' :: '.' :: (List.replicate (places - ds.length) '0' ++ ds)

/-- `Display` of an `f64`. -/
def display (q : ℚ) : String :=
  String.ofList <|
    if q = 0 then ['0']
    else
      let (d, k) := shortest |q|
      if q < 0 then '-' :: positional d k else positional d k

/-- The characters of a decimal. -/
def isDecimalChar (c : Char) : Bool := c.isDigit || c == '.' || c == '-'

theorem isDecimalChar_of_isDigit {c : Char} (h : c.isDigit = true) : isDecimalChar c = true := by
  simp [isDecimalChar, h]

theorem isDecimalChar_positional (d : Nat) (k : Int) :
    ∀ c ∈ positional d k, isDecimalChar c = true := by
  have hdigits : ∀ c ∈ Nat.toDigits 10 d, isDecimalChar c = true := fun c hc =>
    isDecimalChar_of_isDigit (Nat.isDigit_of_mem_toDigits (by decide) (by decide) hc)
  intro c hc
  unfold positional at hc
  dsimp only at hc
  split at hc
  · rcases List.mem_append.mp hc with hc | hc
    · exact hdigits c hc
    · rw [List.eq_of_mem_replicate hc]
      rfl
  · split at hc
    · rcases List.mem_append.mp hc with hc | hc
      · exact hdigits c (List.mem_of_mem_take hc)
      · rcases List.mem_cons.mp hc with rfl | hc
        · rfl
        · exact hdigits c (List.mem_of_mem_drop hc)
    · rcases List.mem_cons.mp hc with rfl | hc
      · rfl
      rcases List.mem_cons.mp hc with rfl | hc
      · rfl
      rcases List.mem_append.mp hc with hc | hc
      · rw [List.eq_of_mem_replicate hc]
        rfl
      · exact hdigits c hc

theorem isDecimalChar_display (q : ℚ) : ∀ c ∈ (display q).toList, isDecimalChar c = true := by
  intro c hc
  unfold display at hc
  rw [String.toList_ofList] at hc
  split at hc
  · rw [List.mem_singleton.mp hc]
    rfl
  · dsimp only at hc
    split at hc
    · rcases List.mem_cons.mp hc with rfl | hc
      · rfl
      · exact isDecimalChar_positional _ _ c hc
    · exact isDecimalChar_positional _ _ c hc

example : display (round (1 / 10)) = "0.1" := by decide +kernel

example : display (247 / 2) = "123.5" := by decide +kernel

end Btwattch2.F64
