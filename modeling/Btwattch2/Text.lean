/-
Btwattch2.Text — what the program takes from the strings of its language: lines,
trimming, prefixes and suffixes, and unsigned integers.
-/
import Mathlib.Data.List.Basic

namespace Btwattch2.Text

/-- The characters with the `White_Space` property. -/
def isWhitespace (c : Char) : Bool :=
  let n := c.toNat
  (0x09 ≤ n && n ≤ 0x0D) || n == 0x20 || n == 0x85 || n == 0xA0 || n == 0x1680 ||
    (0x2000 ≤ n && n ≤ 0x200A) || n == 0x2028 || n == 0x2029 || n == 0x202F || n == 0x205F ||
    n == 0x3000

/-- Lines end at `\n` or at `\r\n`; the end of the last one is optional. -/
def splitLines : List Char → List (List Char)
  | [] => []
  | '\n' :: cs => [] :: splitLines cs
  | '\r' :: '\n' :: cs => [] :: splitLines cs
  | c :: cs =>
    match splitLines cs with
    | [] => [[c]]
    | line :: rest => (c :: line) :: rest

def lines (s : String) : List String := (splitLines s.toList).map String.ofList

def trimStart (s : String) : String := String.ofList (s.toList.dropWhile isWhitespace)

def trimEnd (s : String) : String :=
  String.ofList (s.toList.reverse.dropWhile isWhitespace).reverse

def trim (s : String) : String := trimEnd (trimStart s)

def stripPrefix (pre s : String) : Option String :=
  (pre.toList.isPrefixOf? s.toList).map String.ofList

def stripSuffix (suffix s : String) : Option String :=
  (suffix.toList.isSuffixOf? s.toList).map String.ofList

/-- The text before and after the first `c`. -/
def splitOnce (c : Char) (s : String) : Option (String × String) :=
  match s.toList.span (· != c) with
  | (_, []) => none
  | (before, _ :: after) => some (String.ofList before, String.ofList after)

/-- The words between white space. -/
def splitWhitespace (s : String) : List String :=
  ((s.toList.splitOnP isWhitespace).filter fun word => !word.isEmpty).map String.ofList

/-! ## Unsigned integers -/

/-- `char::to_digit`, for a radix of at most ten. -/
def toDigit (radix : Nat) (c : Char) : Option Nat :=
  let n := c.toNat
  if '0'.toNat ≤ n ∧ n < '0'.toNat + radix then some (n - '0'.toNat) else none

/-- The digits in order, refusing the first that is none or takes the value past
`max`. -/
def readDigits (radix max : Nat) : List Char → Nat → Except String Nat
  | [], acc => .ok acc
  | c :: cs, acc =>
    match toDigit radix c with
    | none => .error "invalid digit found in string"
    | some d =>
      if max < acc * radix + d then .error "number too large to fit in target type"
      else readDigits radix max cs (acc * radix + d)

/-- `from_str_radix` of an unsigned integer that holds at most `max`. A minus sign
is a digit that is none. -/
def fromStrRadix (radix max : Nat) (s : String) : Except String Nat :=
  match s.toList with
  | [] => .error "cannot parse integer from empty string"
  | ['+'] => .error "invalid digit found in string"
  | '+' :: cs => readDigits radix max cs 0
  | cs => readDigits radix max cs 0

/-! ## Lines put together -/

theorem splitLines_append_newline : ∀ {line : List Char} (rest : List Char),
    '\n' ∉ line → line.getLast? ≠ some '\r' →
    splitLines (line ++ '\n' :: rest) = line :: splitLines rest
  | [], rest, _, _ => by simp [splitLines]
  | [c], rest, hn, hr => by
    have ih : splitLines ('\n' :: rest) = [] :: splitLines rest := by simp [splitLines]
    rw [List.cons_append, List.nil_append, splitLines, ih]
    · rintro rfl
      simp at hn
    · rintro cs rfl
      simp at hr
  | c :: d :: line, rest, hn, hr => by
    have ih : splitLines (d :: line ++ '\n' :: rest) = (d :: line) :: splitLines rest :=
      splitLines_append_newline rest (by simp_all) (by simpa using hr)
    rw [List.cons_append, splitLines, ih]
    · rintro rfl
      simp at hn
    · rintro cs - heq
      rw [List.cons_append] at heq
      rw [(List.cons_eq_cons.mp heq).1] at hn
      simp at hn

/-- Lines that are each ended by a newline are read back. -/
theorem splitLines_flatMap : ∀ {ls : List (List Char)},
    (∀ line ∈ ls, '\n' ∉ line ∧ line.getLast? ≠ some '\r') →
    splitLines (ls.flatMap fun line => line ++ ['\n']) = ls
  | [], _ => rfl
  | line :: ls, h => by
    obtain ⟨hn, hr⟩ := h line (by simp)
    have ih : splitLines (ls.flatMap fun line => line ++ ['\n']) = ls :=
      splitLines_flatMap fun l hl => h l (by simp [hl])
    rw [List.flatMap_cons, List.append_assoc, List.singleton_append,
      splitLines_append_newline _ hn hr, ih]

example : lines "a = 1\r\n\n[b]" = ["a = 1", "", "[b]"] := by decide +kernel

example : fromStrRadix 8 (2 ^ 32 - 1) "0660" = .ok 0o660 := by decide +kernel

end Btwattch2.Text
