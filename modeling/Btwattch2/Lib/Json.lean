/-
Btwattch2.Lib.Json — JSON text: the values, a writer of the compact form and a reader
that skips white space, unescapes strings and bounds the nesting.

Floats are a parameter with their own writer and reader (`FloatCodec`). A number
without a fraction and an exponent is an integer as long as it fits 64 bits, signed
or unsigned, and is not a negative zero; every other number is a float.
-/
import Btwattch2.Lib.Digits

namespace Btwattch2.Lib

inductive Json (φ : Type) where
  | null
  | bool (b : Bool)
  | int (n : Int)
  | float (x : φ)
  | str (s : String)
  | arr (elems : List (Json φ))
  | obj (members : List (String × Json φ))

namespace Json

/-! ## The text of numbers -/

def signText (negative : Bool) : List Char := if negative then ['-'] else []

def fractionText : List Char → List Char
  | [] => []
  | ds => '.' :: ds

/-- An exponent: its letter, its sign if there is one, and its digits. -/
def exponentText : Option (Char × List Char × List Char) → List Char
  | none => []
  | some (letter, sign, ds) => letter :: (sign ++ ds)

/-- The parts of a number. -/
structure NumberText where
  negative : Bool
  whole : List Char
  fraction : List Char
  exponent : Option (Char × List Char × List Char)

namespace NumberText

variable (t : NumberText)

def text : List Char :=
  signText t.negative ++ (t.whole ++ (fractionText t.fraction ++ exponentText t.exponent))

def isFloat : Bool := !t.fraction.isEmpty || t.exponent.isSome

/-- No digits but a zero alone start with a zero. -/
structure WellFormed : Prop where
  whole_ne_nil : t.whole ≠ []
  whole_digits : ∀ c ∈ t.whole, c.isDigit = true
  leading : t.whole.head? = some '0' → t.whole = ['0']
  fraction_digits : ∀ c ∈ t.fraction, c.isDigit = true
  exponent_shape : ∀ letter sign ds, t.exponent = some (letter, sign, ds) →
    (letter = 'e' ∨ letter = 'E') ∧ (sign = [] ∨ sign = ['+'] ∨ sign = ['-']) ∧ ds ≠ [] ∧
      ∀ c ∈ ds, c.isDigit = true

end NumberText

/-- Writing and reading floats. What is written is a number that is no integer. -/
structure FloatCodec (φ : Type) where
  parts : φ → NumberText
  read : List Char → Option φ
  wellFormed : ∀ x, (parts x).WellFormed
  isFloat : ∀ x, (parts x).isFloat = true

def FloatCodec.write {φ : Type} (codec : FloatCodec φ) (x : φ) : List Char := (codec.parts x).text

/-! ## The writer -/

/-- Two characters or six for what cannot stand in a string, lower-case hexadecimal. -/
def escape (c : Char) : List Char :=
  if c = '"' then ['\\', '"']
  else if c = '\\' then ['\\', '\\']
  else if c = '\n' then ['\\', 'n']
  else if c = '\r' then ['\\', 'r']
  else if c = '\t' then ['\\', 't']
  else if c.toNat = 0x08 then ['\\', 'b']
  else if c.toNat = 0x0C then ['\\', 'f']
  else if c.toNat < 0x20 then
    ['\\', 'u', '0', '0', Nat.digitChar (c.toNat / 16), Nat.digitChar (c.toNat % 16)]
  else [c]

def printStr (s : String) : List Char := '"' :: (s.toList.flatMap escape ++ ['"'])

def printInt (n : Int) : List Char := signText (n < 0) ++ Nat.toDigits 10 n.natAbs

variable {φ : Type}

section

variable (codec : FloatCodec φ)

mutual

def print : Json φ → List Char
  | .null => ['n', 'u', 'l', 'l']
  | .bool true => ['t', 'r', 'u', 'e']
  | .bool false => ['f', 'a', 'l', 's', 'e']
  | .int n => printInt n
  | .float x => codec.write x
  | .str s => printStr s
  | .arr elems => '[' :: ([','].intercalate (printElems elems) ++ [']'])
  | .obj members => '\x7b' :: ([','].intercalate (printMembers members) ++ ['\x7d'])

def printElems : List (Json φ) → List (List Char)
  | [] => []
  | elem :: elems => print elem :: printElems elems

def printMembers : List (String × Json φ) → List (List Char)
  | [] => []
  | (key, value) :: members => (printStr key ++ ':' :: print value) :: printMembers members

end

end

/-! ## The reader -/

def isWs (c : Char) : Bool := c == ' ' || c == '\n' || c == '\t' || c == '\r'

def skipWs (cs : List Char) : List Char := cs.dropWhile isWs

/-- `true`, `false` and `null`, whose first letter has been read. -/
def readIdent (rest : List Char) (value : Json φ) (cs : List Char) :
    Option (Json φ × List Char) :=
  (rest.isPrefixOf? cs).map fun cs => (value, cs)

def hexVal (c : Char) : Option Nat :=
  if c.isDigit then some (c.toNat - '0'.toNat)
  else if 'a' ≤ c ∧ c ≤ 'f' then some (c.toNat - 'a'.toNat + 10)
  else if 'A' ≤ c ∧ c ≤ 'F' then some (c.toNat - 'A'.toNat + 10)
  else none

def readHex4 : List Char → Option (Nat × List Char)
  | a :: b :: c :: d :: cs =>
    match hexVal a, hexVal b, hexVal c, hexVal d with
    | some a, some b, some c, some d => some (((a * 16 + b) * 16 + c) * 16 + d, cs)
    | _, _, _, _ => none
  | _ => none

/-- The second half of a surrogate pair. -/
def readTrailing (leading : Nat) : List Char → Option (Char × List Char)
  | '\\' :: 'u' :: cs =>
    match readHex4 cs with
    | some (n, cs) =>
      if 0xDC00 ≤ n ∧ n ≤ 0xDFFF then
        some (Char.ofNat ((leading - 0xD800) * 0x400 + (n - 0xDC00) + 0x10000), cs)
      else none
    | none => none
  | _ => none

/-- What stands behind a backslash. -/
def readEscape : List Char → Option (Char × List Char)
  | [] => none
  | c :: cs =>
    if c = '"' ∨ c = '\\' ∨ c = '/' then some (c, cs)
    else if c = 'b' then some (Char.ofNat 0x08, cs)
    else if c = 'f' then some (Char.ofNat 0x0C, cs)
    else if c = 'n' then some ('\n', cs)
    else if c = 'r' then some ('\r', cs)
    else if c = 't' then some ('\t', cs)
    else if c = 'u' then
      match readHex4 cs with
      | none => none
      | some (n, cs) =>
        if 0xD800 ≤ n ∧ n ≤ 0xDBFF then readTrailing n cs
        else if 0xDC00 ≤ n ∧ n ≤ 0xDFFF then none
        else some (Char.ofNat n, cs)
    else none

/-- The rest of a string, up to its closing quote. Control characters cannot stand in
it as they are. -/
def readStr : Nat → List Char → Option (List Char × List Char)
  | 0, _ => none
  | _ + 1, [] => none
  | fuel + 1, c :: cs =>
    if c = '"' then some ([], cs)
    else if c = '\\' then
      match readEscape cs with
      | none => none
      | some (d, cs) => (readStr fuel cs).map fun (ds, cs) => (d :: ds, cs)
    else if c.toNat < 0x20 then none
    else (readStr fuel cs).map fun (ds, cs) => (c :: ds, cs)

def readFraction : List Char → Option (List Char × List Char)
  | '.' :: cs =>
    let (ds, rest) := cs.span Char.isDigit
    if ds.isEmpty then none else some (ds, rest)
  | cs => some ([], cs)

def readSign : List Char → List Char × List Char
  | '+' :: cs => (['+'], cs)
  | '-' :: cs => (['-'], cs)
  | cs => ([], cs)

def readExponent : List Char → Option (Option (Char × List Char × List Char) × List Char)
  | [] => some (none, [])
  | letter :: cs =>
    if letter = 'e' ∨ letter = 'E' then
      let (sign, cs) := readSign cs
      let (ds, rest) := cs.span Char.isDigit
      if ds.isEmpty then none else some (some (letter, sign, ds), rest)
    else some (none, letter :: cs)

def readMinus : List Char → Bool × List Char
  | '-' :: cs => (true, cs)
  | cs => (false, cs)

def readNumberText (cs : List Char) : Option (NumberText × List Char) :=
  let (negative, cs) := readMinus cs
  let (whole, cs) := cs.span Char.isDigit
  if whole.isEmpty || (whole.head? == some '0' && whole != ['0']) then none
  else match readFraction cs with
    | none => none
    | some (fraction, cs) =>
      match readExponent cs with
      | none => none
      | some (exponent, cs) => some (⟨negative, whole, fraction, exponent⟩, cs)

/-- The integers that are kept as such. -/
def Fits (n : Int) : Prop := -2 ^ 63 ≤ n ∧ n < 2 ^ 64

instance (n : Int) : Decidable (Fits n) := inferInstanceAs (Decidable (_ ∧ _))

section

variable (codec : FloatCodec φ)

def numberValue (t : NumberText) : Option (Json φ) :=
  let n : Int := if t.negative then -digitsValue t.whole else digitsValue t.whole
  if t.isFloat = false ∧ Fits n ∧ ¬ (t.negative = true ∧ n = 0) then some (.int n)
  else (codec.read t.text).map .float

def readNumber (cs : List Char) : Option (Json φ × List Char) :=
  match readNumberText cs with
  | none => none
  | some (t, rest) => (numberValue codec t).map fun value => (value, rest)

end

section

variable {α : Type} (item : List Char → Option (α × List Char)) (close : Char)

/-- What follows an item of a list: the closing bracket, or a comma and another item. -/
def readTail : Nat → List Char → Option (List α × List Char)
  | 0, _ => none
  | fuel + 1, cs =>
    match skipWs cs with
    | [] => none
    | c :: cs =>
      if c = close then some ([], cs)
      else if c = ',' then
        match item cs with
        | none => none
        | some (x, cs) => (readTail fuel cs).map fun (xs, cs) => (x :: xs, cs)
      else none

/-- A list behind its opening bracket. -/
def readList (fuel : Nat) (cs : List Char) : Option (List α × List Char) :=
  match skipWs cs with
  | [] => none
  | c :: cs =>
    if c = close then some ([], cs)
    else match item (c :: cs) with
      | none => none
      | some (x, cs) => (readTail item close fuel cs).map fun (xs, cs) => (x :: xs, cs)

end

/-- A key, a colon and a value. -/
def readMember (value : List Char → Option (Json φ × List Char)) (cs : List Char) :
    Option ((String × Json φ) × List Char) :=
  match skipWs cs with
  | '"' :: cs =>
    match readStr (cs.length + 1) cs with
    | none => none
    | some (key, cs) =>
      match skipWs cs with
      | ':' :: cs => (value cs).map fun (v, cs) => ((String.ofList key, v), cs)
      | _ => none
  | _ => none

section

variable (codec : FloatCodec φ)

/-- A value in at most `depth` brackets. -/
def readValue : Nat → List Char → Option (Json φ × List Char)
  | depth, cs =>
    match skipWs cs with
    | [] => none
    | c :: cs =>
      if c = 'n' then readIdent ['u', 'l', 'l'] .null cs
      else if c = 't' then readIdent ['r', 'u', 'e'] (.bool true) cs
      else if c = 'f' then readIdent ['a', 'l', 's', 'e'] (.bool false) cs
      else if c = '"' then
        (readStr (cs.length + 1) cs).map fun (ds, cs) => (.str (String.ofList ds), cs)
      else if c = '[' then
        match depth with
        | 0 => none
        | depth + 1 => (readList (readValue depth) ']' (cs.length + 1) cs).map fun (elems, cs) =>
          (.arr elems, cs)
      else if c = '\x7b' then
        match depth with
        | 0 => none
        | depth + 1 =>
          (readList (readMember (readValue depth)) '\x7d' (cs.length + 1) cs).map
            fun (members, cs) => (.obj members, cs)
      else readNumber codec (c :: cs)

/-- How deep values may be nested. -/
def maxDepth : Nat := 127

/-- A value with nothing but white space around it. -/
def parse (cs : List Char) : Option (Json φ) :=
  match readValue codec maxDepth cs with
  | some (value, rest) => if skipWs rest = [] then some value else none
  | none => none

end

end Json

end Btwattch2.Lib
