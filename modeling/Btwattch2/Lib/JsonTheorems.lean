/-
Btwattch2.Lib.JsonTheorems — what the writer of `Lib.Json` writes, the reader reads.

A text is read from its start and what follows is left alone, so each lemma is about
a written piece with a rest behind it. Behind a number the rest has to begin with no
character of a number (`Stops`), which commas and closing brackets do not.
-/
import Btwattch2.Lib.Json
import Btwattch2.Lib.Table
import Mathlib.Data.Char

namespace Btwattch2.Lib.Json

variable {φ : Type} {codec : FloatCodec φ}

/-! ## White space -/

theorem skipWs_cons {c : Char} (cs : List Char) (h : isWs c = false) :
    skipWs (c :: cs) = c :: cs := List.dropWhile_cons_of_neg (by simp [h])

/-! ## Strings -/

theorem hexVal_digitChar {n : Nat} (h : n < 16) : hexVal (Nat.digitChar n) = some n := by
  have hall : ∀ n < 16, hexVal (Nat.digitChar n) = some n := by decide
  exact hall n h

theorem readHex4_control {n : Nat} (h : n < 0x20) (rest : List Char) :
    readHex4 ('0' :: '0' :: Nat.digitChar (n / 16) :: Nat.digitChar (n % 16) :: rest) =
      some (n, rest) := by
  have hzero : hexVal '0' = some 0 := rfl
  rw [readHex4, hzero, hexVal_digitChar (by omega), hexVal_digitChar (by omega)]
  simp only [Option.some.injEq, Prod.mk.injEq, and_true]
  omega

/-- An escaped character is read as itself. -/
theorem readStr_escape (c : Char) (fuel : Nat) (rest : List Char) :
    readStr (fuel + 1) (escape c ++ rest) =
      (readStr fuel rest).map fun (ds, cs) => (c :: ds, cs) := by
  unfold escape
  split
  case isTrue h =>
    subst h
    rfl
  split
  case isTrue h =>
    subst h
    rfl
  split
  case isTrue h =>
    subst h
    rfl
  split
  case isTrue h =>
    subst h
    rfl
  split
  case isTrue h =>
    subst h
    rfl
  split
  case isTrue h =>
    have hc : c = Char.ofNat 0x08 := by rw [← h, Char.ofNat_toNat]
    subst hc
    rfl
  split
  case isTrue h =>
    have hc : c = Char.ofNat 0x0C := by rw [← h, Char.ofNat_toNat]
    subst hc
    rfl
  split
  case isTrue h =>
    have hread : readEscape ('u' :: '0' :: '0' :: Nat.digitChar (c.toNat / 16) ::
        Nat.digitChar (c.toNat % 16) :: rest) = some (c, rest) := by
      have hhex := readHex4_control h rest
      simp only [readEscape, hhex]
      rw [if_neg (by decide), if_neg (by decide), if_neg (by decide), if_neg (by decide),
        if_neg (by decide), if_neg (by decide), if_pos trivial, if_neg (by omega), if_neg (by omega),
        Char.ofNat_toNat]
    simp only [List.cons_append, List.nil_append, readStr]
    rw [if_neg (by decide), if_pos trivial, hread]
  case isFalse hquote hslash _ _ _ _ _ h =>
    simp only [List.cons_append, List.nil_append, readStr]
    rw [if_neg hquote, if_neg hslash, if_neg h]

theorem readStr_flatMap (cs : List Char) (rest : List Char) {fuel : Nat} (h : cs.length < fuel) :
    readStr fuel (cs.flatMap escape ++ '"' :: rest) = some (cs, rest) := by
  induction cs generalizing fuel with
  | nil =>
    obtain ⟨fuel, rfl⟩ : ∃ n, fuel = n + 1 := ⟨fuel - 1, by simp at h; omega⟩
    rfl
  | cons c cs ih =>
    obtain ⟨fuel, rfl⟩ : ∃ n, fuel = n + 1 := ⟨fuel - 1, by simp at h; omega⟩
    rw [List.flatMap_cons, List.append_assoc, readStr_escape, ih (by simpa using h)]
    rfl

theorem length_le_flatMap_escape (cs : List Char) : cs.length ≤ (cs.flatMap escape).length := by
  induction cs with
  | nil => simp
  | cons c cs ih =>
    have hpos : 1 ≤ (escape c).length := by
      unfold escape
      repeat' split
      all_goals simp
    simp only [List.flatMap_cons, List.length_append, List.length_cons]
    omega

/-- A written string is read back, behind its opening quote. -/
theorem readStr_printStr (s : String) (rest : List Char) :
    readStr ((s.toList.flatMap escape ++ '"' :: rest).length + 1)
      (s.toList.flatMap escape ++ '"' :: rest) = some (s.toList, rest) := by
  refine readStr_flatMap _ _ ?_
  have := length_le_flatMap_escape s.toList
  simp only [List.length_append]
  omega

/-! ## Numbers -/

/-- A character that goes on with a number. -/
def isNumberChar (c : Char) : Bool := c.isDigit || c == '.' || c == 'e' || c == 'E'

/-- What may stand behind a number. -/
def Stops (rest : List Char) : Prop := ∀ c ∈ rest.head?, isNumberChar c = false

theorem Stops.not_digit {rest : List Char} (h : Stops rest) :
    ∀ c ∈ rest.head?, c.isDigit = false := fun c hc => by
  have hstop := h c hc
  simp only [isNumberChar, Bool.or_eq_false_iff] at hstop
  exact hstop.1.1.1

theorem readExponent_text {exponent : Option (Char × List Char × List Char)}
    (hshape : ∀ letter sign ds, exponent = some (letter, sign, ds) →
      (letter = 'e' ∨ letter = 'E') ∧ (sign = [] ∨ sign = ['+'] ∨ sign = ['-']) ∧ ds ≠ [] ∧
        ∀ c ∈ ds, c.isDigit = true) {rest : List Char} (hrest : Stops rest) :
    readExponent (exponentText exponent ++ rest) = some (exponent, rest) := by
  cases exponent with
  | none =>
    rw [exponentText, List.nil_append]
    cases rest with
    | nil => rfl
    | cons c rest =>
      have hstop := hrest c rfl
      simp only [isNumberChar, Bool.or_eq_false_iff, beq_eq_false_iff_ne] at hstop
      simp [readExponent, hstop.1.2, hstop.2]
  | some parts =>
    obtain ⟨letter, sign, ds⟩ := parts
    obtain ⟨hletter, hsign, hne, hds⟩ := hshape letter sign ds rfl
    have hspan : (ds ++ rest).span Char.isDigit = (ds, rest) := span_append hds hrest.not_digit
    have hsignRead : readSign (sign ++ (ds ++ rest)) = (sign, ds ++ rest) := by
      rcases hsign with rfl | rfl | rfl
      · obtain ⟨d, ds, rfl⟩ := List.exists_cons_of_ne_nil hne
        have hd := hds d (by simp)
        rw [List.nil_append, List.cons_append]
        unfold readSign
        split
        next h =>
          obtain ⟨rfl, -⟩ := List.cons.inj h
          exact absurd hd (by decide)
        next h =>
          obtain ⟨rfl, -⟩ := List.cons.inj h
          exact absurd hd (by decide)
        next => rfl
      · rfl
      · rfl
    have hempty : ds.isEmpty = false := by simpa using hne
    rw [exponentText, List.cons_append, List.append_assoc, readExponent, if_pos hletter]
    simp only [hsignRead, hspan, hempty, Bool.false_eq_true, if_false]

theorem readFraction_text {fraction : List Char} (hds : ∀ c ∈ fraction, c.isDigit = true)
    {rest : List Char} (hrest : ∀ c ∈ rest.head?, c.isDigit = false ∧ c ≠ '.') :
    readFraction (fractionText fraction ++ rest) = some (fraction, rest) := by
  cases fraction with
  | nil =>
    rw [fractionText, List.nil_append]
    unfold readFraction
    split
    next => exact absurd rfl (hrest '.' rfl).2
    next => rfl
  | cons d ds =>
    have hspan : (d :: ds ++ rest).span Char.isDigit = (d :: ds, rest) :=
      span_append hds fun c hc => (hrest c hc).1
    show readFraction ('.' :: (d :: ds ++ rest)) = _
    simp only [readFraction, hspan]
    rfl

theorem head_exponentText {exponent : Option (Char × List Char × List Char)}
    (hshape : ∀ letter sign ds, exponent = some (letter, sign, ds) → letter = 'e' ∨ letter = 'E')
    {rest : List Char} (hrest : Stops rest) :
    ∀ c ∈ (exponentText exponent ++ rest).head?, c.isDigit = false ∧ c ≠ '.' := by
  intro c hc
  cases exponent with
  | none =>
    have hstop := hrest c hc
    simp only [isNumberChar, Bool.or_eq_false_iff, beq_eq_false_iff_ne] at hstop
    exact hstop.1.1
  | some parts =>
    obtain ⟨letter, sign, ds⟩ := parts
    rw [exponentText, List.cons_append, List.head?_cons, Option.mem_some_iff] at hc
    subst hc
    rcases hshape _ _ _ rfl with rfl | rfl <;> decide

theorem readMinus_signText (negative : Bool) {ds : List Char} (hne : ds ≠ [])
    (hds : ∀ c ∈ ds, c.isDigit = true) (rest : List Char) :
    readMinus (signText negative ++ (ds ++ rest)) = (negative, ds ++ rest) := by
  cases negative with
  | true => rfl
  | false =>
    obtain ⟨d, ds, rfl⟩ := List.exists_cons_of_ne_nil hne
    have hd := hds d (by simp)
    rw [signText, if_neg (by decide), List.nil_append, List.cons_append]
    unfold readMinus
    split
    next heq =>
      obtain ⟨rfl, -⟩ := List.cons.inj heq
      exact absurd hd (by decide)
    next => rfl

/-- The text of a number is taken apart into its parts. -/
theorem readNumberText_text {t : NumberText} (h : t.WellFormed) {rest : List Char}
    (hrest : Stops rest) : readNumberText (t.text ++ rest) = some (t, rest) := by
  obtain ⟨negative, whole, fraction, exponent⟩ := t
  have hletter : ∀ letter sign ds, exponent = some (letter, sign, ds) →
      letter = 'e' ∨ letter = 'E' := fun letter sign ds heq => (h.exponent_shape _ _ _ heq).1
  have hexponent := readExponent_text h.exponent_shape hrest
  have hhead := head_exponentText hletter hrest
  have hfraction := readFraction_text h.fraction_digits hhead
  have hwhole : (whole ++ (fractionText fraction ++ (exponentText exponent ++ rest))).span
      Char.isDigit = (whole, fractionText fraction ++ (exponentText exponent ++ rest)) := by
    refine span_append h.whole_digits fun c hc => ?_
    cases fraction with
    | nil => exact (hhead c hc).1
    | cons d ds =>
      have hpoint : c = '.' := (Option.mem_some_iff.mp hc).symm
      subst hpoint
      decide
  have hempty : whole.isEmpty = false := by simpa using h.whole_ne_nil
  have hleading : (whole.head? == some '0' && whole != ['0']) = false := by
    rw [Bool.and_eq_false_iff, beq_eq_false_iff_ne, bne_eq_false_iff_eq]
    by_cases hzero : whole.head? = some '0'
    · exact .inr (h.leading hzero)
    · exact .inl hzero
  have hminus := readMinus_signText negative h.whole_ne_nil h.whole_digits
    (fractionText fraction ++ (exponentText exponent ++ rest))
  simp only [NumberText.text, List.append_assoc, readNumberText, hminus, hwhole, hempty, hleading,
    Bool.or_false, Bool.false_eq_true, if_false, hfraction, hexponent]

/-- The parts of an integer. -/
def intText (n : Int) : NumberText := ⟨n < 0, Nat.toDigits 10 n.natAbs, [], none⟩

theorem text_intText (n : Int) : (intText n).text = printInt n := by
  simp [intText, NumberText.text, printInt, fractionText, exponentText]

theorem wellFormed_intText (n : Int) : (intText n).WellFormed := by
  constructor
  case whole_ne_nil => exact Nat.toDigits_ne_nil
  case whole_digits => exact allDigits_toDigits _
  case leading =>
    intro hzero
    have habs : n.natAbs = 0 := by
      by_contra hne
      exact head_toDigits (Nat.pos_of_ne_zero hne) hzero
    simp [intText, habs]
  case fraction_digits => simp [intText]
  case exponent_shape => simp [intText]

theorem readNumber_printInt {n : Int} (h : Fits n) {rest : List Char} (hrest : Stops rest) :
    readNumber codec (printInt n ++ rest) = some (.int n, rest) := by
  rw [← text_intText]
  unfold readNumber
  rw [readNumberText_text (wellFormed_intText n) hrest]
  have hvalue : (if (intText n).negative then -digitsValue (intText n).whole
      else digitsValue (intText n).whole : Int) = n := by
    simp only [intText, digitsValue_toDigits, decide_eq_true_eq]
    split <;> omega
  have hzero : ¬ ((intText n).negative = true ∧ n = 0) := by
    rintro ⟨hneg, rfl⟩
    cases hneg
  simp only [numberValue, hvalue]
  rw [if_pos ⟨rfl, h, hzero⟩]
  rfl

theorem readNumber_write {x y : φ} (h : codec.read (codec.write x) = some y) {rest : List Char}
    (hrest : Stops rest) : readNumber codec (codec.write x ++ rest) = some (.float y, rest) := by
  unfold readNumber FloatCodec.write
  rw [readNumberText_text (codec.wellFormed x) hrest]
  simp only [numberValue, codec.isFloat]
  rw [if_neg (by simp)]
  rw [FloatCodec.write] at h
  rw [h]
  rfl

/-- A number starts with a digit or a minus sign. -/
theorem head_text {t : NumberText} (h : t.WellFormed) :
    ∃ c cs, t.text = c :: cs ∧ (c.isDigit = true ∨ c = '-') := by
  obtain ⟨d, ds, hwhole⟩ := List.exists_cons_of_ne_nil h.whole_ne_nil
  unfold NumberText.text
  cases t.negative with
  | true => exact ⟨'-', _, rfl, .inr rfl⟩
  | false =>
    rw [hwhole]
    exact ⟨d, _, rfl, .inl (h.whole_digits d (by simp [hwhole]))⟩

/-! ## Lists -/

section

variable {α : Type} {item : List Char → Option (α × List Char)} {write : α → List Char}
    {back : α → α} {close : Char}

/-- The texts of the items, each behind a comma. -/
def commaTail (texts : List (List Char)) : List Char := texts.flatMap fun text => ',' :: text

theorem intercalate_comma (text : List Char) (texts : List (List Char)) :
    [','].intercalate (text :: texts) = text ++ commaTail texts := by
  induction texts generalizing text with
  | nil => simp [commaTail]
  | cons next texts ih => rw [List.intercalate_cons_cons, ih, commaTail]; simp [commaTail]

theorem head_commaTail (xs : List α) (rest : List Char) :
    ∃ c cs, (c = ',' ∨ c = close) ∧ commaTail (xs.map write) ++ close :: rest = c :: cs := by
  cases xs with
  | nil => exact ⟨close, rest, .inr rfl, rfl⟩
  | cons y ys => exact ⟨',', _, .inl rfl, rfl⟩

/-- The items are read one after the other, as each is read in front of a comma and in
front of the bracket. -/
theorem readTail_commaTail (hclose : isWs close = false) (hcomma : close ≠ ',') {xs : List α}
    (hitem : ∀ x ∈ xs, ∀ c cs, c = ',' ∨ c = close →
      item (write x ++ c :: cs) = some (back x, c :: cs)) (rest : List Char) {n : Nat}
    (hn : xs.length < n) :
    readTail item close n (commaTail (xs.map write) ++ close :: rest) =
      some (xs.map back, rest) := by
  induction xs generalizing n with
  | nil =>
    obtain ⟨n, rfl⟩ : ∃ m, n = m + 1 := ⟨n - 1, by simp at hn; omega⟩
    rw [List.map_nil, commaTail, List.flatMap_nil, List.nil_append, readTail, skipWs_cons _ hclose]
    simp
  | cons x xs ih =>
    obtain ⟨n, rfl⟩ : ∃ m, n = m + 1 := ⟨n - 1, by simp at hn; omega⟩
    have hrest := ih (fun y hy => hitem y (List.mem_cons_of_mem _ hy)) (n := n) (by simpa using hn)
    obtain ⟨c, cs, hc, heq⟩ := @head_commaTail _ write close xs rest
    have hread := hitem x List.mem_cons_self c cs hc
    rw [← heq] at hread
    have htext : commaTail ((x :: xs).map write) ++ close :: rest =
        ',' :: (write x ++ (commaTail (xs.map write) ++ close :: rest)) := by
      simp [commaTail]
    rw [htext, readTail, skipWs_cons _ (by decide)]
    simp only [if_neg hcomma.symm, if_true, hread, hrest]
    rfl

theorem readList_intercalate (hclose : isWs close = false) (hcomma : close ≠ ',') {xs : List α}
    (hstart : ∀ x ∈ xs, ∃ c cs, write x = c :: cs ∧ isWs c = false ∧ c ≠ close)
    (hitem : ∀ x ∈ xs, ∀ c cs, c = ',' ∨ c = close →
      item (write x ++ c :: cs) = some (back x, c :: cs)) (rest : List Char) {n : Nat}
    (hn : xs.length ≤ n) :
    readList item close n ([','].intercalate (xs.map write) ++ close :: rest) =
      some (xs.map back, rest) := by
  cases xs with
  | nil =>
    rw [List.map_nil, List.intercalate_nil, List.nil_append, readList, skipWs_cons _ hclose]
    simp
  | cons x xs =>
    obtain ⟨c, cs, hwrite, hws, hne⟩ := hstart x List.mem_cons_self
    obtain ⟨d, ds, hd, heq⟩ := @head_commaTail _ write close xs rest
    have hread := hitem x List.mem_cons_self d ds hd
    have hlength : xs.length < n := by
      simp only [List.length_cons] at hn
      omega
    have htail := readTail_commaTail hclose hcomma
      (fun y hy => hitem y (List.mem_cons_of_mem _ hy)) rest hlength
    rw [List.map_cons, intercalate_comma, List.append_assoc, heq]
    rw [hwrite, List.cons_append] at hread ⊢
    rw [readList, skipWs_cons _ hws]
    rw [← heq] at hread ⊢
    simp only [if_neg hne, hread, htail]
    rfl

end

/-! ## Values -/

variable {f : φ → φ}

mutual

/-- Other floats in the same places. -/
def mapFloats (f : φ → φ) : Json φ → Json φ
  | .null => .null
  | .bool b => .bool b
  | .int n => .int n
  | .float x => .float (f x)
  | .str s => .str s
  | .arr elems => .arr (mapElems f elems)
  | .obj members => .obj (mapMembers f members)

def mapElems (f : φ → φ) : List (Json φ) → List (Json φ)
  | [] => []
  | elem :: elems => mapFloats f elem :: mapElems f elems

def mapMembers (f : φ → φ) : List (String × Json φ) → List (String × Json φ)
  | [] => []
  | (key, value) :: members => (key, mapFloats f value) :: mapMembers f members

end

theorem mapElems_eq (elems : List (Json φ)) : mapElems f elems = elems.map (mapFloats f) := by
  induction elems with
  | nil => rfl
  | cons elem elems ih => rw [mapElems, ih, List.map_cons]

theorem mapMembers_eq (members : List (String × Json φ)) :
    mapMembers f members = members.map fun m => (m.1, mapFloats f m.2) := by
  induction members with
  | nil => rfl
  | cons m members ih => rw [mapMembers, ih, List.map_cons]

def printMember (codec : FloatCodec φ) (m : String × Json φ) : List Char :=
  printStr m.1 ++ ':' :: print codec m.2

theorem printElems_eq (elems : List (Json φ)) : printElems codec elems = elems.map (print codec) := by
  induction elems with
  | nil => rfl
  | cons elem elems ih => rw [printElems, ih, List.map_cons]

theorem printMembers_eq (members : List (String × Json φ)) :
    printMembers codec members = members.map (printMember codec) := by
  induction members with
  | nil => rfl
  | cons m members ih => rw [printMembers, ih, List.map_cons, printMember]

/-- A value that can be read back: its brackets are no deeper than `depth`, its integers
fit, and each of its floats is read, as `f` of it. -/
inductive Carries (codec : FloatCodec φ) (f : φ → φ) : Nat → Json φ → Prop
  | null {depth : Nat} : Carries codec f depth .null
  | bool {depth : Nat} (b : Bool) : Carries codec f depth (.bool b)
  | int {depth : Nat} {n : Int} (h : Fits n) : Carries codec f depth (.int n)
  | float {depth : Nat} {x : φ} (h : codec.read (codec.write x) = some (f x)) :
    Carries codec f depth (.float x)
  | str {depth : Nat} (s : String) : Carries codec f depth (.str s)
  | arr {depth : Nat} {elems : List (Json φ)} (h : ∀ j ∈ elems, Carries codec f depth j) :
    Carries codec f (depth + 1) (.arr elems)
  | obj {depth : Nat} {members : List (String × Json φ)}
    (h : ∀ m ∈ members, Carries codec f depth m.2) : Carries codec f (depth + 1) (.obj members)

theorem number_start {c : Char} (h : c.isDigit = true ∨ c = '-') :
    isWs c = false ∧ c ≠ 'n' ∧ c ≠ 't' ∧ c ≠ 'f' ∧ c ≠ '"' ∧ c ≠ '[' ∧ c ≠ '\x7b' ∧ c ≠ ']' ∧
      c ≠ '\x7d' := by
  have hne : ∀ d : Char, d.isDigit = false → d ≠ '-' → c ≠ d := by
    rintro d hdigit hminus rfl
    rcases h with h | h
    · rw [hdigit] at h; cases h
    · exact hminus h
  refine ⟨?_, hne _ (by decide) (by decide), hne _ (by decide) (by decide),
    hne _ (by decide) (by decide), hne _ (by decide) (by decide), hne _ (by decide) (by decide),
    hne _ (by decide) (by decide), hne _ (by decide) (by decide), hne _ (by decide) (by decide)⟩
  simp [isWs, hne ' ' (by decide) (by decide), hne '\n' (by decide) (by decide),
    hne '\t' (by decide) (by decide), hne '\r' (by decide) (by decide)]

/-- Every value starts with a character that is neither white space nor a closing bracket. -/
theorem head_print (j : Json φ) :
    ∃ c cs, print codec j = c :: cs ∧ isWs c = false ∧ c ≠ ']' ∧ c ≠ '\x7d' := by
  have hnumber : ∀ {t : NumberText}, t.WellFormed →
      ∃ c cs, t.text = c :: cs ∧ isWs c = false ∧ c ≠ ']' ∧ c ≠ '\x7d' := by
    intro t ht
    obtain ⟨c, cs, htext, hc⟩ := head_text ht
    obtain ⟨hws, -, -, -, -, -, -, hsquare, hcurly⟩ := number_start hc
    exact ⟨c, cs, htext, hws, hsquare, hcurly⟩
  cases j with
  | null => exact ⟨'n', _, rfl, rfl, by decide, by decide⟩
  | bool b => cases b <;> exact ⟨_, _, rfl, rfl, by decide, by decide⟩
  | int n =>
    rw [print, ← text_intText]
    exact hnumber (wellFormed_intText n)
  | float x =>
    rw [print, FloatCodec.write]
    exact hnumber (codec.wellFormed x)
  | str s => exact ⟨'"', _, rfl, rfl, by decide, by decide⟩
  | arr elems => exact ⟨'[', _, rfl, rfl, by decide, by decide⟩
  | obj members => exact ⟨'\x7b', _, rfl, rfl, by decide, by decide⟩

/-- A number is read as one whatever stands in front of the choice of its reader. -/
theorem readValue_number {t : NumberText} (ht : t.WellFormed) (depth : Nat) (rest : List Char) :
    readValue codec depth (t.text ++ rest) = readNumber codec (t.text ++ rest) := by
  obtain ⟨c, cs, htext, hc⟩ := head_text ht
  obtain ⟨hws, hn, htrue, hfalse, hquote, hsquare, hcurly, -, -⟩ := number_start hc
  rw [htext, List.cons_append]
  unfold readValue
  rw [skipWs_cons _ hws]
  simp only [if_neg hn, if_neg htrue, if_neg hfalse, if_neg hquote, if_neg hsquare, if_neg hcurly]

theorem stops_comma_or_close {close : Char} (hclose : isNumberChar close = false) {c : Char}
    (hc : c = ',' ∨ c = close) (cs : List Char) : Stops (c :: cs) := by
  rintro d hd
  obtain rfl : c = d := Option.some.inj hd
  rcases hc with rfl | rfl
  · decide
  · exact hclose

theorem length_le_intercalate {α : Type} {write : α → List Char} {xs : List α}
    (h : ∀ x ∈ xs, write x ≠ []) : xs.length ≤ ([','].intercalate (xs.map write)).length := by
  cases xs with
  | nil => simp
  | cons x xs =>
    have hx := List.length_pos_iff.mpr (h x List.mem_cons_self)
    have htail : xs.length ≤ (commaTail (xs.map write)).length := by
      clear h hx
      induction xs with
      | nil => simp
      | cons y ys ih =>
        simp only [commaTail, List.map_cons, List.flatMap_cons, List.length_append,
          List.length_cons] at ih ⊢
        omega
    rw [List.map_cons, intercalate_comma, List.length_append, List.length_cons]
    omega

theorem readMember_printMember {value : List Char → Option (Json φ × List Char)}
    {m : String × Json φ} {rest : List Char} {j : Json φ}
    (h : value (print codec m.2 ++ rest) = some (j, rest)) :
    readMember value (printMember codec m ++ rest) = some ((m.1, j), rest) := by
  have hkey := readStr_printStr m.1 (':' :: (print codec m.2 ++ rest))
  have htext : printMember codec m ++ rest =
      '"' :: (m.1.toList.flatMap escape ++ '"' :: ':' :: (print codec m.2 ++ rest)) := by
    simp [printMember, printStr]
  rw [htext, readMember, skipWs_cons _ (by decide)]
  simp only [hkey]
  rw [skipWs_cons _ (by decide)]
  simp only [h, String.ofList_toList]
  rfl

/-- A value is read back whatever follows it, if that does not go on with a number. -/
theorem readValue_print {depth : Nat} {j : Json φ} (h : Carries codec f depth j)
    {rest : List Char} (hrest : Stops rest) :
    readValue codec depth (print codec j ++ rest) = some (mapFloats f j, rest) := by
  induction h generalizing rest with
  | null =>
    unfold readValue
    rfl
  | bool b =>
    unfold readValue
    cases b <;> rfl
  | int h =>
    rw [print, ← text_intText, readValue_number (wellFormed_intText _), text_intText,
      readNumber_printInt h hrest, mapFloats]
  | float h =>
    rw [print, FloatCodec.write, readValue_number (codec.wellFormed _), ← FloatCodec.write,
      readNumber_write h hrest, mapFloats]
  | str s =>
    have htext : print codec (.str s) ++ rest = '"' :: (s.toList.flatMap escape ++ '"' :: rest) := by
      simp [print, printStr]
    have hread := readStr_printStr s rest
    rw [htext]
    unfold readValue
    rw [skipWs_cons _ (by decide)]
    simp only [hread, mapFloats]
    simp [String.ofList_toList]
  | @arr depth elems _ ih =>
    have hlength := @length_le_intercalate _ (print codec) elems fun j _ => by
      obtain ⟨c, cs, heq, -⟩ := @head_print _ codec j
      simp [heq]
    have hread : readList (readValue codec depth) ']'
        (([','].intercalate (elems.map (print codec)) ++ ']' :: rest).length + 1)
        ([','].intercalate (elems.map (print codec)) ++ ']' :: rest) =
          some (elems.map (mapFloats f), rest) :=
      readList_intercalate (by decide) (by decide)
        (fun j _ => by
          obtain ⟨c, cs, heq, hws, hsquare, -⟩ := @head_print _ codec j
          exact ⟨c, cs, heq, hws, hsquare⟩)
        (fun j hj c cs hc => ih j hj (stops_comma_or_close (by decide) hc cs)) rest
        (by
          simp only [List.length_append]
          omega)
    have htext : print codec (.arr elems) ++ rest =
        '[' :: ([','].intercalate (elems.map (print codec)) ++ ']' :: rest) := by
      simp [print, printElems_eq]
    rw [htext]
    unfold readValue
    rw [skipWs_cons _ (by decide)]
    simp only [hread, mapFloats, mapElems_eq]
    simp
  | @obj depth members _ ih =>
    have hstart : ∀ m : String × Json φ, ∃ cs, printMember codec m = '"' :: cs := fun m =>
      ⟨_, rfl⟩
    have hlength := @length_le_intercalate _ (printMember codec) members fun m _ => by
      obtain ⟨cs, heq⟩ := hstart m
      simp [heq]
    have hread : readList (readMember (readValue codec depth)) '\x7d'
        (([','].intercalate (members.map (printMember codec)) ++ '\x7d' :: rest).length + 1)
        ([','].intercalate (members.map (printMember codec)) ++ '\x7d' :: rest) =
          some (members.map fun m => (m.1, mapFloats f m.2), rest) :=
      readList_intercalate (by decide) (by decide)
        (fun m _ => by
          obtain ⟨cs, heq⟩ := hstart m
          exact ⟨'"', cs, heq, by decide, by decide⟩)
        (fun m hm c cs hc =>
          readMember_printMember (ih m hm (stops_comma_or_close (by decide) hc cs))) rest
        (by
          simp only [List.length_append]
          omega)
    have htext : print codec (.obj members) ++ rest =
        '\x7b' :: ([','].intercalate (members.map (printMember codec)) ++ '\x7d' :: rest) := by
      simp [print, printMembers_eq]
    rw [htext]
    unfold readValue
    rw [skipWs_cons _ (by decide)]
    simp only [hread, mapFloats, mapMembers_eq]
    simp

/-- What is written is read back, alone on its line. -/
theorem parse_print {j : Json φ} (h : Carries codec f maxDepth j) :
    parse codec (print codec j) = some (mapFloats f j) := by
  have hread : readValue codec maxDepth (print codec j ++ []) = _ :=
    readValue_print h fun c hc => by cases hc
  rw [List.append_nil] at hread
  rw [parse, hread]
  rfl

/-! ## What a text is made of -/

/-- A character that a line may have in it. -/
def IsClear (c : Char) : Prop := 0x20 ≤ c.toNat

instance (c : Char) : Decidable (IsClear c) := inferInstanceAs (Decidable (_ ≤ _))

theorem isClear_of_isDigit {c : Char} (h : c.isDigit = true) : IsClear c := by
  have hzero := (Char.isDigit_iff_toNat.mp h).1
  exact Nat.le_trans (by decide) hzero

theorem isClear_two {a b : Char} (ha : IsClear a) (hb : IsClear b) : ∀ c ∈ [a, b], IsClear c := by
  simp [ha, hb]

theorem isClear_escape (c : Char) : ∀ d ∈ escape c, IsClear d := by
  have hdigit : ∀ n < 16, IsClear (Nat.digitChar n) := by decide
  unfold escape
  split
  next => exact isClear_two (by decide) (by decide)
  split
  next => exact isClear_two (by decide) (by decide)
  split
  next => exact isClear_two (by decide) (by decide)
  split
  next => exact isClear_two (by decide) (by decide)
  split
  next => exact isClear_two (by decide) (by decide)
  split
  next => exact isClear_two (by decide) (by decide)
  split
  next => exact isClear_two (by decide) (by decide)
  split
  next h =>
    simp only [List.forall_mem_cons, List.not_mem_nil, false_imp_iff, implies_true, and_true]
    exact ⟨by decide, by decide, by decide, by decide, hdigit _ (by omega), hdigit _ (by omega)⟩
  next h =>
    simp only [List.forall_mem_cons, List.not_mem_nil, false_imp_iff, implies_true, and_true]
    exact Nat.le_of_not_lt h

theorem isClear_printStr (s : String) : ∀ c ∈ printStr s, IsClear c := by
  intro c hc
  rw [printStr, List.mem_cons, List.mem_append, List.mem_flatMap, List.mem_singleton] at hc
  rcases hc with rfl | ⟨d, -, hd⟩ | rfl
  · decide
  · exact isClear_escape d c hd
  · decide

theorem isClear_text {t : NumberText} (h : t.WellFormed) : ∀ c ∈ t.text, IsClear c := by
  intro c hc
  rw [NumberText.text, List.mem_append, List.mem_append, List.mem_append] at hc
  rcases hc with hc | hc | hc | hc
  · cases hneg : t.negative <;> simp only [signText, hneg] at hc
    · cases hc
    · obtain rfl := List.mem_singleton.mp hc
      decide
  · exact isClear_of_isDigit (h.whole_digits c hc)
  · cases hfraction : t.fraction with
    | nil => rw [hfraction] at hc; cases hc
    | cons d ds =>
      rw [hfraction] at hc
      obtain rfl | hc := List.mem_cons.mp (show c ∈ '.' :: (d :: ds) from hc)
      · decide
      · exact isClear_of_isDigit (h.fraction_digits c (hfraction ▸ hc))
  · cases hexponent : t.exponent with
    | none => rw [hexponent] at hc; cases hc
    | some parts =>
      obtain ⟨letter, sign, ds⟩ := parts
      obtain ⟨hletter, hsign, -, hds⟩ := h.exponent_shape _ _ _ hexponent
      rw [hexponent, exponentText, List.mem_cons, List.mem_append] at hc
      rcases hc with rfl | hc | hc
      · rcases hletter with rfl | rfl <;> decide
      · rcases hsign with rfl | rfl | rfl
        · cases hc
        · obtain rfl := List.mem_singleton.mp hc
          decide
        · obtain rfl := List.mem_singleton.mp hc
          decide
      · exact isClear_of_isDigit (hds c hc)

theorem isClear_intercalate {texts : List (List Char)} (h : ∀ text ∈ texts, ∀ c ∈ text, IsClear c) :
    ∀ c ∈ [','].intercalate texts, IsClear c := by
  intro c hc
  rcases mem_intercalate hc with hc | ⟨text, htext, hc⟩
  · obtain rfl := List.mem_singleton.mp hc
    decide
  · exact h text htext c hc

mutual

/-- No control character is written, so a value is one line. -/
theorem isClear_print : ∀ j : Json φ, ∀ c ∈ print codec j, IsClear c
  | .null => by simp [print, IsClear]
  | .bool true => by simp [print, IsClear]
  | .bool false => by simp [print, IsClear]
  | .int n => by
    rw [print, ← text_intText]
    exact isClear_text (wellFormed_intText n)
  | .float x => by
    rw [print, FloatCodec.write]
    exact isClear_text (codec.wellFormed x)
  | .str s => by
    rw [print]
    exact isClear_printStr s
  | .arr elems => by
    intro c hc
    rw [print, List.mem_cons, List.mem_append, List.mem_singleton] at hc
    rcases hc with rfl | hc | rfl
    · decide
    · exact isClear_intercalate (isClear_printElems elems) c hc
    · decide
  | .obj members => by
    intro c hc
    rw [print, List.mem_cons, List.mem_append, List.mem_singleton] at hc
    rcases hc with rfl | hc | rfl
    · decide
    · exact isClear_intercalate (isClear_printMembers members) c hc
    · decide

theorem isClear_printElems : ∀ elems : List (Json φ),
    ∀ text ∈ printElems codec elems, ∀ c ∈ text, IsClear c
  | [] => by simp [printElems]
  | elem :: elems => by
    rw [printElems, List.forall_mem_cons]
    exact ⟨isClear_print elem, isClear_printElems elems⟩

theorem isClear_printMembers : ∀ members : List (String × Json φ),
    ∀ text ∈ printMembers codec members, ∀ c ∈ text, IsClear c
  | [] => by simp [printMembers]
  | (key, value) :: members => by
    rw [printMembers, List.forall_mem_cons]
    refine ⟨fun c hc => ?_, isClear_printMembers members⟩
    rw [List.mem_append, List.mem_cons] at hc
    rcases hc with hc | rfl | hc
    · exact isClear_printStr key c hc
    · decide
    · exact isClear_print value c hc

end

end Btwattch2.Lib.Json
