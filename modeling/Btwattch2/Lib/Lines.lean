/-
Btwattch2.Lib.Lines — reading up to a delimiter from a source that hands over what it
has in pieces, and lines of UTF-8 text in it.

How the source cuts its contents into pieces does not show: what is read is told by
the contents alone (`readUntil_append`, `readUntil_of_not_mem`). A delimiter below 0x80
stands in the encoding of a text only where it stands in the text.
-/
import Btwattch2.Lib.Table
import Mathlib.Data.List.Flatten

namespace Btwattch2.Lib

/-- A source behind a buffer: what is in the buffer, the pieces that are still to come,
and how reading past the last of them fails, if it does not just end. -/
structure Source (α ε : Type) where
  buffer : List α
  pieces : List (List α)
  failure : Option ε

namespace Source

variable {α ε : Type}

/-- Everything there is left to read. -/
def contents (s : Source α ε) : List α := s.buffer ++ s.pieces.flatten

section Reading

variable [DecidableEq α] (delim : α)

/-- What comes up to the delimiter, and what behind it. -/
def cut (cs : List α) : Option (List α × List α) :=
  match cs.span (· != delim) with
  | (line, d :: rest) => some (line ++ [d], rest)
  | (_, []) => none

/-- Read up to the delimiter, or up to the end. -/
def readPieces (failure : Option ε) : List (List α) → List α → Except ε (List α × Source α ε)
  | [], buffer =>
    match cut delim buffer with
    | some (line, rest) => .ok (line, ⟨rest, [], failure⟩)
    | none =>
      match failure with
      | some e => .error e
      | none => .ok (buffer, ⟨[], [], none⟩)
  | piece :: pieces, buffer =>
    match cut delim buffer with
    | some (line, rest) => .ok (line, ⟨rest, piece :: pieces, failure⟩)
    | none => (readPieces failure pieces piece).map fun (more, s) => (buffer ++ more, s)

def readUntil (s : Source α ε) : Except ε (List α × Source α ε) :=
  readPieces delim s.failure s.pieces s.buffer

variable {delim}

theorem cut_append {line : List α} (h : delim ∉ line) (rest : List α) :
    cut delim (line ++ delim :: rest) = some (line ++ [delim], rest) := by
  have hspan := @span_append _ (· != delim) line (delim :: rest)
    (fun a ha => by simpa using fun heq : a = delim => h (heq ▸ ha)) (by simp)
  rw [cut, hspan]

theorem cut_of_not_mem {cs : List α} (h : delim ∉ cs) : cut delim cs = none := by
  have hspan := @span_append _ (· != delim) cs []
    (fun a ha => by simpa using fun heq : a = delim => h (heq ▸ ha)) (by simp)
  rw [List.append_nil] at hspan
  rw [cut, hspan]

omit [DecidableEq α] in
/-- The first delimiter of a concatenation is in its first part or else in the second. -/
theorem append_eq_line {front back line rest : List α} (hline : delim ∉ line)
    (h : front ++ back = line ++ delim :: rest) :
    (∃ more, front = line ++ delim :: more ∧ rest = more ++ back) ∨
      (∃ more, delim ∉ front ∧ line = front ++ more ∧ back = more ++ delim :: rest) := by
  rcases List.append_eq_append_iff.mp h with ⟨more, rfl, rfl⟩ | ⟨more, rfl, hback⟩
  · exact .inr ⟨more, fun hmem => hline (List.mem_append_left _ hmem), rfl, rfl⟩
  · cases more with
    | nil =>
      rw [List.nil_append] at hback
      exact .inr ⟨[], by simpa using hline, by simp, by simp [hback]⟩
    | cons a more =>
      rw [List.cons_append] at hback
      obtain ⟨rfl, rfl⟩ := List.cons.inj hback
      exact .inl ⟨more, rfl, rfl⟩

/-- A line that is there is read, and what is behind it stays. -/
theorem readUntil_append {s : Source α ε} {line rest : List α} (hline : delim ∉ line)
    (h : s.contents = line ++ delim :: rest) :
    ∃ t, s.readUntil delim = .ok (line ++ [delim], t) ∧ t.contents = rest ∧
      t.failure = s.failure := by
  obtain ⟨buffer, pieces, failure⟩ := s
  unfold readUntil contents at *
  simp only at h ⊢
  induction pieces generalizing buffer line with
  | nil =>
    rw [List.flatten_nil, List.append_nil] at h
    subst h
    exact ⟨⟨rest, [], failure⟩, by simp only [readPieces, cut_append hline], by simp, rfl⟩
  | cons piece pieces ih =>
    rw [List.flatten_cons] at h
    obtain ⟨more, rfl, rfl⟩ | ⟨more, hbuffer, rfl, hback⟩ := append_eq_line hline h
    · refine ⟨⟨more, piece :: pieces, failure⟩, ?_, by simp, rfl⟩
      rw [readPieces, cut_append hline]
    · have hmore : delim ∉ more := fun hmem => hline (List.mem_append_right _ hmem)
      obtain ⟨t, hread, hcontents, hfailure⟩ := ih hmore piece hback
      refine ⟨t, ?_, hcontents, hfailure⟩
      rw [readPieces, cut_of_not_mem hbuffer, hread]
      simp [Except.map]

/-- What is left without a delimiter is read up to the end. -/
theorem readUntil_of_not_mem {s : Source α ε} (h : delim ∉ s.contents) :
    s.readUntil delim = match s.failure with
      | some e => .error e
      | none => .ok (s.contents, ⟨[], [], none⟩) := by
  obtain ⟨buffer, pieces, failure⟩ := s
  unfold readUntil contents at *
  simp only at h ⊢
  induction pieces generalizing buffer with
  | nil =>
    rw [List.flatten_nil, List.append_nil] at h ⊢
    simp only [readPieces, cut_of_not_mem h]
  | cons piece pieces ih =>
    rw [List.mem_append, List.flatten_cons, not_or] at h
    rw [readPieces, cut_of_not_mem h.1, ih piece h.2]
    cases failure with
    | some e => rfl
    | none => simp [Except.map]

/-! ## All the lines -/

variable (delim)

/-- The lines of a source up to its end, and how it failed, if it did. -/
def readLines : Nat → Source α ε → List (List α) × Option ε
  | 0, _ => ([], none)
  | n + 1, s =>
    match s.readUntil delim with
    | .error e => ([], some e)
    | .ok ([], _) => ([], none)
    | .ok (line, s) =>
      let (lines, failure) := readLines n s
      (line :: lines, failure)

variable {delim}

/-- Lines that were written are read, however they arrive. -/
theorem readLines_terminated {rows : List (List α)} (h : ∀ row ∈ rows, delim ∉ row)
    {s : Source α ε} (hs : s.contents = terminated delim rows) {n : Nat} (hn : rows.length < n) :
    readLines delim n s = (rows.map fun row => row ++ [delim], s.failure) := by
  induction rows generalizing s n with
  | nil =>
    obtain ⟨n, rfl⟩ : ∃ m, n = m + 1 := ⟨n - 1, by simp at hn; omega⟩
    have hempty : s.contents = [] := hs
    have hread : s.readUntil delim = _ := readUntil_of_not_mem (by simp [hempty])
    rw [readLines, hread, hempty]
    cases hfailure : s.failure <;> rfl
  | cons row rows ih =>
    obtain ⟨n, rfl⟩ : ∃ m, n = m + 1 := ⟨n - 1, by simp at hn; omega⟩
    rw [terminated_cons] at hs
    obtain ⟨t, hread, hcontents, hfailure⟩ := readUntil_append (h row List.mem_cons_self) hs
    have hrest := ih (fun other hother => h other (List.mem_cons_of_mem _ hother)) hcontents
      (n := n) (by simpa using hn)
    rw [readLines, hread]
    cases row with
    | nil => simp only [List.nil_append, hrest, hfailure]; rfl
    | cons a row => simp only [List.cons_append, hrest, hfailure]; rfl

end Reading

/-! ## A bound -/

/-- The first of the pieces, `n` in all. -/
def takePieces : Nat → List (List α) → List (List α)
  | _, [] => []
  | n, piece :: pieces => piece.take n :: takePieces (n - piece.length) pieces

theorem flatten_takePieces (n : Nat) (pieces : List (List α)) :
    (takePieces n pieces).flatten = pieces.flatten.take n := by
  induction pieces generalizing n with
  | nil => simp [takePieces]
  | cons piece pieces ih => simp [takePieces, ih, List.take_append]

/-- A reader of no more than `n`, after which it ends. -/
def take (n : Nat) (s : Source α ε) : Source α ε where
  buffer := s.buffer.take n
  pieces := takePieces (n - s.buffer.length) s.pieces
  failure := if n ≤ s.contents.length then none else s.failure

theorem contents_take (n : Nat) (s : Source α ε) : (s.take n).contents = s.contents.take n := by
  rw [contents, contents, take, flatten_takePieces, List.take_append]

/-! ## What counts of a source -/

/-- The same contents, in whatever pieces, and the same end. -/
structure Same (s t : Source α ε) : Prop where
  contents : s.contents = t.contents
  failure : s.failure = t.failure

theorem Same.refl (s : Source α ε) : Same s s := ⟨rfl, rfl⟩

theorem Same.take {s t : Source α ε} (h : Same s t) (n : Nat) : Same (s.take n) (t.take n) where
  contents := by rw [contents_take, contents_take, h.contents]
  failure := by simp only [Source.take, h.contents, h.failure]

/-- Reading up to a delimiter takes a first part of the contents, and which one does not
depend on the pieces. -/
theorem Same.readUntil [DecidableEq α] {s t : Source α ε} (h : Same s t) (delim : α) :
    (∃ e, s.readUntil delim = .error e ∧ t.readUntil delim = .error e) ∨
      ∃ line s' t', s.readUntil delim = .ok (line, s') ∧ t.readUntil delim = .ok (line, t') ∧
        Same s' t' ∧ s.contents = line ++ s'.contents := by
  by_cases hmem : delim ∈ s.contents
  · obtain ⟨line, rest, hcontents, hline⟩ := List.eq_append_cons_of_mem hmem
    obtain ⟨s', hs, hs', hsf⟩ := readUntil_append hline hcontents
    obtain ⟨t', ht, ht', htf⟩ := readUntil_append hline (h.contents ▸ hcontents)
    refine .inr ⟨_, s', t', hs, ht, ⟨hs'.trans ht'.symm, ?_⟩, ?_⟩
    · rw [hsf, htf, h.failure]
    · rw [hcontents, hs', List.append_assoc]
      rfl
  · have hs := readUntil_of_not_mem hmem
    have ht := readUntil_of_not_mem (h.contents ▸ hmem)
    rw [h.failure] at hs
    cases hfailure : t.failure with
    | some e =>
      rw [hfailure] at hs ht
      exact .inl ⟨e, hs, ht⟩
    | none =>
      rw [hfailure] at hs ht
      rw [← h.contents] at ht
      exact .inr ⟨_, _, _, hs, ht, ⟨rfl, rfl⟩, by simp [Source.contents]⟩

end Source

/-! ## Bytes of a text -/

/-- A byte below 0x80 stands for a character of its own. -/
theorem toNat_of_mem_utf8EncodeChar {c : Char} {b : UInt8} (hb : b.toNat < 0x80)
    (h : b ∈ String.utf8EncodeChar c) : b.toNat = c.toNat := by
  have hlead : ∀ n, 0x80 ≤ n → n < 0x100 → b ≠ UInt8.ofNat n := by
    rintro n hlow hhigh rfl
    rw [UInt8.toNat_ofNat'] at hb
    omega
  have hc : c.val.toNat = c.toNat := rfl
  have hmax : c.toNat < 0x110000 := by
    rcases c.valid with h | h
    · exact Nat.lt_trans h (by decide)
    · exact h.2
  unfold String.utf8EncodeChar at h
  simp only [hc] at h
  split at h
  case isTrue hsmall =>
    rw [List.mem_singleton] at h
    rw [h, UInt8.toNat_ofNat']
    omega
  split at h
  case isTrue hsmall =>
    simp only [List.mem_cons, List.not_mem_nil, or_false] at h
    rcases h with h | h <;> exact absurd h (hlead _ (by omega) (by omega))
  split at h
  case isTrue hsmall =>
    simp only [List.mem_cons, List.not_mem_nil, or_false] at h
    rcases h with h | h | h <;> exact absurd h (hlead _ (by omega) (by omega))
  case isFalse hlarge =>
    simp only [List.mem_cons, List.not_mem_nil, or_false] at h
    rcases h with h | h | h | h <;> exact absurd h (hlead _ (by omega) (by omega))

/-- The bytes of a text. -/
def utf8 (cs : List Char) : List UInt8 := cs.flatMap String.utf8EncodeChar

theorem utf8_append (front back : List Char) : utf8 (front ++ back) = utf8 front ++ utf8 back :=
  List.flatMap_append

/-- A newline in the encoding of a text is one in the text. -/
theorem newline_not_mem_utf8 {cs : List Char} (h : '\n' ∉ cs) : (0x0A : UInt8) ∉ utf8 cs := by
  intro hmem
  obtain ⟨c, hc, hb⟩ := List.mem_flatMap.mp hmem
  have hnat := toNat_of_mem_utf8EncodeChar (by decide) hb
  have hnewline : c = '\n' := Char.toNat_inj.mp hnat.symm
  exact h (hnewline ▸ hc)

theorem toByteArray_utf8 (cs : List Char) : (⟨(utf8 cs).toArray⟩ : ByteArray) = cs.utf8Encode := by
  ext1
  simp [utf8, List.utf8Encode]

theorem length_utf8 (s : String) : (utf8 s.toList).length = s.utf8ByteSize := by
  have hbytes := congrArg ByteArray.size (toByteArray_utf8 s.toList)
  rwa [String.utf8Encode_toList, String.size_toByteArray] at hbytes

/-- The text of the bytes of a text is that text. -/
theorem fromUTF8_utf8 (cs : List Char) :
    String.fromUTF8? ⟨(utf8 cs).toArray⟩ = some (String.ofList cs) := by
  rw [toByteArray_utf8, String.fromUTF8?, dif_pos ByteArray.isValidUTF8_utf8Encode]
  rfl

/-- A text without control characters has no control bytes. -/
theorem clear_utf8 {cs : List Char} (h : ∀ c ∈ cs, 0x20 ≤ c.toNat) {b : UInt8}
    (hb : b ∈ utf8 cs) : 0x20 ≤ b.toNat := by
  obtain ⟨c, hc, hmem⟩ := List.mem_flatMap.mp hb
  by_cases hlow : b.toNat < 0x80
  · rw [toNat_of_mem_utf8EncodeChar hlow hmem]
    exact h c hc
  · omega

end Btwattch2.Lib
