/-
Btwattch2.TextTheorems — what trimming, stripping and splitting leave of a text, and
texts that are put together to be taken apart again.
-/
import Mathlib.Data.List.TakeDrop
import Mathlib.Data.List.TakeWhile
import Btwattch2.Lib.Table
import Btwattch2.Text

namespace Btwattch2.Text

open Lib

/-! ## Trimming and stripping -/

theorem mem_trim {c : Char} {s : String} (h : c ∈ s.toList) (hc : isWhitespace c = false) :
    c ∈ (trim s).toList := by
  have hdrop : ∀ {cs : List Char}, c ∈ cs → c ∈ cs.dropWhile isWhitespace := by
    intro cs hmem
    rw [← List.takeWhile_append_dropWhile (p := isWhitespace) (l := cs)] at hmem
    rcases List.mem_append.mp hmem with hmem | hmem
    · rw [List.mem_takeWhile_imp hmem] at hc
      cases hc
    · exact hmem
  rw [trim, trimEnd, trimStart, String.toList_ofList, String.toList_ofList, List.mem_reverse]
  exact hdrop (List.mem_reverse.mpr (hdrop h))

theorem trim_subset {c : Char} {s : String} (h : c ∈ (trim s).toList) : c ∈ s.toList := by
  have hdrop : ∀ {cs : List Char}, c ∈ cs.dropWhile isWhitespace → c ∈ cs := fun hmem =>
    (List.dropWhile_sublist _).subset hmem
  rw [trim, trimEnd, trimStart, String.toList_ofList, String.toList_ofList, List.mem_reverse] at h
  exact hdrop (List.mem_reverse.mp (hdrop h))

/-- What begins and ends in no white space is not trimmed. -/
theorem trim_eq_self {c d : Char} {s : String} {l : List Char} (hs : s.toList = c :: (l ++ [d]))
    (hc : isWhitespace c = false) (hd : isWhitespace d = false) : trim s = s := by
  have hstart : trimStart s = s := by
    rw [trimStart, hs, List.dropWhile_cons_of_neg (by simp [hc]), ← hs, String.ofList_toList]
  have hreverse : s.toList.reverse = d :: (c :: l).reverse := by simp [hs]
  rw [trim, hstart, trimEnd, hreverse, List.dropWhile_cons_of_neg (by simp [hd]), ← hreverse,
    List.reverse_reverse, String.ofList_toList]

theorem mem_stripSuffix {suffix s number : String} {c : Char}
    (h : stripSuffix suffix s = some number) (hc : c ∈ s.toList) (hsuffix : c ∉ suffix.toList) :
    c ∈ number.toList := by
  obtain ⟨cs, hcs, rfl⟩ := Option.map_eq_some_iff.mp h
  have hsplit : cs ++ suffix.toList = s.toList := List.isSuffixOf?_eq_some_iff_append_eq.mp hcs
  rw [← hsplit] at hc
  rw [String.toList_ofList]
  exact (List.mem_append.mp hc).resolve_right hsuffix

theorem stripPrefix_subset {pre s t : String} (h : stripPrefix pre s = some t) {c : Char}
    (hc : c ∈ t.toList) : c ∈ s.toList := by
  obtain ⟨cs, hcs, rfl⟩ := Option.map_eq_some_iff.mp h
  rw [← List.isPrefixOf?_eq_some_iff_append_eq.mp hcs]
  exact List.mem_append_right _ (by simpa using hc)

theorem stripSuffix_subset {suffix s t : String} (h : stripSuffix suffix s = some t) {c : Char}
    (hc : c ∈ t.toList) : c ∈ s.toList := by
  obtain ⟨cs, hcs, rfl⟩ := Option.map_eq_some_iff.mp h
  rw [← List.isSuffixOf?_eq_some_iff_append_eq.mp hcs]
  exact List.mem_append_left _ (by simpa using hc)

theorem stripPrefix_append (pre s : String) : stripPrefix pre (pre ++ s) = some s := by
  have hsplit : pre.toList.isPrefixOf? (pre ++ s).toList = some s.toList := by
    rw [List.isPrefixOf?_eq_some_iff_append_eq, String.toList_append]
  rw [stripPrefix, hsplit, Option.map_some, String.ofList_toList]

theorem stripSuffix_append (s suffix : String) : stripSuffix suffix (s ++ suffix) = some s := by
  have hsplit : suffix.toList.isSuffixOf? (s ++ suffix).toList = some s.toList := by
    rw [List.isSuffixOf?_eq_some_iff_append_eq, String.toList_append]
  rw [stripSuffix, hsplit, Option.map_some, String.ofList_toList]

/-! ## Lines -/

theorem splitLines_line : ∀ {line : List Char}, '\n' ∉ line → line ≠ [] → splitLines line = [line]
  | [], _, h => absurd rfl h
  | [c], hn, _ => by
    rw [splitLines]
    · rfl
    · rintro rfl
      simp at hn
    · simp
  | c :: d :: line, hn, _ => by
    have ih : splitLines (d :: line) = [d :: line] := splitLines_line (by simp_all) (by simp)
    rw [splitLines, ih]
    · rintro rfl
      simp at hn
    · rintro cs - heq
      rw [heq] at hn
      simp at hn

theorem splitLines_append_crlf : ∀ {line : List Char} (rest : List Char), '\n' ∉ line →
    splitLines (line ++ '\r' :: '\n' :: rest) = line :: splitLines rest
  | [], rest, _ => by simp [splitLines]
  | [c], rest, hn => by
    have ih : splitLines ('\r' :: '\n' :: rest) = [] :: splitLines rest := by simp [splitLines]
    rw [List.cons_append, List.nil_append, splitLines, ih]
    · rintro rfl
      simp at hn
    · rintro cs - heq
      simp at heq
  | c :: d :: line, rest, hn => by
    have ih : splitLines (d :: line ++ '\r' :: '\n' :: rest) = (d :: line) :: splitLines rest :=
      splitLines_append_crlf rest (by simp_all)
    rw [List.cons_append, splitLines, ih]
    · rintro rfl
      simp at hn
    · rintro cs - heq
      rw [List.cons_append] at heq
      rw [(List.cons_eq_cons.mp heq).1] at hn
      simp at hn

theorem not_mem_splitLines : ∀ cs : List Char, ∀ line ∈ splitLines cs, '\n' ∉ line := by
  intro cs
  induction cs using splitLines.induct with
  | case1 => simp [splitLines]
  | case2 cs ih => simpa [splitLines] using ih
  | case3 cs ih => simpa [splitLines] using ih
  | case4 c cs hn hr hnil ih => simp [splitLines, hnil, Ne.symm hn]
  | case5 c cs hn hr line rest hsplit ih =>
    rw [hsplit] at ih
    obtain ⟨hline, hrest⟩ := List.forall_mem_cons.mp ih
    simp only [splitLines, hsplit, List.forall_mem_cons]
    exact ⟨by simp [hline, Ne.symm hn], hrest⟩

/-! ## Splitting -/

theorem splitOnce_subset {c b : Char} {s before after : String}
    (h : splitOnce c s = some (before, after)) (hb : b ∈ after.toList) : b ∈ s.toList := by
  unfold splitOnce at h
  split at h
  · cases h
  · rename_i front x back hspan
    obtain ⟨-, rfl⟩ := Prod.mk.inj (Option.some.inj h)
    rw [List.span_eq_takeWhile_dropWhile] at hspan
    have hdrop := (Prod.mk.inj hspan).2
    rw [String.toList_ofList] at hb
    exact (List.dropWhile_sublist _).subset (by rw [hdrop]; simp [hb])

/-- `str::split`. -/
def split (c : Char) (s : String) : List String := (s.toList.splitOn c).map String.ofList

/-- The lines one after the other, each with its newline. -/
def unlines (ls : List String) : String := String.join (ls.map fun line => line ++ "\n")

theorem toList_unlines (ls : List String) :
    (unlines ls).toList = terminated '\n' (ls.map String.toList) := by
  have hend : "\n".toList = ['\n'] := rfl
  simp [unlines, String.toList_join, terminated, List.flatMap_map, hend]

theorem unlines_append (ls ls' : List String) :
    unlines (ls ++ ls') = unlines ls ++ unlines ls' := by
  rw [← String.toList_inj, String.toList_append, toList_unlines, toList_unlines, toList_unlines]
  simp [terminated]

/-- Lines are read back, and nothing is left behind the last one. -/
theorem split_unlines {ls : List String} (h : ∀ line ∈ ls, '\n' ∉ line.toList) :
    split '\n' (unlines ls) = ls ++ [""] := by
  have hrows : ∀ row ∈ ls.map String.toList, '\n' ∉ row := by
    simpa using h
  rw [split, toList_unlines, splitOn_terminated hrows]
  simp

variable {c d : Char} {sep : String} {cells : List String}

/-- Cells are read back. -/
theorem split_intercalate (hsep : sep.toList = [c]) (hne : cells ≠ [])
    (h : ∀ cell ∈ cells, c ∉ cell.toList) : split c (sep.intercalate cells) = cells := by
  rw [split, String.toList_intercalate, hsep,
    List.splitOn_intercalate c (by simpa using h) (by simpa)]
  simp

theorem not_mem_intercalate (hsep : d ∉ sep.toList) (h : ∀ cell ∈ cells, d ∉ cell.toList) :
    d ∉ (sep.intercalate cells).toList := by
  rw [String.toList_intercalate]
  intro hd
  obtain hd | ⟨cell, hcell, hmem⟩ := mem_intercalate hd
  · exact hsep hd
  · obtain ⟨s, hs, rfl⟩ := List.mem_map.mp hcell
    exact h s hs hmem

end Btwattch2.Text
