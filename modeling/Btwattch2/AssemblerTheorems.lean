/-
Btwattch2.AssemblerTheorems — the frame assembler is a resynchronising scanner.

`frames` is the grammar as a `Lib.Scanner`: what a header, a size field and a
checksum at the front of the buffer amount to. `drain_eq_scan` ties the loop of
`FrameAssembler` to it, and what the scanner's laws give is read back in the
program's own terms:

* `feedAll_chunking` — the frames and the residual buffer depend on the bytes,
  not on how they were cut up;
* `feedAll_grammar` — the frames are the leftmost-greedy parse of the bytes:
  every one stands where a valid frame starts, none is missed, and the residual
  buffer is a bounded suffix;
* `feedAll_generate` — encoded payloads come back through line noise.
-/
import Btwattch2.Assembler
import Btwattch2.Lib.Scanner

namespace Btwattch2

open Lib (Verdict Scanner)

namespace FrameAssembler

/-! ## The grammar -/

/-- What the bytes at the front of the buffer amount to. -/
def verdict : List UInt8 → Verdict
  | [] => .wait
  | b :: rest =>
    if b ≠ header then .skip
    else
      match rest with
      | hi :: lo :: body =>
        let payloadLen := u16FromBeBytes hi lo
        if maxFrameLen < payloadLen + frameOverhead then .skip
        else if body.length < payloadLen + 1 then .wait
        else if body[payloadLen]? ≠ some (crc8 (body.take payloadLen)) then .skip
        else .emit (payloadLen + frameOverhead)
      | _ => .wait

theorem verdict_cons_ne {b : UInt8} (hb : b ≠ header) (rest : List UInt8) :
    verdict (b :: rest) = .skip := by
  simp [verdict, hb]

/-- The verdict once the size field is in place. -/
theorem verdict_sized (hi lo : UInt8) (body : List UInt8) :
    verdict (header :: hi :: lo :: body) =
      if maxFrameLen < u16FromBeBytes hi lo + frameOverhead then .skip
      else if body.length < u16FromBeBytes hi lo + 1 then .wait
      else if body[u16FromBeBytes hi lo]? ≠ some (crc8 (body.take (u16FromBeBytes hi lo))) then
        .skip
      else .emit (u16FromBeBytes hi lo + frameOverhead) := by
  simp [verdict]

/-- A verdict of `emit`, spelled out. -/
theorem verdict_emit_iff {buf : List UInt8} {n : Nat} :
    verdict buf = .emit n ↔ ∃ hi lo body, buf = header :: hi :: lo :: body ∧
      n = u16FromBeBytes hi lo + frameOverhead ∧ n ≤ maxFrameLen ∧
      u16FromBeBytes hi lo + 1 ≤ body.length ∧
      body[u16FromBeBytes hi lo]? = some (crc8 (body.take (u16FromBeBytes hi lo))) := by
  constructor
  · intro h
    match buf, h with
    | b :: rest, h =>
      by_cases hb : b = header
      · subst hb
        match rest, h with
        | hi :: lo :: body, h =>
          rw [verdict_sized] at h
          split at h
          · cases h
          · split at h
            · cases h
            · split at h
              · cases h
              · rename_i h1 h2 h3
                cases h
                exact ⟨hi, lo, body, rfl, rfl, by omega, by omega, by simpa using h3⟩
        | [], h => simp [verdict] at h
        | [_], h => simp [verdict] at h
      · rw [verdict_cons_ne hb] at h
        cases h
  · rintro ⟨hi, lo, body, rfl, rfl, hmax, hlen, hcrc⟩
    rw [verdict_sized, if_neg (by omega), if_neg (by omega), if_neg (by simpa using hcrc)]

theorem verdict_stable {buf : List UInt8} (h : verdict buf ≠ .wait) (more : List UInt8) :
    verdict (buf ++ more) = verdict buf := by
  match buf, h with
  | [], h => exact absurd rfl h
  | b :: rest, h =>
    by_cases hb : b = header
    · subst hb
      match rest, h with
      | [], h => simp [verdict] at h
      | [_], h => simp [verdict] at h
      | hi :: lo :: body, h =>
        simp only [List.cons_append, verdict_sized] at h ⊢
        split
        · rfl
        · rename_i hmax
          simp only [hmax, if_false] at h
          have hlen : ¬ body.length < u16FromBeBytes hi lo + 1 := by
            intro hlt
            simp [hlt] at h
          have hlen' : ¬ (body ++ more).length < u16FromBeBytes hi lo + 1 := by
            simp only [List.length_append]
            omega
          rw [if_neg hlen, if_neg hlen', List.getElem?_append_left (by omega),
            List.take_append_of_le_length (by omega)]
    · rw [verdict_cons_ne hb, List.cons_append, verdict_cons_ne hb]

/-- A frame is not empty. -/
theorem verdict_emit_pos {buf : List UInt8} {n : Nat} (h : verdict buf = .emit n) : 0 < n := by
  obtain ⟨hi, lo, body, -, rfl, -⟩ := verdict_emit_iff.mp h
  simp [frameOverhead]

/-- A frame lies inside the buffer. -/
theorem verdict_emit_le {buf : List UInt8} {n : Nat} (h : verdict buf = .emit n) :
    n ≤ buf.length := by
  obtain ⟨hi, lo, body, rfl, rfl, -, hlen, -⟩ := verdict_emit_iff.mp h
  simp only [List.length_cons, frameOverhead]
  omega

/-- The frame grammar as a resynchronising scanner. -/
def frames : Scanner UInt8 where
  look := verdict
  look_nil := rfl
  emit_pos := verdict_emit_pos
  emit_le := verdict_emit_le
  stable := verdict_stable

@[simp] theorem frames_look (buf : List UInt8) : frames.look buf = verdict buf := rfl

/-! ## The loop runs the grammar -/

/-- What one call of `next_frame` amounts to: nothing to emit, or the first
frame of the scan, with at least the overhead taken off the buffer. -/
def NextFrameSpec (buf : List UInt8) : Option (List UInt8) × List UInt8 → Prop
  | (none, rest) => frames.scan buf = ([], rest)
  | (some frame, rest) =>
    frames.scan buf = (frame :: (frames.scan rest).1, (frames.scan rest).2) ∧
      rest.length < buf.length

/-- A header that starts no frame is dropped, and the loop goes round. -/
theorem nextFrameLoop_skip {rest : List UInt8} (h : verdict (header :: rest) = .skip) (fuel : Nat) :
    nextFrameLoop (fuel + 1) (header :: rest) = nextFrameLoop fuel rest := by
  have hdrop : (header :: rest).dropWhile (· != header) = header :: rest := by simp
  match rest, h with
  | [], h => simp [verdict] at h
  | [_], h => simp [verdict] at h
  | hi :: lo :: body, h =>
    rw [verdict_sized] at h
    rw [nextFrameLoop, hdrop]
    dsimp only
    by_cases hbig : maxFrameLen < u16FromBeBytes hi lo + frameOverhead
    · rw [if_pos hbig]
    · rw [if_neg hbig] at h ⊢
      by_cases hshort : body.length < u16FromBeBytes hi lo + 1
      · rw [if_pos hshort] at h
        cases h
      · have hlong : ¬ (header :: hi :: lo :: body).length <
            u16FromBeBytes hi lo + frameOverhead := by
          simp only [List.length_cons, frameOverhead]
          omega
        rw [if_neg hshort] at h
        rw [if_neg hlong]
        by_cases hcrc : body[u16FromBeBytes hi lo]? ≠ some (crc8 (body.take (u16FromBeBytes hi lo)))
        · simp [frameOverhead, hcrc]
        · rw [if_neg hcrc] at h
          cases h

/-- What may yet become a frame is kept. -/
theorem nextFrameLoop_wait {buf : List UInt8} (h : verdict buf = .wait) (fuel : Nat) :
    nextFrameLoop (fuel + 1) buf = (none, buf) := by
  match buf, h with
  | [], _ => rfl
  | b :: rest, h =>
    by_cases hb : b = header
    · subst hb
      have hdrop : (header :: rest).dropWhile (· != header) = header :: rest := by simp
      rw [nextFrameLoop, hdrop]
      match rest, h with
      | [], _ => rfl
      | [_], _ => rfl
      | hi :: lo :: body, h =>
        rw [verdict_sized] at h
        split at h
        · cases h
        · rename_i hbig
          split at h
          · rename_i hshort
            have hshort' : (header :: hi :: lo :: body).length <
                u16FromBeBytes hi lo + frameOverhead := by
              simp only [List.length_cons, frameOverhead]
              omega
            dsimp only
            rw [if_neg hbig, if_pos hshort']
          · split at h <;> cases h
    · rw [verdict_cons_ne hb] at h
      cases h

/-- A frame at the front is taken off. -/
theorem nextFrameLoop_emit {buf : List UInt8} {n : Nat} (h : verdict buf = .emit n) (fuel : Nat) :
    nextFrameLoop (fuel + 1) buf = (some (buf.take n), buf.drop n) := by
  obtain ⟨hi, lo, body, rfl, rfl, hmax, hlen, hcrc⟩ := verdict_emit_iff.mp h
  have hdrop : (header :: hi :: lo :: body).dropWhile (· != header) =
    header :: hi :: lo :: body := by
    simp
  have hlong : ¬ (header :: hi :: lo :: body).length < u16FromBeBytes hi lo + frameOverhead := by
    simp only [List.length_cons, frameOverhead]
    omega
  rw [nextFrameLoop, hdrop]
  dsimp only
  rw [if_neg (by omega), if_neg hlong, if_neg (by simpa [frameOverhead] using hcrc)]

/-- The loop takes the next frame of the grammar. -/
theorem nextFrameLoop_eq (buf : List UInt8) : ∀ fuel, buf.length < fuel →
    nextFrameLoop fuel buf = frames.next buf := by
  induction buf using frames.scan_induction with
  | wait buf h =>
    intro fuel hfuel
    obtain ⟨fuel, rfl⟩ : ∃ m, fuel = m + 1 := ⟨fuel - 1, by omega⟩
    rw [nextFrameLoop_wait h, frames.next_wait h]
  | skip buf h ih =>
    intro fuel hfuel
    obtain ⟨fuel, rfl⟩ : ∃ m, fuel = m + 1 := ⟨fuel - 1, by omega⟩
    rw [frames.next_skip h]
    match buf, h with
    | b :: rest, h =>
      simp only [List.length_cons] at hfuel
      by_cases hb : b = header
      · subst hb
        rw [nextFrameLoop_skip h]
        exact ih fuel (by simp only [List.drop_succ_cons, List.drop_zero]; omega)
      · -- bytes in front of a header are dropped in the same turn
        have hround : nextFrameLoop (fuel + 1) (b :: rest) = nextFrameLoop (fuel + 1) rest := by
          simp [nextFrameLoop, hb]
        rw [hround]
        exact ih (fuel + 1) (by simp only [List.drop_succ_cons, List.drop_zero]; omega)
  | emit buf n h ih =>
    intro fuel hfuel
    obtain ⟨fuel, rfl⟩ : ∃ m, fuel = m + 1 := ⟨fuel - 1, by omega⟩
    rw [nextFrameLoop_emit h, frames.next_emit h]

theorem nextFrame_eq (a : FrameAssembler) :
    (a.nextFrame.1, a.nextFrame.2.buf) = frames.next a.buf :=
  nextFrameLoop_eq _ _ (Nat.lt_succ_self _)

theorem nextFrameLoop_spec (fuel : Nat) (buf : List UInt8) (h : buf.length < fuel) :
    NextFrameSpec buf (nextFrameLoop fuel buf) := by
  have hscan := frames.scan_next buf
  have hlength := frames.length_next_lt (b := buf)
  have hdry := frames.scan_of_next_none (b := buf)
  rw [nextFrameLoop_eq buf fuel h]
  cases hnext : frames.next buf with
  | mk found rest =>
    rw [hnext] at hscan hlength hdry
    cases found with
    | none => exact hdry rfl
    | some frame => exact ⟨hscan, hlength rfl⟩

theorem nextFrame_spec (a : FrameAssembler) :
    NextFrameSpec a.buf (a.nextFrame.1, a.nextFrame.2.buf) :=
  nextFrameLoop_spec _ _ (Nat.lt_succ_self _)

/-- What pulling the iterator amounts to: the frames before the one that stopped
it, and the scan of what is left is the rest of the scan. -/
structure PullSpec (stop : List UInt8 → Bool) (buf : List UInt8)
    (r : List (List UInt8) × Option (List UInt8) × FrameAssembler) : Prop where
  passed : ∀ frame ∈ r.1, stop frame = false
  hit : ∀ frame ∈ r.2.1, stop frame = true
  scan : frames.scan buf =
    (r.1 ++ r.2.1.toList ++ (frames.scan r.2.2.buf).1, (frames.scan r.2.2.buf).2)
  dry : r.2.1 = none → frames.scan r.2.2.buf = ([], r.2.2.buf)

theorem pullLoop_spec (stop : List UInt8 → Bool) : ∀ (fuel : Nat) (a : FrameAssembler),
    a.buf.length < fuel → PullSpec stop a.buf (a.pullLoop stop fuel) := by
  intro fuel
  induction fuel with
  | zero => intro a h; omega
  | succ fuel ih =>
    intro a hfuel
    have hspec := nextFrame_spec a
    rw [pullLoop]
    revert hspec
    cases a.nextFrame with
    | mk found a' =>
      cases found with
      | none =>
        intro hspec
        have hscan : frames.scan a.buf = ([], a'.buf) := hspec
        have hdry : frames.scan a'.buf = ([], a'.buf) := by
          have := frames.scan_scan a.buf
          rwa [hscan] at this
        exact ⟨by simp, by simp, by simpa [hdry] using hscan, fun _ => hdry⟩
      | some frame =>
        rintro ⟨hscan, hlt⟩
        simp only
        split
        · rename_i hstop
          exact ⟨by simp, by simpa using hstop, by simpa using hscan, by simp⟩
        · rename_i hstop
          have hrec := ih a' (by simp only at hlt; omega)
          refine ⟨?_, hrec.hit, ?_, hrec.dry⟩
          · intro f hf
            rcases List.mem_cons.mp hf with rfl | hf
            · simpa using hstop
            · exact hrec.passed f hf
          · rw [hscan, hrec.scan]
            simp

theorem pull_spec (stop : List UInt8 → Bool) (a : FrameAssembler) :
    PullSpec stop a.buf (a.pull stop) :=
  pullLoop_spec stop _ a (Nat.lt_succ_self _)

/-- Where pulling the iterator leaves the buffer: right behind the frame that
stopped it, or where nothing more comes. -/
structure PullsTo (buf : List UInt8)
    (r : List (List UInt8) × Option (List UInt8) × FrameAssembler) : Prop where
  hit : r.2.1.isSome → r.2.2.buf = frames.after (r.1.length + 1) buf
  dry : r.2.1 = none → frames.next (frames.after r.1.length buf) = (none, r.2.2.buf)

theorem pullLoop_after (stop : List UInt8 → Bool) : ∀ (fuel : Nat) (a : FrameAssembler),
    a.buf.length < fuel → PullsTo a.buf (a.pullLoop stop fuel) := by
  intro fuel
  induction fuel with
  | zero => intro a h; omega
  | succ fuel ih =>
    intro a hfuel
    have hnext := nextFrame_eq a
    have hspec := nextFrame_spec a
    rw [pullLoop]
    revert hnext hspec
    cases a.nextFrame with
    | mk found a' =>
      cases found with
      | none => exact fun hnext _ => ⟨by simp, fun _ => hnext.symm⟩
      | some frame =>
        rintro hnext ⟨-, hlt⟩
        have hbuf : (frames.next a.buf).2 = a'.buf := by rw [← hnext]
        dsimp only
        split
        · exact ⟨fun _ => hbuf.symm, by simp⟩
        · have hrec := ih a' (by simp only at hlt; omega)
          refine ⟨fun hhit => ?_, fun hdry => ?_⟩
          · rw [List.length_cons, frames.after_succ, hbuf]
            exact hrec.hit hhit
          · rw [List.length_cons, frames.after_succ, hbuf]
            exact hrec.dry hdry

theorem pull_after (stop : List UInt8 → Bool) (a : FrameAssembler) : PullsTo a.buf (a.pull stop) :=
  pullLoop_after stop _ a (Nat.lt_succ_self _)

/-- Draining the iterator is scanning the buffer. -/
theorem drain_eq_scan (a : FrameAssembler) :
    a.drain = ((frames.scan a.buf).1, ⟨(frames.scan a.buf).2⟩) := by
  have hspec := pull_spec (fun _ => false) a
  have hnone : (a.pull fun _ => false).2.1 = none := by
    cases h : (a.pull fun _ => false).2.1 with
    | none => rfl
    | some frame => exact absurd (hspec.hit frame h) (by simp)
  have hscan := hspec.scan
  simp only [hnone, hspec.dry hnone, Option.toList_none, List.append_nil] at hscan
  rw [hscan]
  rfl

/-! ## Chunking -/

/-- Feeding chunk by chunk from an assembler with nothing left to emit is
scanning the bytes at once. -/
theorem feedAll_eq_scan : ∀ (chunks : List (List UInt8)) (a : FrameAssembler),
    frames.scan a.buf = ([], a.buf) →
    a.feedAll chunks = ((frames.scan (a.buf ++ chunks.flatten)).1,
      ⟨(frames.scan (a.buf ++ chunks.flatten)).2⟩) := by
  intro chunks
  induction chunks with
  | nil =>
    intro a hdry
    simp [feedAll, hdry]
  | cons chunk chunks ih =>
    intro a hdry
    have hrest : frames.scan (frames.scan (a.buf ++ chunk)).2 =
        ([], (frames.scan (a.buf ++ chunk)).2) := frames.scan_scan _
    rw [feedAll, feed, drain_eq_scan]
    simp only
    rw [ih _ hrest, List.flatten_cons, ← List.append_assoc, frames.scan_append (a.buf ++ chunk)]

theorem feedAll_new (chunks : List (List UInt8)) :
    new.feedAll chunks = ((frames.scan chunks.flatten).1, ⟨(frames.scan chunks.flatten).2⟩) :=
  feedAll_eq_scan chunks new frames.scan_nil

/-- **Chunking invariance**: two ways of cutting the same bytes into chunks give
the same frames and leave the same residual buffer. -/
theorem feedAll_chunking {s : List UInt8} {chunks₁ chunks₂ : List (List UInt8)}
    (h₁ : chunks₁.flatten = s) (h₂ : chunks₂.flatten = s) :
    new.feedAll chunks₁ = new.feedAll chunks₂ := by
  rw [feedAll_new, feedAll_new, h₁, h₂]

/-- A monitoring frame behind a stray header, cut in its size field and not cut. -/
theorem feedAll_chunking_split :
    new.feedAll [[0xAA, 0xFF, 0xFF, 0xAA, 0x00], [0x01, 0x08, 0xB3]] =
      new.feedAll [[0xAA, 0xFF, 0xFF, 0xAA, 0x00, 0x01, 0x08, 0xB3]] :=
  feedAll_chunking (s := [0xAA, 0xFF, 0xFF, 0xAA, 0x00, 0x01, 0x08, 0xB3]) rfl rfl

/-! ## Positions of valid frames -/

/-- The payload length declared by the size field at `p + 1`. -/
def declaredLen (s : List UInt8) (p : Nat) : Nat :=
  u16FromBeBytes (s.getD (p + 1) 0) (s.getD (p + 2) 0)

/-- The length of the frame a header at `p` declares. -/
def frameLenAt (s : List UInt8) (p : Nat) : Nat := declaredLen s p + frameOverhead

/-- A valid frame starts at `p`: a header, a declared length within bounds, the
whole frame inside `s`, and its last byte the checksum of its payload. -/
structure ValidFrameStart (s : List UInt8) (p : Nat) : Prop where
  header : s[p]? = some header
  bounded : declaredLen s p ≤ maxFrameLen - frameOverhead
  inside : p + frameLenAt s p ≤ s.length
  crc : s[p + 3 + declaredLen s p]? =
    some (crc8 ((s.drop (p + 3)).take (declaredLen s p)))

/-- The bytes from a header whose size field is in place. -/
theorem drop_header {s : List UInt8} {p : Nat} (hp : s[p]? = some header)
    (hlen : p + 2 < s.length) :
    s.drop p = header :: s.getD (p + 1) 0 :: s.getD (p + 2) 0 :: s.drop (p + 3) := by
  have hhead : s[p] = header := by
    rw [List.getElem?_eq_getElem (by omega)] at hp
    exact Option.some.inj hp
  rw [List.drop_eq_getElem_cons (by omega), List.drop_eq_getElem_cons (by omega),
    List.drop_eq_getElem_cons (by omega), hhead]
  simp [List.getD_eq_getElem?_getD, show p + 1 < s.length by omega, hlen]

/-- A valid frame starts exactly where the scanner emits, with the declared
length. -/
theorem verdict_drop_iff (s : List UInt8) (p n : Nat) :
    verdict (s.drop p) = .emit n ↔ ValidFrameStart s p ∧ n = frameLenAt s p := by
  rw [verdict_emit_iff]
  constructor
  · rintro ⟨hi, lo, body, hdrop, rfl, hmax, hlen, hcrc⟩
    have hget : ∀ k, s[p + k]? = (header :: hi :: lo :: body)[k]? := by
      intro k
      rw [← hdrop, List.getElem?_drop]
    have hdecl : declaredLen s p = u16FromBeBytes hi lo := by
      simp [declaredLen, List.getD_eq_getElem?_getD, hget]
    have hsize : s.length - p = body.length + 3 := by
      rw [← List.length_drop, hdrop]
      rfl
    have hbody : s.drop (p + 3) = body := by
      rw [← List.drop_drop, hdrop]
      rfl
    refine ⟨⟨by simpa using hget 0, ?_, ?_, ?_⟩, by rw [frameLenAt, hdecl]⟩
    · rw [hdecl]
      simp only [maxFrameLen, frameOverhead] at hmax ⊢
      omega
    · rw [frameLenAt, hdecl]
      simp only [frameOverhead]
      omega
    · rw [hdecl, hbody, Nat.add_assoc, hget, ← hcrc, Nat.add_comm 3]
      rfl
  · rintro ⟨⟨hhead, hbound, hin, hcrc⟩, rfl⟩
    simp only [frameLenAt, frameOverhead, maxFrameLen] at hbound hin
    refine ⟨_, _, _, drop_header hhead (by omega), rfl, ?_, ?_, ?_⟩
    · simp only [frameLenAt, frameOverhead, maxFrameLen]
      omega
    · rw [List.length_drop]
      simp only [declaredLen] at hin
      omega
    · rw [List.getElem?_drop]
      exact hcrc

/-- A waiting scanner holds nothing, or a header and less than a frame. -/
theorem verdict_wait_bound {buf : List UInt8} (h : verdict buf = .wait) :
    (buf = [] ∨ buf.head? = some header) ∧ buf.length < maxFrameLen := by
  match buf, h with
  | [], _ => simp [maxFrameLen]
  | b :: rest, h =>
    by_cases hb : b = header
    · subst hb
      refine ⟨.inr rfl, ?_⟩
      match rest, h with
      | [], _ => simp [maxFrameLen]
      | [_], _ => simp [maxFrameLen]
      | hi :: lo :: body, h =>
        rw [verdict_sized] at h
        split at h
        · cases h
        · rename_i hmax
          split at h
          · rename_i hshort
            simp only [List.length_cons, maxFrameLen, frameOverhead] at hmax ⊢
            omega
          · split at h <;> cases h
    · rw [verdict_cons_ne hb] at h
      cases h

/-- **The assembler parses exactly the leftmost-greedy grammar.** Whatever the
chunking, the frames stand at increasing, non-overlapping positions of the
bytes fed, each a valid frame start with its declared length; every valid frame
start is one of them, strictly inside one, or inside the residual buffer; and
the residual buffer is a suffix of the bytes, empty or beginning with a header,
shorter than the longest frame. -/
theorem feedAll_grammar (chunks : List (List UInt8)) :
    ∃ starts : List Nat,
      (new.feedAll chunks).1 = starts.map (fun p =>
        (chunks.flatten.drop p).take (frameLenAt chunks.flatten p)) ∧
      (∀ p ∈ starts, ValidFrameStart chunks.flatten p) ∧
      starts.Pairwise (fun p q => p < q ∧ p + frameLenAt chunks.flatten p ≤ q) ∧
      (∀ p, ValidFrameStart chunks.flatten p →
        p ∈ starts ∨
        (∃ q ∈ starts, q < p ∧ p < q + frameLenAt chunks.flatten q) ∨
        chunks.flatten.length - (new.feedAll chunks).2.buf.length ≤ p) ∧
      (new.feedAll chunks).2.buf <:+ chunks.flatten ∧
      ((new.feedAll chunks).2.buf = [] ∨ (new.feedAll chunks).2.buf.head? = some header) ∧
      (new.feedAll chunks).2.buf.length < maxFrameLen := by
  rw [feedAll_new]
  generalize chunks.flatten = s
  have hlook : ∀ x ∈ frames.starts s, ValidFrameStart s x.1 ∧ x.2 = frameLenAt s x.1 :=
    fun x hx => (verdict_drop_iff s x.1 x.2).mp (frames.look_of_mem_starts s x hx)
  refine ⟨(frames.starts s).map Prod.fst, ?_, ?_, ?_, ?_, frames.scan_suffix s,
    verdict_wait_bound (frames.look_scan s)⟩
  · rw [frames.scan_fst_eq_starts, List.map_map]
    exact List.map_congr_left fun x hx => by rw [(hlook x hx).2]; rfl
  · intro p hp
    obtain ⟨x, hx, rfl⟩ := List.mem_map.mp hp
    exact (hlook x hx).1
  · rw [List.pairwise_map]
    refine (frames.starts_pairwise s).imp_of_mem fun {x y} hx _ hxy => ?_
    rw [(hlook x hx).2] at hxy
    exact ⟨by simp only [frameLenAt, frameOverhead] at hxy; omega, hxy⟩
  · intro p hp
    have hemit := (verdict_drop_iff s p (frameLenAt s p)).mpr ⟨hp, rfl⟩
    rcases frames.starts_complete s p _ hemit with hm | ⟨x, hx, hlo, hhi⟩ | hr
    · exact .inl (List.mem_map.mpr ⟨_, hm, rfl⟩)
    · rw [(hlook x hx).2] at hhi
      exact .inr (.inl ⟨x.1, List.mem_map.mpr ⟨x, hx, rfl⟩, hlo, hhi⟩)
    · exact .inr (.inr hr)

/-! ## Encoding and line noise -/

/-- The scanner emits an encoded payload whole, whatever follows. -/
theorem verdict_generate {payload : List UInt8} (h : payload.length ≤ maxFrameLen - frameOverhead)
    (tail : List UInt8) :
    verdict (generate payload ++ tail) = .emit (generate payload).length := by
  simp only [maxFrameLen, frameOverhead] at h
  have hlen := u16FromBeBytes_toBeBytes (n := payload.length) (by omega)
  have hcons : generate payload ++ tail = header :: UInt8.ofNat (payload.length % 65536 / 256) ::
      UInt8.ofNat (payload.length % 256) :: (payload ++ ([crc8 payload] ++ tail)) := by
    simp [generate, u16ToBeBytes]
  rw [verdict_emit_iff]
  refine ⟨_, _, _, hcons, ?_, ?_, ?_, ?_⟩ <;> try rw [hlen]
  · rw [length_generate]
  · rw [length_generate]
    simp only [frameOverhead, maxFrameLen]
    omega
  · simp
  · simp

/-- A frame is an encoded payload. -/
theorem exists_generate_of_verdict {buf : List UInt8} {n : Nat} (h : verdict buf = .emit n) :
    ∃ payload, payload.length ≤ maxFrameLen - frameOverhead ∧ buf.take n = generate payload := by
  obtain ⟨hi, lo, body, rfl, rfl, hmax, hlen, hcrc⟩ := verdict_emit_iff.mp h
  have hpayload : (body.take (u16FromBeBytes hi lo)).length = u16FromBeBytes hi lo := by
    rw [List.length_take]
    omega
  refine ⟨body.take (u16FromBeBytes hi lo), by omega, ?_⟩
  have hsize : u16ToBeBytes (u16FromBeBytes hi lo) = [hi, lo] := by
    have hhi := hi.toNat_lt
    have hlo := lo.toNat_lt
    have hhigh : u16FromBeBytes hi lo % 65536 / 256 = hi.toNat := by
      simp only [u16FromBeBytes]
      omega
    have hlow : u16FromBeBytes hi lo % 256 = lo.toNat := by
      simp only [u16FromBeBytes]
      omega
    rw [u16ToBeBytes, hhigh, hlow, UInt8.ofNat_toNat, UInt8.ofNat_toNat]
  have htake : body.take (u16FromBeBytes hi lo + 1) =
      body.take (u16FromBeBytes hi lo) ++ [crc8 (body.take (u16FromBeBytes hi lo))] := by
    rw [List.take_add_one, hcrc]
    rfl
  rw [generate, hpayload, hsize, frameOverhead, List.append_assoc, ← htake]
  rfl

/-- Whatever is fed, the frames that come out are encoded payloads. -/
theorem exists_generate_of_mem_feedAll {chunks : List (List UInt8)} {frame : List UInt8}
    (h : frame ∈ (new.feedAll chunks).1) :
    ∃ payload, payload.length ≤ maxFrameLen - frameOverhead ∧ frame = generate payload := by
  rw [feedAll_new, frames.scan_fst_eq_starts] at h
  obtain ⟨start, hstart, rfl⟩ := List.mem_map.mp h
  exact exists_generate_of_verdict (frames.look_of_mem_starts _ start hstart)

/-- A stream of encoded payloads with noise before, between and after them. -/
def noisyStream (noise : List UInt8) (body : List (List UInt8 × List UInt8)) : List UInt8 :=
  noise ++ body.flatMap fun x => generate x.1 ++ x.2

/-- The candidate frame read at `q` cannot be taken for one: it declares more
than any frame carries, or lies inside the stream and fails its checksum. -/
def FalseCandidate (s : List UInt8) (q : Nat) : Prop :=
  q + 2 < s.length ∧
    (maxFrameLen - frameOverhead < declaredLen s q ∨
      (q + frameLenAt s q ≤ s.length ∧
        s[q + 3 + declaredLen s q]? ≠ some (crc8 ((s.drop (q + 3)).take (declaredLen s q)))))

/-- Every header byte inside a noise segment starts a false candidate. The
segments are `noise`, at the front, and the second component of each entry of
`body`, behind the frame of the first. -/
def HarmlessNoise (noise : List UInt8) (body : List (List UInt8 × List UInt8)) : Prop :=
  (∀ k, noise[k]? = some header → FalseCandidate (noisyStream noise body) k) ∧
  ∀ pre payload segment post, body = pre ++ (payload, segment) :: post →
    ∀ k, segment[k]? = some header →
      FalseCandidate (noisyStream noise body)
        ((noisyStream noise pre ++ generate payload).length + k)

theorem verdict_falseCandidate {s : List UInt8} {q : Nat} (hq : s[q]? = some header)
    (h : FalseCandidate s q) : verdict (s.drop q) = .skip := by
  obtain ⟨hin, hfalse⟩ := h
  rw [drop_header hq hin, verdict_sized, ← declaredLen]
  split
  · rfl
  · rename_i hmax
    rcases hfalse with hbig | ⟨hlen, hcrc⟩
    · simp only [maxFrameLen, frameOverhead] at hbig hmax
      omega
    · simp only [frameLenAt, frameOverhead] at hlen
      rw [if_neg (by rw [List.length_drop]; omega),
        if_pos (by rw [List.getElem?_drop]; exact hcrc)]

/-- Noise at a known place of the stream leaves no trace. -/
theorem scan_noise {s : List UInt8} (front segment tail : List UInt8)
    (hs : s = front ++ (segment ++ tail))
    (h : ∀ k, segment[k]? = some header → FalseCandidate s (front.length + k)) :
    frames.scan (segment ++ tail) = frames.scan tail := by
  apply frames.scan_skip_append
  intro k hk
  have hdrop : segment.drop k ++ tail = s.drop (front.length + k) := by
    rw [hs, List.drop_length_add_append, List.drop_append_of_le_length (by omega)]
  by_cases hb : segment[k] = header
  · rw [hdrop]
    refine verdict_falseCandidate ?_ (h k (by rw [List.getElem?_eq_getElem hk, hb]))
    rw [hs, List.getElem?_append_right (by omega), Nat.add_sub_cancel_left,
      List.getElem?_append_left hk, List.getElem?_eq_getElem hk, hb]
  · rw [List.drop_eq_getElem_cons hk, List.cons_append]
    exact verdict_cons_ne hb _

/-- The part of the stream behind `pre` decodes to its own payloads. -/
theorem scan_noisyStream_tail {noise : List UInt8} {body : List (List UInt8 × List UInt8)}
    (hlen : ∀ x ∈ body, x.1.length ≤ maxFrameLen - frameOverhead)
    (hnoise : HarmlessNoise noise body) :
    ∀ (post pre : List (List UInt8 × List UInt8)), body = pre ++ post →
      frames.scan (post.flatMap fun x => generate x.1 ++ x.2) =
        (post.map fun x => generate x.1, []) := by
  intro post
  induction post with
  | nil => intro pre _; simp
  | cons x post ih =>
    intro pre hbody
    obtain ⟨payload, segment⟩ := x
    have hpayload : payload.length ≤ maxFrameLen - frameOverhead :=
      hlen (payload, segment) (by simp [hbody])
    have hstream : noisyStream noise body = (noisyStream noise pre ++ generate payload) ++
        (segment ++ post.flatMap fun x => generate x.1 ++ x.2) := by
      simp [noisyStream, hbody]
    have hsegment := scan_noise _ _ _ hstream (hnoise.2 pre payload segment post hbody)
    have hrest := ih (pre ++ [(payload, segment)]) (by simp [hbody])
    have hemit : frames.look (generate payload ++ (segment ++ post.flatMap fun x =>
        generate x.1 ++ x.2)) = .emit (generate payload).length := verdict_generate hpayload _
    rw [List.flatMap_cons, List.append_assoc, frames.scan_emit_append _ _ hemit, hsegment, hrest]
    rfl

/-- **Decoding undoes encoding through line noise**: a stream of encoded
payloads among noise that holds false candidates only decodes to those frames,
in order, and leaves the buffer empty, in any chunks. -/
theorem feedAll_generate {noise : List UInt8} {body : List (List UInt8 × List UInt8)}
    {chunks : List (List UInt8)}
    (hlen : ∀ x ∈ body, x.1.length ≤ maxFrameLen - frameOverhead)
    (hnoise : HarmlessNoise noise body) (hchunks : chunks.flatten = noisyStream noise body) :
    new.feedAll chunks = (body.map fun x => generate x.1, new) := by
  have hfront : frames.scan (noise ++ body.flatMap fun x => generate x.1 ++ x.2) =
      frames.scan (body.flatMap fun x => generate x.1 ++ x.2) := by
    refine scan_noise [] noise _ (List.nil_append (noisyStream noise body)).symm fun k hk => ?_
    rw [List.length_nil, Nat.zero_add]
    exact hnoise.1 k hk
  rw [feedAll_new, hchunks, noisyStream, hfront,
    scan_noisyStream_tail hlen hnoise body [] rfl]
  rfl

/-- A false header whose declared length spans both of the frames behind it,
the second with a header byte in its payload. -/
theorem feedAll_generate_spanned :
    new.feedAll [[0xAA, 0x00, 0x06], generate [0x08] ++ generate [0xAA, 0x01]] =
      ([generate [0x08], generate [0xAA, 0x01]], new) := by
  have hnoise : HarmlessNoise [0xAA, 0x00, 0x06] [([0x08], []), ([0xAA, 0x01], [])] := by
    refine ⟨?_, ?_⟩
    · intro k hk
      have hzero : k = 0 := by
        match k, hk with
        | 0, _ => rfl
        | 1, hk => exact absurd hk (by decide)
        | 2, hk => exact absurd hk (by decide)
      subst hzero
      exact ⟨by decide +kernel, .inr ⟨by decide +kernel, by decide +kernel⟩⟩
    intro pre payload segment post hbody k hk
    have hmem : (payload, segment) ∈ [(([0x08] : List UInt8), ([] : List UInt8)),
        ([0xAA, 0x01], [])] := by simp [hbody]
    obtain rfl : segment = [] := by
      simp only [List.mem_cons, List.not_mem_nil, or_false, Prod.mk.injEq] at hmem
      rcases hmem with ⟨-, h⟩ | ⟨-, h⟩ <;> exact h
    simp at hk
  exact feedAll_generate (by decide) hnoise (by decide +kernel)

end FrameAssembler

end Btwattch2
