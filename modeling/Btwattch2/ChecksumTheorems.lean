/-
Btwattch2.ChecksumTheorems — what the checksum of a frame detects.

The checksum is a shift register over the bits of the payload, most significant
first (`crc8_eq_run`). Exclusive or is the addition of its states, so whether an
error is detected does not depend on the payload it strikes
(`crc8_corrupt_eq_iff`). The polynomial, with its leading term, has an even
number of terms, so a shift keeps the parity of a state (`parity_shift`), and it
has a constant term, so a shift can be undone (`shift_injective`): odd numbers of
flipped bits and bursts of up to eight bits are detected at every length
(`crc8_detects`).
-/
import Mathlib.Algebra.Field.ZMod
import Btwattch2.AssemblerTheorems
import Btwattch2.Lib.Register

namespace Btwattch2

open Lib

/-! ## The states of the checksum -/

/-- A state of the checksum. Its addition is exclusive or. -/
@[ext] structure Remainder where
  byte : UInt8
  deriving DecidableEq

namespace Remainder

instance : Add Remainder := ⟨fun a b => ⟨a.byte ^^^ b.byte⟩⟩

instance : Zero Remainder := ⟨⟨0⟩⟩

instance : Neg Remainder := ⟨id⟩

@[simp] theorem byte_add (a b : Remainder) : (a + b).byte = a.byte ^^^ b.byte := rfl

@[simp] theorem byte_zero : (0 : Remainder).byte = 0 := rfl

theorem add_self (a : Remainder) : a + a = 0 := Remainder.ext UInt8.xor_self

instance : AddCommGroup Remainder where
  nsmul := nsmulRec
  zsmul := zsmulRec
  add_assoc a b c := Remainder.ext (UInt8.xor_assoc a.byte b.byte c.byte)
  add_comm a b := Remainder.ext (UInt8.xor_comm a.byte b.byte)
  zero_add _ := Remainder.ext UInt8.zero_xor
  add_zero _ := Remainder.ext UInt8.xor_zero
  neg_add_cancel := add_self

end Remainder

/-- What holds of the 256 bytes holds of every byte. -/
theorem forall_byte {P : UInt8 → Prop} (h : ∀ n : Fin 256, P (UInt8.ofNat n))
    (b : UInt8) : P b := by
  have hb := h ⟨b.toNat, b.toNat_lt⟩
  rwa [UInt8.ofNat_toNat] at hb

/-- A shift, with the bit shifted out read off the state. -/
theorem crc8Shift_eq (crc : UInt8) : crc8Shift crc =
    (crc <<< 1) ^^^ (if crc.toBitVec.getLsbD 7 then crc8Polynomial else 0) :=
  forall_byte (P := fun crc => crc8Shift crc =
    (crc <<< 1) ^^^ (if crc.toBitVec.getLsbD 7 then crc8Polynomial else 0)) (by decide +kernel) crc

theorem crc8Shift_xor (a b : UInt8) : crc8Shift (a ^^^ b) = crc8Shift a ^^^ crc8Shift b := by
  simp only [crc8Shift_eq, UInt8.shiftLeft_xor, UInt8.toBitVec_xor, BitVec.getLsbD_xor]
  have hfeedback : (if (a.toBitVec.getLsbD 7 ^^ b.toBitVec.getLsbD 7) = true then crc8Polynomial
      else 0) = (if a.toBitVec.getLsbD 7 then crc8Polynomial else 0) ^^^
        (if b.toBitVec.getLsbD 7 then crc8Polynomial else 0) := by
    cases a.toBitVec.getLsbD 7 <;> cases b.toBitVec.getLsbD 7 <;> decide
  rw [hfeedback]
  ac_rfl

/-- The checksum as a shift register: a bit comes in at the top. -/
def checksum : Register Remainder where
  tap := ⟨0x80⟩
  tap_add_tap := by decide
  shift :=
    { toFun := fun r => ⟨crc8Shift r.byte⟩
      map_zero' := by decide
      map_add' := fun a b => Remainder.ext (crc8Shift_xor a.byte b.byte) }

@[simp] theorem byte_shift (r : Remainder) : (checksum.shift r).byte = crc8Shift r.byte := rfl

/-! ## Bits -/

/-- The bits of a byte, most significant first. -/
def byteBits (b : UInt8) : List Bool := (List.range 8).map fun i => b.toBitVec.getLsbD (7 - i)

/-- The bits of some bytes, in the order they are sent. -/
def bits (bytes : List UInt8) : List Bool := bytes.flatMap byteBits

@[simp] theorem length_byteBits (b : UInt8) : (byteBits b).length = 8 := by simp [byteBits]

@[simp] theorem bits_nil : bits [] = [] := rfl

@[simp] theorem bits_cons (b : UInt8) (bytes : List UInt8) :
    bits (b :: bytes) = byteBits b ++ bits bytes := rfl

theorem length_bits (bytes : List UInt8) : (bits bytes).length = 8 * bytes.length := by
  induction bytes with
  | nil => rfl
  | cons b bytes ih =>
    rw [bits_cons, List.length_append, length_byteBits, ih, List.length_cons]
    omega

theorem byteBits_xor (a b : UInt8) :
    byteBits (a ^^^ b) = List.zipWith (· ^^ ·) (byteBits a) (byteBits b) := by
  simp [byteBits, List.zipWith_map_left, List.zipWith_map_right]

/-- Errors, as exclusive or. -/
def corrupt (bytes error : List UInt8) : List UInt8 := List.zipWith (· ^^^ ·) bytes error

theorem bits_corrupt : ∀ {bytes error : List UInt8}, error.length = bytes.length →
    bits (corrupt bytes error) = List.zipWith (· ^^ ·) (bits bytes) (bits error)
  | [], [], _ => rfl
  | b :: bytes, e :: error, h => by
    have ih : bits (corrupt bytes error) = List.zipWith (· ^^ ·) (bits bytes) (bits error) :=
      bits_corrupt (Nat.succ.inj h)
    have hcons : corrupt (b :: bytes) (e :: error) = (b ^^^ e) :: corrupt bytes error := rfl
    rw [hcons, bits_cons, byteBits_xor, ih, bits_cons, bits_cons, List.zipWith_append (by simp)]

/-! ## The register runs over the bits -/

theorem byte_iterate_shift (n : Nat) (r : Remainder) :
    (checksum.shift^[n] r).byte = crc8Shift^[n] r.byte := by
  induction n generalizing r with
  | zero => rfl
  | succ n ih => exact ih (checksum.shift r)

/-- From zero, eight bits come to eight shifts of the byte they make up. -/
theorem byte_run_byteBits (b : UInt8) :
    (checksum.run 0 (byteBits b)).byte = crc8Shift^[8] b := by
  have hall : ∀ n : Fin 256, (checksum.run 0 (byteBits (UInt8.ofNat n))).byte =
      crc8Shift^[8] (UInt8.ofNat n) := by decide +kernel
  exact forall_byte (P := fun b => (checksum.run 0 (byteBits b)).byte = crc8Shift^[8] b) hall b

/-- A byte at once is its eight bits one after the other. -/
theorem run_byteBits (r : Remainder) (b : UInt8) :
    checksum.run r (byteBits b) = ⟨crc8Byte r.byte b⟩ := by
  have hzero : checksum.run 0 (byteBits b) = checksum.shift^[8] ⟨b⟩ := by
    ext
    rw [byte_run_byteBits, byte_iterate_shift]
  rw [checksum.run_eq_add, hzero, length_byteBits, ← iterate_map_add]
  ext
  rw [byte_iterate_shift]
  rfl

theorem run_bits (r : Remainder) (bytes : List UInt8) :
    checksum.run r (bits bytes) = ⟨bytes.foldl crc8Byte r.byte⟩ := by
  induction bytes generalizing r with
  | nil => rfl
  | cons b bytes ih =>
    rw [bits_cons, Register.run_append, run_byteBits, ih]
    rfl

/-- **The checksum is what the register holds after the bits of the payload.** -/
theorem crc8_eq_run (payload : List UInt8) :
    (⟨crc8 payload⟩ : Remainder) = checksum.run 0 (bits payload) := (run_bits 0 payload).symm

/-! ## Whether an error is detected -/

theorem crc8_corrupt {payload error : List UInt8} (h : error.length = payload.length) :
    crc8 (corrupt payload error) = crc8 payload ^^^ crc8 error := by
  have hlength : (bits error).length = (bits payload).length := by rw [length_bits, length_bits, h]
  have hrun := checksum.run_add 0 0 hlength
  rw [← bits_corrupt h, add_zero, ← crc8_eq_run, ← crc8_eq_run, ← crc8_eq_run] at hrun
  exact congrArg Remainder.byte hrun

/-- A shift can be undone. -/
theorem shift_injective : Function.Injective checksum.shift := by
  refine (injective_iff_map_eq_zero _).mpr fun r hr => ?_
  have hall : ∀ n : Fin 256, crc8Shift (UInt8.ofNat n) = 0 → UInt8.ofNat n = 0 := by
    decide +kernel
  ext
  rw [forall_byte (P := fun b => crc8Shift b = 0 → b = 0) hall r.byte (congrArg Remainder.byte hr)]
  rfl

/-- **An error goes undetected exactly when the register does not detect it by
itself**, whatever payload it strikes. -/
theorem crc8_corrupt_eq_iff {payload error : List UInt8} {e : UInt8}
    (h : error.length = payload.length) :
    crc8 (corrupt payload error) = crc8 payload ^^^ e ↔
      checksum.run 0 (bits (error ++ [e])) = 0 := by
  have hrun : checksum.run 0 (bits (error ++ [e])) = checksum.shift^[8] ⟨crc8 error ^^^ e⟩ := by
    rw [run_bits, List.foldl_append]
    ext
    rw [byte_iterate_shift]
    rfl
  have hzero : checksum.shift^[8] ⟨crc8 error ^^^ e⟩ = 0 ↔ crc8 error ^^^ e = 0 := by
    rw [← checksum.iterate_shift_zero 8, (shift_injective.iterate 8).eq_iff, Remainder.ext_iff]
    rfl
  rw [crc8_corrupt h, UInt8.xor_right_inj, hrun, hzero, UInt8.xor_eq_zero_iff]

/-! ### Odd numbers of flipped bits -/

/-- The parity of a state. -/
def parity : Remainder →+ ZMod 2 where
  toFun r := ((List.range 8).map fun i => if r.byte.toBitVec.getLsbD i then (1 : ZMod 2) else 0).sum
  map_zero' := by decide
  map_add' a b := by
    have hbit : ∀ i, (if (a + b).byte.toBitVec.getLsbD i then (1 : ZMod 2) else 0) =
        (if a.byte.toBitVec.getLsbD i then (1 : ZMod 2) else 0) +
          if b.byte.toBitVec.getLsbD i then (1 : ZMod 2) else 0 := by
      intro i
      rw [Remainder.byte_add, UInt8.toBitVec_xor, BitVec.getLsbD_xor]
      cases a.byte.toBitVec.getLsbD i <;> cases b.byte.toBitVec.getLsbD i <;> decide
    simp only [hbit, List.sum_map_add]

theorem parity_shift (r : Remainder) : parity (checksum.shift r) = parity r := by
  have hall : ∀ n : Fin 256, parity ⟨crc8Shift (UInt8.ofNat n)⟩ = parity ⟨UInt8.ofNat n⟩ := by
    decide +kernel
  exact forall_byte (P := fun b => parity ⟨crc8Shift b⟩ = parity ⟨b⟩) hall r.byte

/-- An odd number of bits is flipped. -/
def OddFlips (error : List UInt8) : Prop := Odd ((bits error).count true)

theorem OddFlips.detected {error : List UInt8} (h : OddFlips error) :
    checksum.run 0 (bits error) ≠ 0 :=
  checksum.run_ne_zero_of_odd parity parity_shift (by decide) h

/-! ### Bursts -/

/-- All flipped bits lie within a window of eight. -/
def Burst (error : List UInt8) : Prop :=
  ∃ k, ∀ i, (bits error)[i]? = some true → k ≤ i ∧ i < k + 8

/-- Eight bits that are not all zero are detected. -/
theorem run_window {window : List Bool} (hlen : window.length = 8) (h : true ∈ window) :
    checksum.run 0 window ≠ 0 := by
  have hall : ∀ f : Fin 8 → Bool, (∃ i, f i = true) → checksum.run 0 (List.ofFn f) ≠ 0 := by
    decide +kernel
  obtain ⟨f, rfl⟩ : ∃ f : Fin 8 → Bool, window = List.ofFn f := by
    rw [← hlen]
    exact ⟨window.get, (List.ofFn_get window).symm⟩
  obtain ⟨i, hi⟩ := (List.mem_ofFn' f true).mp h
  exact hall f ⟨i, hi⟩

theorem Burst.detected {error : List UInt8} (h : Burst error) (hflip : true ∈ bits error) :
    checksum.run 0 (bits error) ≠ 0 := by
  obtain ⟨k, hk⟩ := h
  have hlen : 8 ≤ (bits error).length := by
    have hpos : 0 < (bits error).length := List.length_pos_of_mem hflip
    rw [length_bits] at hpos ⊢
    omega
  obtain ⟨before, window, after, hwindow, hbits⟩ := Register.exists_window hlen hk
  rw [hbits] at hflip ⊢
  have hmem : true ∈ window := by simpa using hflip
  exact checksum.run_ne_zero_of_burst shift_injective (run_window hwindow hmem) before after

/-! ## What the assembler makes of it -/

/-- The frame a payload was sent in, with the payload and the checksum that
arrive in their places. -/
def arriving (payload payload' : List UInt8) (crc' : UInt8) : List UInt8 :=
  header :: (u16ToBeBytes payload.length ++ payload' ++ [crc'])

/-- A frame whose checksum is wrong does not come out of the assembler. -/
theorem arriving_not_mem_feedAll {payload payload' : List UInt8} {crc' : UInt8}
    (hlen : payload'.length = payload.length) (hcrc : crc8 payload' ≠ crc')
    (chunks : List (List UInt8)) :
    arriving payload payload' crc' ∉ (FrameAssembler.new.feedAll chunks).1 := by
  intro hmem
  obtain ⟨q, -, hframe⟩ := FrameAssembler.exists_generate_of_mem_feedAll hmem
  have hq : q.length = payload'.length := by
    have hlength := congrArg List.length hframe
    simp only [arriving, List.length_cons, List.length_append, u16ToBeBytes, List.length_nil,
      length_generate, frameOverhead] at hlength
    omega
  rw [arriving, ← hlen, generate, hq] at hframe
  obtain ⟨-, hbytes⟩ := List.cons_eq_cons.mp hframe
  rw [List.append_assoc, List.append_assoc] at hbytes
  obtain ⟨hpayload, hlast⟩ := List.append_inj (List.append_cancel_left hbytes) hq.symm
  rw [← hpayload] at hlast
  exact hcrc (List.cons_eq_cons.mp hlast).1.symm

/-- Its header is dropped, and the assembler goes on one byte behind it. -/
theorem nextFrameLoop_arriving {payload payload' : List UInt8} {crc' : UInt8}
    (hlen : payload'.length = payload.length) (hcrc : crc8 payload' ≠ crc')
    (hsize : payload.length < 65536) (fuel : Nat) (rest : List UInt8) :
    FrameAssembler.nextFrameLoop (fuel + 1) (arriving payload payload' crc' ++ rest) =
      FrameAssembler.nextFrameLoop fuel ((arriving payload payload' crc' ++ rest).drop 1) := by
  have hdeclared := u16FromBeBytes_toBeBytes hsize
  have hcons : arriving payload payload' crc' ++ rest =
      header :: UInt8.ofNat (payload.length % 65536 / 256) :: UInt8.ofNat (payload.length % 256) ::
        (payload' ++ crc' :: rest) := by
    simp [arriving, u16ToBeBytes]
  rw [hcons]
  refine FrameAssembler.nextFrameLoop_skip ?_ fuel
  rw [FrameAssembler.verdict_sized, hdeclared]
  split
  · rfl
  · have hcrc' : ((payload' ++ crc' :: rest)[payload.length]?) ≠
        some (crc8 ((payload' ++ crc' :: rest).take payload.length)) := by
      rw [← hlen, List.take_left, List.getElem?_append_right (Nat.le_refl _)]
      simpa using Ne.symm hcrc
    rw [if_neg (by simp only [List.length_append, List.length_cons]; omega), if_pos hcrc']

/-- **The checksum detects odd errors and short bursts at every length.** Where
an error strikes a payload of any length and its checksum, flipping an odd number
of bits or bits within a window of eight, the checksum of what arrives is wrong:
the frame never comes out of the assembler, and its header is skipped. -/
theorem crc8_detects {payload error payload' : List UInt8} {crc' : UInt8}
    (hlen : error.length = payload.length + 1) (hflip : ∃ e ∈ error, e ≠ 0)
    (herror : OddFlips error ∨ Burst error)
    (harrives : corrupt (payload ++ [crc8 payload]) error = payload' ++ [crc']) :
    crc8 payload' ≠ crc' ∧
    (∀ chunks, arriving payload payload' crc' ∉ (FrameAssembler.new.feedAll chunks).1) ∧
    (payload.length < 65536 → ∀ fuel rest,
      FrameAssembler.nextFrameLoop (fuel + 1) (arriving payload payload' crc' ++ rest) =
        FrameAssembler.nextFrameLoop fuel ((arriving payload payload' crc' ++ rest).drop 1)) := by
  have hone : true ∈ bits error := by
    obtain ⟨e, he, hne⟩ := hflip
    have hall : ∀ n : Fin 256, UInt8.ofNat n ≠ 0 → true ∈ byteBits (UInt8.ofNat n) := by
      decide +kernel
    have hbyte := forall_byte (P := fun b => b ≠ 0 → true ∈ byteBits b) hall e hne
    exact List.mem_flatMap.mpr ⟨e, he, hbyte⟩
  have hdetected : checksum.run 0 (bits error) ≠ 0 := by
    rcases herror with hodd | hburst
    · exact hodd.detected
    · exact hburst.detected hone
  -- the errors of the payload and of the checksum, apart
  obtain ⟨front, e, rfl⟩ : ∃ front e, error = front ++ [e] := by
    have hne : error ≠ [] := by
      rintro rfl
      simp at hlen
    exact ⟨error.dropLast, error.getLast hne, (List.dropLast_concat_getLast hne).symm⟩
  have hfront : front.length = payload.length := by simpa using hlen
  have hsplit : corrupt (payload ++ [crc8 payload]) (front ++ [e]) =
      corrupt payload front ++ [crc8 payload ^^^ e] := by
    rw [corrupt, List.zipWith_append hfront.symm]
    rfl
  rw [hsplit] at harrives
  obtain ⟨rfl, hlast⟩ := List.append_inj' harrives rfl
  obtain rfl : crc8 payload ^^^ e = crc' := by simpa using hlast
  have hlength : (corrupt payload front).length = payload.length := by
    simp [corrupt, hfront]
  have hcrc : crc8 (corrupt payload front) ≠ crc8 payload ^^^ e := fun heq =>
    hdetected ((crc8_corrupt_eq_iff hfront).mp heq)
  exact ⟨hcrc, arriving_not_mem_feedAll hlength hcrc, nextFrameLoop_arriving hlength hcrc⟩

/-- A burst across a byte boundary of a power command. -/
theorem crc8_detects_burst :
    crc8 [0xA6, 0xF1] ≠ crc8 [0xA7, 0x01] ∧
    (∀ chunks, arriving [0xA7, 0x01] [0xA6, 0xF1] (crc8 [0xA7, 0x01]) ∉
      (FrameAssembler.new.feedAll chunks).1) ∧
    (([0xA7, 0x01] : List UInt8).length < 65536 → ∀ fuel rest,
      FrameAssembler.nextFrameLoop (fuel + 1)
          (arriving [0xA7, 0x01] [0xA6, 0xF1] (crc8 [0xA7, 0x01]) ++ rest) =
        FrameAssembler.nextFrameLoop fuel
          ((arriving [0xA7, 0x01] [0xA6, 0xF1] (crc8 [0xA7, 0x01]) ++ rest).drop 1)) := by
  have hburst : Burst [0x01, 0xF0, 0x00] := by
    have hbits : ∀ i, i < 24 → (bits [0x01, 0xF0, 0x00])[i]? = some true → 7 ≤ i ∧ i < 15 := by
      decide +kernel
    refine ⟨7, fun i hi => hbits i ?_ hi⟩
    exact (List.getElem?_eq_some_iff.mp hi).1
  have hflip : ∃ e ∈ ([0x01, 0xF0, 0x00] : List UInt8), e ≠ 0 := ⟨0x01, by simp, by decide⟩
  have harrives : corrupt ([0xA7, 0x01] ++ [crc8 [0xA7, 0x01]]) [0x01, 0xF0, 0x00] =
      [0xA6, 0xF1] ++ [crc8 [0xA7, 0x01]] := by
    decide +kernel
  exact crc8_detects rfl hflip (.inr hburst) harrives

end Btwattch2
