/-
Btwattch2.Assembler — `FrameAssembler` of `connection.rs`: reassembling the
byte stream of RX notifications into frames.

`nextFrameLoop` is the loop of `next_frame`, `pull` the iterator `feed`
returns, driven until a frame satisfies a predicate or nothing more comes.
Draining it is pulling with a predicate nothing satisfies.
-/
import Btwattch2.Payload

namespace Btwattch2

/-- Largest frame the device ever sends. Bounds the reassembly buffer. -/
def maxFrameLen : Nat := 256

structure FrameAssembler where
  buf : List UInt8
  deriving DecidableEq, Repr

namespace FrameAssembler

def new : FrameAssembler := ⟨[]⟩

/-- The loop of `next_frame`. Each turn that goes round has dropped at least
one byte, so the fuel `nextFrame` gives it never runs out. -/
def nextFrameLoop : Nat → List UInt8 → Option (List UInt8) × List UInt8
  | 0, buf => (none, buf)
  | fuel + 1, buf =>
    match buf.dropWhile (· != header) with
    -- no header anywhere: the buffer is cleared
    | [] => (none, [])
    | b :: hi :: lo :: body =>
      let payloadLen := u16FromBeBytes hi lo
      let frameLen := payloadLen + frameOverhead
      let buf := b :: hi :: lo :: body
      if frameLen > maxFrameLen then
        -- oversized: resynchronise one byte on
        nextFrameLoop fuel (hi :: lo :: body)
      else if buf.length < frameLen then (none, buf)
      else
        let payloadEnd := frameLen - 1
        if buf[payloadEnd]? != some (crc8 ((buf.take payloadEnd).drop 3)) then
          -- invalid CRC: resynchronise one byte on
          nextFrameLoop fuel (hi :: lo :: body)
        else (some (buf.take frameLen), buf.drop frameLen)
    -- the header is in place but the size field has not arrived
    | buf => (none, buf)

def nextFrame (a : FrameAssembler) : Option (List UInt8) × FrameAssembler :=
  let r := nextFrameLoop (a.buf.length + 1) a.buf
  (r.1, ⟨r.2⟩)

/-- `feed` up to the iterator it returns: the data joins the buffer. -/
def feed (a : FrameAssembler) (data : List UInt8) : FrameAssembler := ⟨a.buf ++ data⟩

/-- Drive the iterator `feed` returns until a frame satisfies `stop`: the frames
before it, the frame itself, and the assembler it leaves. -/
def pullLoop (stop : List UInt8 → Bool) :
    Nat → FrameAssembler → List (List UInt8) × Option (List UInt8) × FrameAssembler
  | 0, a => ([], none, a)
  | fuel + 1, a =>
    match a.nextFrame with
    | (none, a) => ([], none, a)
    | (some frame, a) =>
      if stop frame then ([], some frame, a)
      else
        let r := pullLoop stop fuel a
        (frame :: r.1, r.2)

/-- `pullLoop` with fuel for every frame the buffer can hold. -/
def pull (stop : List UInt8 → Bool) (a : FrameAssembler) :
    List (List UInt8) × Option (List UInt8) × FrameAssembler :=
  pullLoop stop (a.buf.length + 1) a

/-- Drain the iterator `feed` returns. -/
def drain (a : FrameAssembler) : List (List UInt8) × FrameAssembler :=
  let r := a.pull fun _ => false
  (r.1, r.2.2)

/-- Feed `chunks` one by one, draining after each. -/
def feedAll : FrameAssembler → List (List UInt8) → List (List UInt8) × FrameAssembler
  | a, [] => ([], a)
  | a, chunk :: chunks =>
    let r := (a.feed chunk).drain
    let rest := feedAll r.2 chunks
    (r.1 ++ rest.1, rest.2)

def clear (_ : FrameAssembler) : FrameAssembler := ⟨[]⟩

end FrameAssembler

end Btwattch2
