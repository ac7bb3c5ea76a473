/-
Btwattch2.Payload — the frames the program writes (`payload.rs`).

A frame is a header byte, a big-endian u16 payload length, the payload and a
CRC-8 over the payload.
-/
import Mathlib.Logic.Function.Iterate
import Btwattch2.Chrono

namespace Btwattch2

/-- Every frame, in both directions, starts with this byte. -/
def header : UInt8 := 0xAA

/-- Length of the header (1), the size field (2) and the CRC (1). -/
def frameOverhead : Nat := 4

def rtcTimer : UInt8 := 0x01
def monitoringCommand : UInt8 := 0x08
def turnOff : List UInt8 := [0xA7, 0x00]
def turnOn : List UInt8 := [0xA7, 0x01]
def blinkLedCommand : List UInt8 := [0x3E, 0x01, 0x02, 0x02, 0x0F]

/-! ## The checksum -/

def crc8Polynomial : UInt8 := 0x85

/-- One turn of the inner loop: the bit shifted out decides whether the
polynomial is subtracted. -/
def crc8Shift (crc : UInt8) : UInt8 :=
  if crc &&& 0x80 == 0x80 then (crc <<< 1) ^^^ crc8Polynomial else crc <<< 1

def crc8Byte (crc byte : UInt8) : UInt8 := crc8Shift^[8] (crc ^^^ byte)

/-- CRC-8 over the payload bytes: polynomial 0x85, zero initial value, no
reflection. -/
def crc8 (payload : List UInt8) : UInt8 := payload.foldl crc8Byte 0

example : crc8 [0x08] = 0xB3 := by decide

/-! ## The size field -/

/-- `u16::from_be_bytes`. -/
def u16FromBeBytes (hi lo : UInt8) : Nat := hi.toNat * 256 + lo.toNat

/-- `(n as u16).to_be_bytes()`. -/
def u16ToBeBytes (n : Nat) : List UInt8 := [UInt8.ofNat (n % 65536 / 256), UInt8.ofNat (n % 256)]

theorem u16FromBeBytes_toBeBytes {n : Nat} (h : n < 65536) :
    u16FromBeBytes (UInt8.ofNat (n % 65536 / 256)) (UInt8.ofNat (n % 256)) = n := by
  simp only [u16FromBeBytes, UInt8.toNat_ofNat']
  omega

/-! ## Frames -/

/-- A frame around `payload`. -/
def generate (payload : List UInt8) : List UInt8 :=
  header :: (u16ToBeBytes payload.length ++ payload ++ [crc8 payload])

@[simp] theorem length_generate (payload : List UInt8) :
    (generate payload).length = payload.length + frameOverhead := by
  simp [generate, u16ToBeBytes, frameOverhead]

def monitoring : List UInt8 := generate [monitoringCommand]

def on : List UInt8 := generate turnOn

def off : List UInt8 := generate turnOff

def blinkLed : List UInt8 := generate blinkLedCommand

/-- The frame that sets the device clock, which carries the year in one byte as
`year - 1900`. -/
def rtc (chrono : Chrono) (time : DateTime) : Except String (List UInt8) :=
  let t := chrono.naiveLocal time
  let year := t.year
  if 0 ≤ year - 1900 ∧ year - 1900 ≤ 255 then
    .ok (generate [
      rtcTimer,
      UInt8.ofNat t.second,
      UInt8.ofNat t.minute,
      UInt8.ofNat t.hour,
      UInt8.ofNat t.day,
      UInt8.ofNat (t.month - 1),
      UInt8.ofNat (year - 1900).toNat,
      UInt8.ofNat t.weekday])
  else
    .error s!"cannot set the RTC to {year}: the device carries a year as `year - 1900` in one byte, so only 1900 through 2155 can be expressed"

example : monitoring = [0xAA, 0x00, 0x01, 0x08, 0xB3] := by decide

end Btwattch2
