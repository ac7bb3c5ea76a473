/-
Btwattch2.Endpoint — the metrics endpoint on its connection (`handle` of
`agent/metrics.rs`): the request head is read out of the bytes that arrive, and one
response is written.
-/
import Btwattch2.Lib.Lines
import Btwattch2.Metrics
import Btwattch2.Server

namespace Btwattch2.Metrics

open Lib

variable {ε : Type}

/-- Cap on the request head. -/
def maxRequestBytes : Nat := 8 * 1024

/-- `read_line`: the text up to and with the next newline, empty at the end; `none` when
reading fails or what was read is no UTF-8. -/
def readLine (s : Source UInt8 ε) : Option (String × Source UInt8 ε) :=
  match s.readUntil 0x0A with
  | .error _ => none
  | .ok (line, s) => (lineText line).map fun text => (text, s)

/-- Drain the rest of the head, up to a blank line, the end or a failure. -/
def drainHead : Nat → Source UInt8 ε → Source UInt8 ε
  | 0, s => s
  | n + 1, s =>
    match readLine s with
    | none => s
    | some (text, s) => if text.isEmpty || (Text.trimEnd text).isEmpty then s else drainHead n s

/-- What is written to a connection, and what is left to read of what may be read. The
readings are those of `now`, after the drain. -/
def handleStream (s : Source UInt8 ε) (stats : AgentStats) (now : Nat) :
    Option (List UInt8 × Source UInt8 ε) :=
  match readLine (s.take maxRequestBytes) with
  | none => none
  | some (line, reader) => (handle line stats now).map fun response =>
    (utf8 response.toList, drainHead (reader.contents.length + 1) reader)

end Btwattch2.Metrics
