/-
# Byte streams

A byte stream is what will happen at its two ends: the chunks and failures that reading
meets, and how many bytes each write takes. On top of single reads and writes stand
reading a given number of bytes and writing all of some bytes. There are two styles of
that, which differ in what an interruption does to the read of a single byte and in the
texts for a stream that ends early or takes no more bytes.
-/
import KeyedRpc.Transport.Error

namespace KeyedRpc

/-! ## What happens at the ends -/

/-- What a read meets. A chunk may be read in parts; a chunk without bytes is the end of
the stream for one read. -/
inductive ReadEvent where
  | chunk (bytes : List UInt8)
  | fault (f : StreamFault)
  deriving DecidableEq, Repr

/-- What a write meets: it takes at most some number of bytes, or fails. -/
inductive WriteEvent where
  | accept (n : Nat)
  | fault (f : StreamFault)
  deriving DecidableEq, Repr

/-- The reading end of a stream. After the last event it has ended. -/
abbrev Source : Type :=
  List ReadEvent

/-- The writing end of a stream, with the bytes that it took. After the last write event
it takes everything, and after the last flush event all flushes succeed. -/
structure Sink where
  writes : List WriteEvent
  flushes : List (Option StreamFault)
  written : List UInt8
  deriving DecidableEq, Repr

namespace Sink

/-- A writing end that never fails. -/
def faultless : Sink := ⟨[], [], []⟩

end Sink

/-- How a stream is read and written by parts. Styles differ in what a read of a single byte does
after an interruption. Work on a given number of bytes goes on after one in both: of the blocking
style that is documented, of the interleaved style it is an assumption about the library that does
such work for it, which runs over interrupted streams bear out. -/
structure StreamStyle where
  /-- Whether an interrupted read of a byte is tried again. -/
  retriesByte : Bool
  /-- The text for a stream that ends before enough bytes are read. -/
  endText : String
  /-- The text for a stream that takes no more bytes. -/
  stallText : String

namespace StreamStyle

/-- The style of a caller that waits for the stream. -/
def blocking : StreamStyle where
  retriesByte := true
  endText := "failed to fill whole buffer"
  stallText := "failed to write whole buffer"

/-- The style of a responder that serves many streams at a time. -/
def interleaved : StreamStyle where
  retriesByte := false
  endText := "early eof"
  stallText := "write zero"

/-- The failure of a stream that ends before enough bytes are read. -/
def endFault (style : StreamStyle) : StreamFault :=
  ⟨.endOfStream, style.endText⟩

/-- The failure of a stream that takes no more bytes. -/
def stallFault (style : StreamStyle) : StreamFault :=
  ⟨.writeZero, style.stallText⟩

end StreamStyle

/-- Whether a failure is an interruption. -/
def StreamFault.isInterruption (f : StreamFault) : Bool :=
  f.cause == .interrupted

/-! ## Reading -/

/-- Puts the rest of a chunk back in front of what follows. -/
def Source.leave (bytes : List UInt8) (rest : Source) : Source :=
  if bytes.isEmpty then rest else .chunk bytes :: rest

/-- Reads a byte, if the stream has not ended. -/
def Source.readByte (style : StreamStyle) : Source → Except StreamFault (Option UInt8) × Source
  | [] => (.ok none, [])
  | .chunk [] :: rest => (.ok none, rest)
  | .chunk (b :: bytes) :: rest => (.ok (some b), leave bytes rest)
  | .fault f :: rest =>
    if style.retriesByte && f.isInterruption then readByte style rest else (.error f, rest)

/-- Reads `n` bytes. No read takes place for no bytes, and an interrupted one is tried again, in
both styles (see `StreamStyle`). -/
def Source.readExact (style : StreamStyle) (source : Source) (n : Nat) :
    Except StreamFault (List UInt8) × Source :=
  match n, source with
  | 0, source => (.ok [], source)
  | _ + 1, [] => (.error style.endFault, [])
  | _ + 1, .chunk [] :: rest => (.error style.endFault, rest)
  | n + 1, .chunk (b :: bytes) :: rest =>
    let taken := b :: bytes.take n
    if taken.length < n + 1 then
      match readExact style rest (n + 1 - taken.length) with
      | (.ok more, rest) => (.ok (taken ++ more), rest)
      | (.error f, rest) => (.error f, rest)
    else (.ok taken, leave (bytes.drop n) rest)
  | n + 1, .fault f :: rest =>
    if f.isInterruption then readExact style rest (n + 1)
    else (.error f, rest)

/-! ## Writing -/

/-- Offers bytes to the write events until all are taken: how that ends, which bytes were
taken, and the events that are left. An interrupted write is tried again, in both styles (see
`StreamStyle`). -/
def WriteEvent.offer (style : StreamStyle) (events : List WriteEvent) (bytes : List UInt8) :
    Except StreamFault Unit × List UInt8 × List WriteEvent :=
  match bytes, events with
  | [], events => (.ok (), [], events)
  | bytes, [] => (.ok (), bytes, [])
  | _, .accept 0 :: rest => (.error style.stallFault, [], rest)
  | b :: bytes, .accept (n + 1) :: rest =>
    let (result, taken, rest) := offer style rest (bytes.drop n)
    (result, b :: bytes.take n ++ taken, rest)
  | bytes, .fault f :: rest =>
    if f.isInterruption then offer style rest bytes
    else (.error f, [], rest)

namespace Sink

/-- Writes all of some bytes. No write takes place for no bytes. -/
def writeAll (style : StreamStyle) (bytes : List UInt8) (sink : Sink) :
    Except StreamFault Unit × Sink :=
  let (result, taken, writes) := WriteEvent.offer style sink.writes bytes
  (result, { sink with writes, written := sink.written ++ taken })

/-- Flushes what was written. An interruption is a failure like any other here. -/
def flush (sink : Sink) : Except StreamFault Unit × Sink :=
  match sink.flushes with
  | [] => (.ok (), sink)
  | none :: rest => (.ok (), { sink with flushes := rest })
  | some f :: rest => (.error f, { sink with flushes := rest })

end Sink

end KeyedRpc
