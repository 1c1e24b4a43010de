/-
# A stream within one process

A caller and a responder at the two ends of one faultless stream. What the caller writes
is served before the caller reads, and what the responder writes is what the caller then
reads. On either way the stream may cut the bytes into chunks as it likes.
-/
import KeyedRpc.Stream.Client
import KeyedRpc.Stream.Service

namespace KeyedRpc

/-- Cuts bytes into chunks, of `n + 1` bytes for a size `n`, and hands on in one chunk what
is left after the last size; the chunks, and the sizes that are left. -/
def Source.cut : (sizes : List Nat) → (bytes : List UInt8) → Source × List Nat
  | sizes, [] => ([], sizes)
  | [], bytes => ([.chunk bytes], [])
  | n :: sizes, b :: bytes =>
    let (rest, sizes) := cut sizes (bytes.drop n)
    (.chunk (b :: bytes.take n) :: rest, sizes)

/-- A caller and a responder that share a stream. -/
structure Loopback (σ : Type) where
  client : StreamClient
  responder : Responder σ
  /-- Whether the responder still serves the stream. -/
  serving : Bool
  /-- The sizes of the chunks that come next. -/
  sizes : List Nat

namespace Loopback

variable {σ : Type}

/-- A new stream between a caller that accepts frames of at most `maxFrame` bytes and a
responder whose handlers are in a state. What is written arrives in one chunk. -/
def start (maxFrame : Nat) (state : σ) : Loopback σ where
  client := ⟨[], Sink.faultless, maxFrame, false⟩
  responder := Responder.start state
  serving := true
  sizes := []

/-- Runs the caller. -/
def onClient {α : Type} (x : Exchanging α) :
    ExceptT TransportError (Serving (Loopback σ)) α := fun l =>
  let (result, client) := x l.client
  (.ok result, { l with client })

/-- Serves what the caller has written since. A responder that has left does not read. -/
def deliver (r : Registry σ) (max : Nat) :
    ExceptT TransportError (Serving (Loopback σ)) Unit := fun l =>
  let sent := l.client.sink.written
  let client := { l.client with sink := Sink.faultless }
  if l.serving then
    let (chunks, sizes) := Source.cut l.sizes sent
    match Service.serve r max ⟨chunks, Sink.faultless, l.responder⟩ with
    | (.error abort, s) => (.error abort, { l with client, responder := s.responder, sizes })
    | (.ok result, s) =>
      let (chunks, sizes) := Source.cut sizes s.sink.written
      (.ok (.ok ()),
        { client := { client with source := client.source ++ chunks }
          responder := s.responder
          serving := result.toBool
          sizes })
  else (.ok (.ok ()), { l with client })

/-- Writes a frame, has it served and waits for its answer. -/
def exchange (r : Registry σ) (max : Nat) (f : Frame) :
    ExceptT TransportError (Serving (Loopback σ)) (List UInt8) := do
  onClient (StreamClient.send f)
  deliver r max
  onClient StreamClient.receive

end Loopback

/-- The transport over a stream within one process, to a responder that accepts frames of
at most `max` bytes. -/
def Transport.loopback {σ : Type} (r : Registry σ) (max : Nat) :
    Transport (Serving (Loopback σ)) :=
  Transport.ofExchange (Loopback.exchange r max)

end KeyedRpc
