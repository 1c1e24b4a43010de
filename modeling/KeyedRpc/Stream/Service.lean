/-
# Serving a stream

A responder answers the frames of a stream one after another until the stream ends. What
it cannot answer it refuses, and goes on. A frame that cannot be read leaves it without a
place to go on from: it says so once and leaves.
-/
import KeyedRpc.Serving.Responder
import KeyedRpc.Stream.Refusal
import KeyedRpc.Stream.Request

namespace KeyedRpc

variable {σ : Type}

/-! ## Answers -/

namespace Responder

/-- Does what is asked for; the body of the reply. -/
def perform (r : Registry σ) : Request → Answering σ (List UInt8)
  | .call request => do
    let reply ← dispatch r request
    ExceptT.mk (pure (TransportError.lift reply.encode))
  | .load module version => do
    load r module version
    return []

/-- The frame that answers a frame: a reply, or a refusal with the error that came up. It
fails if that error cannot be put into a refusal. -/
def answer (r : Registry σ) (f : Frame) : Answering σ Frame := fun c =>
  match Request.ofFrame f with
  | .error e => (.ok (Refusal.frame e), c)
  | .ok request =>
    match perform r request c with
    | (.error abort, c) => (.error abort, c)
    | (.ok (.error e), c) => (.ok (Refusal.frame e), c)
    | (.ok (.ok body), c) => (.ok (.ok ⟨.reply, body⟩), c)

end Responder

/-! ## The loop -/

/-- A stream and the responder that serves it. -/
structure Service (σ : Type) where
  source : Source
  sink : Sink
  responder : Responder σ

namespace Service

/-- Tells the peer about an error, as far as that can be done. -/
def farewell (e : TransportError) (sink : Sink) : Sink :=
  match Refusal.frame e with
  | .ok f => (f.write .interleaved sink).2
  | .error _ => sink

/-- Serves a stream to its end, with frames of at most `max` bytes. -/
def serve (r : Registry σ) (max : Nat) (s : Service σ) :
    Except Abort (Except TransportError Unit) × Service σ :=
  match _h : Frame.read .interleaved max s.source with
  | (.error e, source) => (.ok (.error e), ⟨source, farewell e s.sink, s.responder⟩)
  | (.ok none, source) => (.ok (.ok ()), { s with source })
  | (.ok (some f), source) =>
    match Responder.answer r f s.responder with
    | (.error abort, responder) => (.error abort, ⟨source, s.sink, responder⟩)
    | (.ok (.error e), responder) => (.ok (.error e), ⟨source, s.sink, responder⟩)
    | (.ok (.ok answer), responder) =>
      match answer.write .interleaved s.sink with
      | (.error e, sink) => (.ok (.error e), ⟨source, sink, responder⟩)
      | (.ok (), sink) => serve r max ⟨source, sink, responder⟩
termination_by s.source.remaining
decreasing_by exact Frame.remaining_read_lt _h

end Service

end KeyedRpc
