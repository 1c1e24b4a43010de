/-
# The caller's end of a stream

A caller writes one frame and waits for one frame. After any failure of the stream, or an
answer that is none, nobody knows where the next frame begins: the caller then counts as
broken and does not touch the stream again.
-/
import KeyedRpc.Stream.Refusal
import KeyedRpc.Stream.Request
import KeyedRpc.Transport.Basic

namespace KeyedRpc

/-- A caller on a stream. It accepts frames of at most `maxFrame` bytes. -/
structure StreamClient where
  source : Source
  sink : Sink
  maxFrame : Nat
  broken : Bool

/-- Work of a caller on a stream. -/
abbrev Exchanging (α : Type) : Type :=
  ExceptT TransportError (StateM StreamClient) α

namespace StreamClient

/-- The failure of a caller that is broken. -/
def desynchronised : TransportError :=
  .connectionLost "stream desynchronised by an earlier error"

/-- The failure of a caller whose peer ends the stream instead of answering. -/
def peerClosed : TransportError :=
  .connectionLost "peer closed the stream"

/-- The failure of a caller that gets a frame which is no answer. -/
def unexpected (kind : FrameKind) : TransportError :=
  .refused ("unexpected " ++ kind.name ++ " frame from responder")

/-- Writes a frame, if the caller is not broken. -/
def send (f : Frame) : Exchanging Unit := fun c =>
  if c.broken then (.error desynchronised, c)
  else
    match f.write .blocking c.sink with
    | (.error e, sink) => (.error e, { c with sink, broken := true })
    | (.ok (), sink) => (.ok (), { c with sink })

/-- Waits for an answer: the body of a reply, or the error of a refusal. -/
def receive : Exchanging (List UInt8) := fun c =>
  match Frame.read .blocking c.maxFrame c.source with
  | (.error e, source) => (.error e, { c with source, broken := true })
  | (.ok none, source) => (.error peerClosed, { c with source, broken := true })
  | (.ok (some f), source) =>
    match f.kind with
    | .reply => (.ok f.body, { c with source })
    | .refused =>
      match Refusal.read f.body with
      | .ok e => (.error e, { c with source })
      | .error e => (.error (.codec e), { c with source })
    | kind => (.error (unexpected kind), { c with source, broken := true })

/-- Writes a frame and waits for its answer. -/
def exchange (f : Frame) : Exchanging (List UInt8) := do
  send f
  receive

end StreamClient

/-! ## Transports of frames -/

/-- The transport of a way to exchange frames: what has no frame is not sent, and what
answers a load is not looked at. -/
def Transport.ofExchange {μ : Type → Type} [Monad μ]
    (exchange : Frame → ExceptT TransportError μ (List UInt8)) : Transport μ where
  load module version := do
    let f ← ExceptT.mk (pure (TransportError.lift (Request.load module version).frame))
    let _ ← exchange f
  send request := do
    let f ← ExceptT.mk (pure (TransportError.lift (Request.call request).frame))
    let body ← exchange f
    ExceptT.mk (pure (TransportError.lift (Message.decode body)))

section OfExchange

variable {μ : Type → Type} [Monad μ] [LawfulMonad μ]
  (exchange : Frame → ExceptT TransportError μ (List UInt8))

theorem Transport.run_load_ofExchange (module version : String) :
    ((Transport.ofExchange exchange).load module version).run
      = match (Request.load module version).frame with
        | .error e => pure (.error (.codec e))
        | .ok f => (fun result => result.map fun _ => ()) <$> (exchange f).run := by
  simp only [Transport.ofExchange, TransportError.lift, ExceptT.run_bind, ExceptT.run_mk,
    pure_bind, map_eq_pure_bind]
  cases (Request.load module version).frame with
  | error e => rfl
  | ok f =>
    show (exchange f).run >>= _ = (exchange f).run >>= _
    congr 1
    funext result
    cases result <;> rfl

theorem Transport.run_send_ofExchange (request : Message) :
    ((Transport.ofExchange exchange).send request).run
      = match (Request.call request).frame with
        | .error e => pure (.error (.codec e))
        | .ok f => (fun result => result.bind fun body => TransportError.lift (Message.decode body))
            <$> (exchange f).run := by
  simp only [Transport.ofExchange, TransportError.lift, ExceptT.run_bind, ExceptT.run_mk,
    pure_bind, map_eq_pure_bind]
  cases (Request.call request).frame with
  | error e => rfl
  | ok f =>
    show (exchange f).run >>= _ = (exchange f).run >>= _
    congr 1
    funext result
    cases result <;> rfl

end OfExchange

/-- The transport over a stream. -/
def Transport.stream : Transport (StateM StreamClient) :=
  Transport.ofExchange StreamClient.exchange

end KeyedRpc
