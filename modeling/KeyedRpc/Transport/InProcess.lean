/-
# Calls within one process

A responder in the same process answers without a stream in between. Requests and
replies still take the form of bytes on their way, so that a caller sees the same as over
a stream.
-/
import KeyedRpc.Message.Decoding
import KeyedRpc.Serving.Responder
import KeyedRpc.Transport.Basic

namespace KeyedRpc

variable {σ : Type}

/-- A message as it arrives: its bytes are written and read again. -/
def Message.carried (m : Message) : Except TransportError Message :=
  TransportError.lift (m.encode >>= Message.decode)

/-- The transport to a responder in the same process. -/
def Transport.inProcess (r : Registry σ) : Transport (Serving (Responder σ)) where
  load := Responder.load r
  send request := do
    let request ← ExceptT.mk (pure request.carried)
    let reply ← Responder.dispatch r request
    ExceptT.mk (pure reply.carried)

end KeyedRpc
