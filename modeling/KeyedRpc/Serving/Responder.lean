/-
# A responder's end of a connection

For each connection a responder keeps the modules that it has loaded. The state of the
handlers is shared with all other connections.
-/
import KeyedRpc.Serving.Session

namespace KeyedRpc

/-- What a connection has loaded, with the state that handlers share. -/
structure Responder (σ : Type) where
  session : Session
  state : σ

/-- Work of a responder for one connection. It may refuse a request, and it may stop for
good. -/
abbrev Answering (σ α : Type) : Type :=
  ExceptT TransportError (Serving (Responder σ)) α

namespace Responder

variable {σ : Type}

/-- A new connection to handlers in a state. -/
def start (state : σ) : Responder σ :=
  ⟨Session.empty, state⟩

/-- Loads a module for the connection. -/
def load (r : Registry σ) (module version : String) : Answering σ Unit := fun c =>
  match c.session.load r module version with
  | .ok session => (.ok (.ok ()), { c with session })
  | .error e => (.ok (.error e), c)

/-- Answers a request of the connection. -/
def dispatch (r : Registry σ) (request : Message) : Answering σ Message := fun c =>
  let (answer, state) := c.session.dispatch r request c.state
  (answer, { c with state })

end Responder

end KeyedRpc
