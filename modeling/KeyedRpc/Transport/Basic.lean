/-
# Transports and calls

A transport loads modules and delivers requests. A call writes its arguments into a
request, has it delivered and takes the result from the reply. The reply must be for the
method of the request, and a failure that it reports wins over a result.
-/
import KeyedRpc.Method.Basic
import KeyedRpc.Remote.Error
import KeyedRpc.Transport.Error

namespace KeyedRpc

/-- Where modules can be loaded and requests answered. -/
structure Transport (m : Type → Type) where
  /-- Loads a module under a version. -/
  load : (module version : String) → ExceptT TransportError m Unit
  /-- Delivers a request and waits for its reply. -/
  send : (request : Message) → ExceptT TransportError m Message

/-! ## Errors of calls -/

/-- A failure of a call. -/
inductive CallError where
  /-- The arguments do not fit into a request, or the reply has no result. -/
  | message (e : MessageError)
  /-- The request was not delivered, or its reply is for another method. -/
  | transport (e : TransportError)
  /-- The responder reports a failure. -/
  | remote (e : RemoteError)
  deriving DecidableEq, Repr

namespace CallError

/-- The text that reports a failure. -/
def text : CallError → String
  | message e => "Message error: " ++ e.text
  | transport e => "Transport error: " ++ e.text
  | remote e => e.text

/-- The text of the failure that is behind a failed call. -/
def source : CallError → String
  | message e => e.text
  | transport e => e.text
  | remote e => e.text

end CallError

/-! ## Calls -/

namespace Method

/-- The request that a call delivers. -/
def request (m : Method) (args : Args m.args) : Except MessageError Message :=
  m.withArgs args (Message.empty m.tag)

/-- The result that a reply gives to a call. -/
def result (m : Method) (reply : Message) : Except CallError m.output.Carrier :=
  if reply.method ≠ m.tag then
    .error (.transport (.replyMismatch m.tag reply.method))
  else
    match RemoteError.ofReply? reply with
    | some e => .error (.remote e)
    | none => (m.outputOf reply).mapError .message

end Method

/-- Calls a method over a transport. -/
def Transport.call {μ : Type → Type} [Monad μ] (t : Transport μ) (m : Method)
    (args : Args m.args) : ExceptT CallError μ m.output.Carrier := do
  match m.request args with
  | .error e => throw (.message e)
  | .ok request =>
    let reply ← (t.send request).adapt .transport
    ExceptT.mk (pure (m.result reply))

/-- A call is the delivery of its request and what its reply gives; a request that cannot
be made is not delivered. -/
theorem Transport.run_call {μ : Type → Type} [Monad μ] [LawfulMonad μ] (t : Transport μ)
    (m : Method) (args : Args m.args) :
    (t.call m args).run = match m.request args with
      | .error e => pure (.error (.message e))
      | .ok request => (fun result => (result.mapError CallError.transport).bind m.result)
          <$> (t.send request).run := by
  unfold call
  cases m.request args with
  | error e => rfl
  | ok request =>
    show (Except.mapError _ <$> (t.send request).run) >>= _ = _ <$> (t.send request).run
    rw [map_eq_pure_bind, map_eq_pure_bind, bind_assoc]
    congr 1
    funext result
    rw [pure_bind]
    cases result <;> rfl

end KeyedRpc
