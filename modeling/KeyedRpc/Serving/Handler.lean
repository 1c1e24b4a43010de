/-
# Handlers

A handler answers a request by filling in a reply. It may also give up with a fault, or
break off without having meant to; what it wrote into the reply until then stays there. A
handler of a method works on typed arguments and a typed result; as a handler of messages
it takes the arguments from the request and puts the result into the reply. All handlers of
a responder share a state.
-/
import KeyedRpc.Method.Basic

namespace KeyedRpc

/-! ## Failures -/

/-- How a handler ends without a result. -/
inductive Failure where
  /-- The handler gives up with a text. -/
  | fault (text : String)
  /-- The handler breaks off, with a text or without. -/
  | crash (text : Option String)
  deriving DecidableEq, Repr

namespace Failure

/-- The text for a handler that breaks off without one. -/
def unknown : String := "caught unknown exception"

/-- The text that reports a failure. -/
def text : Failure → String
  | fault text => text
  | crash (some text) => text
  | crash none => unknown

/-- A failure to read or write a message is a fault with the text of that failure. -/
def ofMessage (e : MessageError) : Failure :=
  fault e.text

end Failure

/-! ## Handlers -/

variable {σ : Type}

/-- Work on the state that handlers share, which may fail. -/
abbrev Handling (σ α : Type) : Type :=
  ExceptT Failure (StateM σ) α

/-- Work on a reply where it stands, next to the state that handlers share. -/
abbrev Filling (σ α : Type) : Type :=
  Handling (Message × σ) α

/-- Answers a request by filling in a reply. -/
abbrev Handler (σ : Type) : Type :=
  (request : Message) → Filling σ Unit

/-- Answers a call of a method. -/
abbrev MethodHandler (σ : Type) (m : Method) : Type :=
  Args m.args → Handling σ m.output.Carrier

/-- What is done with a message succeeds, or fails with the fault of a message. -/
def Handling.ofMessage {α : Type} : Except MessageError α → Handling σ α
  | .ok a => pure a
  | .error e => throw (Failure.ofMessage e)

/-- What is done with a message is gone on with, or its failure is the end. -/
theorem Handling.ofMessage_bind_apply {α β : Type} (result : Except MessageError α)
    (f : α → Handling σ β) (s : σ) : (ofMessage result >>= f) s = match result with
      | .ok a => f a s
      | .error e => (.error (Failure.ofMessage e), s) := by
  rw [bind_apply]
  cases result <;> rfl

/-- Work that cannot fail is gone on with. -/
theorem Handling.liftM_bind_apply {α β : Type} (x : StateM σ α) (f : α → Handling σ β) (s : σ) :
    ((liftM x : Handling σ α) >>= f) s = f (x s).1 (x s).2 :=
  rfl

namespace Filling

/-- Work that does not touch the reply. -/
def aside {α : Type} (x : Handling σ α) : Filling σ α := fun (reply, s) =>
  let (result, s) := x s
  (result, reply, s)

theorem aside_liftM_bind_apply {α β : Type} (x : StateM σ α) (f : α → Filling σ β)
    (reply : Message) (s : σ) :
    (aside (liftM x) >>= f) (reply, s) = f (x s).1 (reply, (x s).2) :=
  rfl

/-- Changes the reply, or fails with the fault of a message and leaves it as it was. -/
def change (f : Message → Except MessageError Message) : Filling σ Unit := fun (reply, s) =>
  match f reply with
  | .ok reply => (.ok (), reply, s)
  | .error e => (.error (Failure.ofMessage e), reply, s)

/-- Puts a value under a key of the reply. -/
def set (key : String) (value : Value) : Filling σ Unit :=
  change (·.set key value)

theorem set_apply (key : String) (value : Value) (reply : Message) (s : σ) :
    set key value (reply, s)
      = match reply.set key value with
        | .ok filled => (.ok (), filled, s)
        | .error e => (.error (Failure.ofMessage e), reply, s) :=
  rfl

/-- Takes all entries out of the reply. -/
def clear : Filling σ Unit :=
  change (.ok ·.clear)

end Filling

/-- A handler of a method as a handler of messages. It runs only on arguments that can be
read from the request. -/
def MethodHandler.onMessages {m : Method} (handle : MethodHandler σ m) : Handler σ :=
  fun request => do
    let args ← Handling.ofMessage (m.argsOf request)
    let output ← Filling.aside (handle args)
    Filling.change (m.withOutput output)

end KeyedRpc
