/-
# The registry of a responder

A responder knows modules, each under one version, and has an endpoint for each tag that
it answers. What is registered last for a module or a tag counts. Replies start out
empty, for the method of the request and with the responder's limit.
-/
import KeyedRpc.Serving.Invocation
import KeyedRpc.Transport.Error

namespace KeyedRpc

/-! ## Endpoints -/

/-- What answers the requests for a tag. -/
inductive Endpoint (σ : Type) where
  /-- A handler for the calls of a method. -/
  | typed (m : Method) (handle : MethodHandler σ m)
  /-- A handler that reads and writes messages itself. -/
  | raw (handle : Handler σ)

namespace Endpoint

variable {σ : Type}

/-- The signature of the method that an endpoint answers, if it has types. -/
def signature? : Endpoint σ → Option Signature
  | typed m _ => some m.signature
  | raw _ => none

/-- The handler of messages that an endpoint runs. -/
def handler : Endpoint σ → Handler σ
  | typed _ handle => handle.onMessages
  | raw handle => handle

end Endpoint

/-! ## Registries -/

/-- The modules and the endpoints of a responder. -/
structure Registry (σ : Type) where
  modules : KeyMap String
  endpoints : KeyMap (Endpoint σ)
  replyLimit : Nat
  /-- The text of the call stack at a failure, where there is one. -/
  stackAt : σ → Option String

namespace Registry

variable {σ : Type}

/-- The registry without modules and endpoints, with a limit on the size of replies. -/
def withReplyLimit (limit : Nat) (stackAt : σ → Option String) : Registry σ where
  modules := KeyMap.empty
  endpoints := KeyMap.empty
  replyLimit := limit
  stackAt

/-- The registry without modules and endpoints, with the default limit. -/
def empty (stackAt : σ → Option String) : Registry σ :=
  withReplyLimit defaultLimit stackAt

/-- Registers a module under its version. -/
def registerModule (r : Registry σ) (module version : String) : Registry σ :=
  { r with modules := r.modules.insert module version }

/-- Registers a handler of a method. -/
def register (r : Registry σ) (m : Method) (handle : MethodHandler σ m) : Registry σ :=
  { r with endpoints := r.endpoints.insert m.tag (.typed m handle) }

/-- Registers a handler of messages for an operation of a module. -/
def registerRaw (r : Registry σ) (module name : String) (handle : Handler σ) : Registry σ :=
  { r with endpoints := r.endpoints.insert (methodTag module name) (.raw handle) }

/-- Whether a tag has an endpoint. -/
def hasMethod (r : Registry σ) (tag : String) : Bool :=
  r.endpoints.contains tag

/-- The signatures of the methods, in the order of their tags. -/
def signatures (r : Registry σ) : List Signature :=
  r.endpoints.entries.filterMap fun entry => entry.2.signature?

/-- Whether a module can be loaded under a version: it must be registered under exactly
that one. -/
def checkLoad (r : Registry σ) (module version : String) : Except TransportError Unit :=
  match r.modules.get? module with
  | none => .error (.unknownModule module)
  | some expected =>
    if expected = version then .ok () else .error (.versionMismatch module expected version)

/-- Answers a request by the endpoint for its tag. The failure of a method is an answer;
only a tag without endpoint is an error. -/
def dispatch (r : Registry σ) (request : Message) :
    ExceptT TransportError (Serving σ) Message :=
  match r.endpoints.get? request.method with
  | none => throw (.unknownMethod request.method)
  | some endpoint =>
    ExceptT.lift (endpoint.handler.invoke r.stackAt request
      (Message.withLimit request.method r.replyLimit))

end Registry

end KeyedRpc
