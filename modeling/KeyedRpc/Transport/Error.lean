/-
# Transport errors

What keeps a message from its destination before any method runs, each with the text
that reports it, and which of these a failure of a byte stream becomes.
-/
import KeyedRpc.Message.Error

namespace KeyedRpc

open Numeral (decimal)

/-! ## Failures of byte streams -/

/-- What kind of failure a byte stream reports. -/
inductive StreamFault.Cause where
  | endOfStream
  | brokenPipe
  | connectionReset
  | connectionAborted
  | interrupted
  | writeZero
  | other
  deriving DecidableEq, Repr

/-- A failure that a byte stream reports, with its text. -/
structure StreamFault where
  cause : StreamFault.Cause
  text : String
  deriving DecidableEq, Repr

/-! ## Failures of transports -/

/-- A failure to move a message. -/
inductive TransportError where
  /-- The peer cannot be reached, or is gone. -/
  | connectionLost (text : String)
  /-- The responder has no such module. -/
  | unknownModule (module : String)
  /-- The module answers to another version. -/
  | versionMismatch (module expected found : String)
  /-- The connection has not loaded the module of the request. -/
  | moduleNotLoaded (module : String)
  /-- The responder has no method with that tag. -/
  | unknownMethod (tag : String)
  /-- A frame announces more bytes than are accepted. -/
  | frameTooLarge (length max : Nat)
  /-- Bytes and message do not go together. -/
  | codec (e : MessageError)
  /-- The reply is for another method than the request. -/
  | replyMismatch (expected found : String)
  /-- The peer refuses for some other reason. -/
  | refused (reason : String)
  /-- Any other failure of the stream. -/
  | io (text : String)
  deriving DecidableEq, Repr

namespace TransportError

/-- The text that reports a failure. -/
def text : TransportError → String
  | connectionLost text => "Connection lost: " ++ text
  | unknownModule module => "Unknown module: " ++ module
  | versionMismatch module expected found =>
    "Version mismatch for module " ++ module ++ ": expected '" ++ expected ++ "', found '"
      ++ found ++ "'"
  | moduleNotLoaded module => "Module not loaded: " ++ module
  | unknownMethod tag => "Unknown method: " ++ tag
  | frameTooLarge length max =>
    "Frame of " ++ decimal length ++ " bytes exceeds maximum of " ++ decimal max
  | codec e => "Codec error: " ++ e.text
  | replyMismatch expected found =>
    "Reply for '" ++ found ++ "' received while calling '" ++ expected ++ "'"
  | refused reason => "Refused by peer: " ++ reason
  | io text => "I/O error: " ++ text

/-- A stream that ends too early, or that the peer closes, means that the peer is gone. -/
def ofStreamFault (fault : StreamFault) : TransportError :=
  match fault.cause with
  | .endOfStream | .brokenPipe | .connectionReset | .connectionAborted =>
    connectionLost fault.text
  | .interrupted | .writeZero | .other => io fault.text

/-- What is done with a message on its way fails as a codec error. -/
def lift {α : Type} (result : Except MessageError α) : Except TransportError α :=
  result.mapError codec

end TransportError

end KeyedRpc
