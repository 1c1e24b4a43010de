/-
# Refusals

A responder that does not answer a request says why in a frame of its own. The body is a
message with the kind of the error and its details, from which the caller makes the same
error again; an error that has no kind of its own arrives as its text.
-/
import KeyedRpc.Message.Decoding
import KeyedRpc.Stream.Frame

namespace KeyedRpc.Refusal

open Numeral (decimal readDecimal?)

/-- The key that holds the kind of an error. -/
def kindKey : String := "kind"

/-- The key that holds the details of an error. -/
def detailKey : String := "detail"

/-! ## Writing -/

/-- The kind and the details of an error. -/
def describe : TransportError → String × List String
  | .unknownModule module => ("unknown-module", [module])
  | .versionMismatch module expected found => ("version-mismatch", [module, expected, found])
  | .moduleNotLoaded module => ("module-not-loaded", [module])
  | .unknownMethod tag => ("unknown-method", [tag])
  | .frameTooLarge length max => ("frame-too-large", [decimal length, decimal max])
  | e => ("refused", [e.text])

/-- The message that describes an error. -/
def message (e : TransportError) : Except MessageError Message :=
  let (kind, detail) := describe e
  (Message.empty "").setAll [(kindKey, .string kind), (detailKey, .strings detail)]

/-- The frame that refuses a request with an error. -/
def frame (e : TransportError) : Except TransportError Frame :=
  match message e >>= Message.encode with
  | .ok body => .ok ⟨.refused, body⟩
  | .error e => .error (.codec e)

/-! ## Reading -/

/-- The largest number that a length in a refusal may be. -/
def maxNumber : Nat := 0xFFFFFFFFFFFFFFFF

/-- A number in a refusal; what is no numeral, or a number too large, counts as zero. -/
def number (text : String) : Nat :=
  match readDecimal? text with
  | some n => if n ≤ maxNumber then n else 0
  | none => 0

/-- The error of a kind with details. Details that are missing are empty, and a kind that
is not known is a plain refusal. -/
def restore (kind : String) (detail : List String) : TransportError :=
  let field := fun i => detail.getD i ""
  if kind = "unknown-module" then .unknownModule (field 0)
  else if kind = "version-mismatch" then .versionMismatch (field 0) (field 1) (field 2)
  else if kind = "module-not-loaded" then .moduleNotLoaded (field 0)
  else if kind = "unknown-method" then .unknownMethod (field 0)
  else if kind = "frame-too-large" then .frameTooLarge (number (field 0)) (number (field 1))
  else .refused (field 0)

/-- The error that the body of a refusal describes. -/
def read (body : List UInt8) : Except MessageError TransportError := do
  let m ← Message.decode body
  let kind ← m.get .string kindKey
  let detail ← m.get .strings detailKey
  return restore kind detail

end KeyedRpc.Refusal
