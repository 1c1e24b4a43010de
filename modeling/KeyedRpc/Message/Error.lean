/-
# Message errors

What can go wrong when keys are read or written, and when bytes are read as a message,
each with the text that reports it.
-/
import KeyedRpc.Text.Numeral
import KeyedRpc.Value

namespace KeyedRpc

open Numeral (decimal hexadecimal)

/-- A failure of keyed access or of the byte format. -/
inductive MessageError where
  /-- The message has no such key. -/
  | badKey (key : String)
  /-- The key holds a value of another kind. -/
  | typeMismatch (key : String) (expected found : Kind)
  /-- The message would need more bytes than its limit. -/
  | bufferTooSmall (needed limit : Nat)
  /-- The bytes end before the message does. -/
  | unexpectedEnd
  /-- A byte stands where a tag is due and is not that tag. -/
  | invalidTag (byte : UInt8)
  /-- The bytes of a string are no UTF-8. -/
  | invalidUtf8
  /-- A length does not fit into the four bytes that it has. -/
  | blobTooLarge (length : Nat)
  /-- The bytes can be read and yet form no message. -/
  | corrupt (reason : String)
  deriving DecidableEq, Repr

namespace MessageError

/-- The failure of a message that lists a key twice. -/
def duplicateKey (key : String) : MessageError :=
  corrupt ("duplicate key " ++ key)

/-- The failure of a message that bytes follow. -/
def trailingBytes (count : Nat) : MessageError :=
  corrupt (decimal count ++ " trailing bytes")

/-- The text that reports a failure. -/
def text : MessageError → String
  | badKey key => "bad RPC key " ++ key
  | typeMismatch key expected found =>
    "RPC type error: key " ++ key ++ " holds " ++ found.name ++ ", expected " ++ expected.name
  | bufferTooSmall needed limit =>
    "RPC buffer too small: " ++ decimal needed ++ " bytes needed, limit is " ++ decimal limit
  | unexpectedEnd => "corrupt RPC message: unexpected end of buffer"
  | invalidTag byte => "corrupt RPC message: invalid tag byte " ++ hexadecimal 2 byte.toNat
  | invalidUtf8 => "corrupt RPC message: invalid UTF-8"
  | blobTooLarge length => "RPC blob too large: " ++ decimal length ++ " bytes"
  | corrupt reason => "corrupt RPC message: " ++ reason

end MessageError

end KeyedRpc
