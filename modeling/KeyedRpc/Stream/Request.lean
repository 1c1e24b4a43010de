/-
# Requests over a stream

A caller asks for a method to be called or for a module to be loaded. A call travels as
its message; a load travels as a message that is named for the module and holds its
version.
-/
import KeyedRpc.Stream.Frame

namespace KeyedRpc

/-- What a caller may ask for. -/
inductive Request where
  | call (m : Message)
  | load (module version : String)

namespace Request

/-- The key that holds the version of a module. -/
def versionKey : String := "version"

/-- The body of a load. -/
def loadBody (module version : String) : Except MessageError (List UInt8) := do
  let m ← (Message.empty module).set versionKey (.string version)
  m.encode

/-- The frame that asks for something. -/
def frame : Request → Except MessageError Frame
  | call m => m.encode.map (Frame.mk .call)
  | load module version => (loadBody module version).map (Frame.mk .load)

/-- What the body of a load asks for. -/
def readLoad (body : List UInt8) : Except MessageError Request := do
  let m ← Message.decode body
  let version ← m.get .string versionKey
  return load m.method version

/-- What a frame asks for. Answers are not taken from a caller. -/
def ofFrame (f : Frame) : Except TransportError Request :=
  match f.kind with
  | .call => TransportError.lift ((Message.decode f.body).map call)
  | .load => TransportError.lift (readLoad f.body)
  | kind => .error (.refused ("unexpected " ++ kind.name ++ " frame from client"))

end Request

end KeyedRpc
