/-
# The memory module

The memory module gives access to a store of words: by typed methods, and for older
callers by requests with named keys. Typed methods fail with the error of the store;
requests with named keys are answered with its text.
-/
import KeyedRpc.Memory.Hub
import KeyedRpc.Serving.Registry

namespace KeyedRpc.Memory

/-- The name of the module. -/
def moduleName : String := "memory"

/-- The version under which the module is loaded. -/
def version : String := "memory v1.0.1"

/-! ## Access from handlers -/

/-- Reads words of the store. -/
def readWords (address count : UInt32) : StateM Hub (Except MemoryError (List UInt32)) :=
  fun hub => (hub.read address count.toNat, hub)

/-- Writes words of the store; an access that fails leaves it as it was. -/
def writeWords (address : UInt32) (data : List UInt32) : StateM Hub (Except MemoryError Unit) :=
  fun hub =>
    match hub.write address data with
    | .ok hub => (.ok (), hub)
    | .error e => (.error e, hub)

/-! ## Typed methods -/

/-- Reads words from an address on: address and count. -/
def readMethod : Method where
  module := moduleName
  name := "Read"
  args := [Kind.word, Kind.word]
  output := Kind.words

/-- Writes words from an address on: address and data. -/
def writeMethod : Method where
  module := moduleName
  name := "Write"
  args := [Kind.word, Kind.words]
  output := .unit

example : readMethod.signature.text = "memory.Read(word, word) -> word-array" := by decide
example : writeMethod.signature.text = "memory.Write(word, word-array) -> ()" := by decide

/-- Answers calls of `readMethod`. -/
def handleRead : MethodHandler Hub readMethod := fun (address, count, ()) => do
  match ← readWords address count with
  | .ok data => pure data
  | .error e => throw (.fault ("read memsvc error: " ++ e.text))

/-- Answers calls of `writeMethod`. -/
def handleWrite : MethodHandler Hub writeMethod := fun (address, data, ()) => do
  match ← writeWords address data with
  | .ok () => pure ()
  | .error e => throw (.fault ("write memsvc error: " ++ e.text))

/-! ## Requests with named keys -/

/-- The key of an address. -/
def addressKey : String := "address"

/-- The key of a number of words. -/
def countKey : String := "count"

/-- The key of words. -/
def dataKey : String := "data"

/-- Answers requests for `count` words at `address`, which it puts under `data`. -/
def readNamed : Handler Hub := fun request => do
  let count ← Handling.ofMessage (request.get .word countKey)
  let address ← Handling.ofMessage (request.get .word addressKey)
  match ← Filling.aside (readWords address count) with
  | .ok data => Filling.set dataKey (.words data)
  | .error e => Filling.set errorKey (.string e.text)

/-- Answers requests to write `data` at `address`. -/
def writeNamed : Handler Hub := fun request => do
  let data ← Handling.ofMessage (request.get .words dataKey)
  let address ← Handling.ofMessage (request.get .word addressKey)
  match ← Filling.aside (writeWords address data) with
  | .ok () => pure ()
  | .error e => Filling.set errorKey (.string ("memsvc error: " ++ e.text))

/-! ## The module -/

/-- Registers the module with all that it answers. -/
def register (r : Registry Hub) : Registry Hub :=
  r.registerModule moduleName version
    |>.registerRaw moduleName "read" readNamed
    |>.registerRaw moduleName "write" writeNamed
    |>.register readMethod handleRead
    |>.register writeMethod handleWrite

end KeyedRpc.Memory
