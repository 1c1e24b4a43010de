/-
# Reading a message from bytes

A reader takes what it needs from the front of the bytes and leaves the rest. Counts are
checked against the bytes that are left before anything is read for them, so bytes that
promise more than they hold are refused at once. A message must list each key once and
end where its bytes end.
-/
import KeyedRpc.Message.Encoding

namespace KeyedRpc

/-- Takes something from the front of the bytes and leaves the rest. -/
abbrev Reader (α : Type) : Type :=
  List UInt8 → Except MessageError (α × List UInt8)

namespace Reader

variable {α : Type}

/-- Repeats a step a number of times, from a starting value. -/
def iterate (step : α → Reader α) : Nat → α → Reader α
  | 0, a, input => .ok (a, input)
  | n + 1, a, input =>
    match step a input with
    | .error e => .error e
    | .ok (a', rest) => iterate step n a' rest

/-- Reads a number of items of one form. -/
def items (item : Reader α) (count : Nat) : Reader (List α) := fun input => do
  let (reversed, rest) ← iterate (fun done input => do
    let (a, rest) ← item input
    return (a :: done, rest)) count [] input
  return (reversed.reverse, rest)

/-! ## Bytes and numbers -/

/-- Whether at least `n` bytes are left. -/
def holds (n : Nat) (input : List UInt8) : Bool :=
  (input.take n).length == n

/-- Reads one byte. -/
def byte : Reader UInt8
  | [] => .error .unexpectedEnd
  | b :: rest => .ok (b, rest)

/-- Reads `n` bytes. -/
def take (n : Nat) : Reader (List UInt8) := fun input =>
  if holds n input then .ok (input.take n, input.drop n) else .error .unexpectedEnd

/-- Reads a number of four bytes. -/
def number : Reader Nat
  | a :: b :: c :: d :: rest => .ok (ofLittleEndian [a, b, c, d], rest)
  | _ => .error .unexpectedEnd

/-- Reads a count of items that take up at least `least` bytes each, which must be left. -/
def count (least : Nat) : Reader Nat := fun input => do
  let (n, rest) ← number input
  if holds (n * least) rest then return (n, rest) else throw .unexpectedEnd

/-! ## Values -/

/-- Reads the tag of a value. -/
def tag : Reader Kind := fun input => do
  let (b, rest) ← byte input
  match Kind.ofTag? b with
  | some kind => return (kind, rest)
  | none => throw (.invalidTag b)

/-- Reads the length and the text of a string. -/
def text : Reader String := fun input => do
  let (length, rest) ← number input
  let (bytes, rest) ← take length rest
  match Utf8.decode? bytes with
  | some s => return (s, rest)
  | none => throw .invalidUtf8

/-- Reads a string with its tag. -/
def blob : Reader String := fun input => do
  let (kind, rest) ← tag input
  match kind with
  | .string => text rest
  | other => throw (.invalidTag other.tag)

/-- Reads a word. -/
def word : Reader UInt32 := fun input => do
  let (n, rest) ← number input
  return (UInt32.ofNat n, rest)

/-- Reads the contents of a value of a kind. -/
def contents : (kind : Kind) → Reader kind.Carrier
  | .word => word
  | .string => text
  | .words => fun input => do
    let (n, rest) ← count 4 input
    items word n rest
  | .strings => fun input => do
    let (n, rest) ← count (1 + 4) input
    items blob n rest

/-- Reads a value with its tag. -/
def value : Reader Value := fun input => do
  let (kind, rest) ← tag input
  let (x, rest) ← contents kind rest
  return (Value.of kind x, rest)

/-! ## Messages -/

/-- Reads an entry into a message that does not have its key yet. -/
def entry (m : Message) : Reader Message := fun input => do
  let (key, rest) ← blob input
  let (v, rest) ← value rest
  if m.contains key then throw (.duplicateKey key)
  let m ← m.set key v
  return (m, rest)

/-- Reads a message, which is to keep within a limit. The smallest entry is an empty key
with a word. -/
def message (limit : Nat) : Reader Message := fun input => do
  let (method, rest) ← blob input
  let (n, rest) ← count (1 + 4 + 1 + 4) rest
  iterate entry n (Message.withLimit method limit) rest

end Reader

/-- The message that bytes stand for. Its limit is the default, or the number of bytes if
that is larger. -/
def Message.decode (bytes : List UInt8) : Except MessageError Message := do
  let (m, rest) ← Reader.message (max defaultLimit bytes.length) bytes
  match rest with
  | [] => return m
  | _ => throw (.trailingBytes rest.length)

end KeyedRpc
