/-
# The bytes of a message

A message is written as its method and the number of its entries, followed by the
entries in key order. Numbers have four bytes, the lowest first. A string is a tag, its
length in bytes and its UTF-8 text; an array is a tag, its length and its items.
`length_bytes` says that the count of bytes which a message keeps is the number of bytes
that are written.
-/
import KeyedRpc.Message.Basic

namespace KeyedRpc

/-! ## Tags -/

/-- The byte that announces a value of a kind. -/
def Kind.tag : Kind → UInt8
  | word => 0x05
  | string => 0x10
  | words => 0x24
  | strings => 0x25

/-- The kind that a byte announces. -/
def Kind.ofTag? (byte : UInt8) : Option Kind :=
  if byte = 0x05 then some word
  else if byte = 0x10 then some string
  else if byte = 0x24 then some words
  else if byte = 0x25 then some strings
  else none

/-- The tag of a kind announces it. -/
@[simp] theorem Kind.ofTag?_tag (k : Kind) : Kind.ofTag? k.tag = some k := by
  cases k <;> rfl

/-- A byte announces a kind if and only if it is its tag. -/
theorem Kind.ofTag?_eq_some_iff {byte : UInt8} {k : Kind} :
    Kind.ofTag? byte = some k ↔ byte = k.tag := by
  constructor
  · intro h
    unfold Kind.ofTag? at h
    repeat' split at h
    all_goals cases h
    all_goals assumption
  · intro h
    rw [h, Kind.ofTag?_tag]

/-! ## Numbers -/

/-- The largest number that has a place in four bytes. -/
def maxLength : Nat :=
  0xFFFFFFFF

/-- The four low bytes of a number, the lowest first. -/
def littleEndian (n : Nat) : List UInt8 :=
  [UInt8.ofNat n, UInt8.ofNat (n / 0x100), UInt8.ofNat (n / 0x10000), UInt8.ofNat (n / 0x1000000)]

/-- The number that bytes stand for, the lowest first. -/
def ofLittleEndian (bytes : List UInt8) : Nat :=
  bytes.foldr (fun b n => b.toNat + 0x100 * n) 0

/-- Every number takes up four bytes. -/
@[simp] theorem length_littleEndian (n : Nat) : (littleEndian n).length = 4 := rfl

/-- A number that has a place in four bytes is read back from them. -/
theorem ofLittleEndian_littleEndian {n : Nat} (h : n ≤ maxLength) :
    ofLittleEndian (littleEndian n) = n := by
  simp only [ofLittleEndian, littleEndian, List.foldr, UInt8.toNat_ofNat']
  unfold maxLength at h
  omega

/-- Four bytes are those of the number that they stand for. -/
theorem littleEndian_ofLittleEndian (a b c d : UInt8) :
    littleEndian (ofLittleEndian [a, b, c, d]) = [a, b, c, d] := by
  have ha := a.toNat_lt
  have hb := b.toNat_lt
  have hc := c.toNat_lt
  have hd := d.toNat_lt
  simp only [ofLittleEndian, littleEndian, List.foldr, List.cons.injEq, and_true]
  refine ⟨?_, ?_, ?_, ?_⟩ <;> (apply UInt8.toNat_inj.mp; simp only [UInt8.toNat_ofNat']; omega)

/-- Four bytes stand for a number that has a place in them. -/
theorem ofLittleEndian_le (a b c d : UInt8) : ofLittleEndian [a, b, c, d] ≤ maxLength := by
  have ha := a.toNat_lt
  have hb := b.toNat_lt
  have hc := c.toNat_lt
  have hd := d.toNat_lt
  simp only [ofLittleEndian, maxLength, List.foldr]
  omega

/-! ## Values -/

namespace Value

/-- The bytes of a string with its tag and length. -/
def blob (s : String) : List UInt8 :=
  Kind.string.tag :: (littleEndian s.utf8ByteSize ++ Utf8.encode s)

/-- The bytes of a value with its tag. -/
def bytes : Value → List UInt8
  | word w => Kind.word.tag :: littleEndian w.toNat
  | string s => blob s
  | words ws =>
    Kind.words.tag :: (littleEndian ws.length ++ ws.flatMap fun w => littleEndian w.toNat)
  | strings ss => Kind.strings.tag :: (littleEndian ss.length ++ ss.flatMap blob)

/-- The lengths that the bytes of a value state, in order. -/
def lengths : Value → List Nat
  | word _ => []
  | string s => [s.utf8ByteSize]
  | words ws => [ws.length]
  | strings ss => ss.length :: ss.map String.utf8ByteSize

/-- A string takes up as many bytes as are counted for it. -/
@[simp] theorem length_blob (s : String) : (blob s).length = blobSize s := by
  simp [blob, blobSize]
  omega

/-- A value is written as many bytes as are counted for it. -/
theorem length_bytes (v : Value) : v.bytes.length = v.size := by
  cases v with
  | word w => rfl
  | string s => exact length_blob s
  | words ws =>
    have items : (ws.flatMap fun w => littleEndian w.toNat).length = 4 * ws.length := by
      induction ws with
      | nil => rfl
      | cons w ws ih => simp [ih]; omega
    simp [bytes, size, items]
    omega
  | strings ss =>
    have items : (ss.flatMap blob).length = sumOf blobSize ss :=
      length_flatMap_eq_sumOf length_blob ss
    simp [bytes, size, items]
    omega

end Value

/-! ## Messages -/

namespace Message

/-- The bytes of an entry. -/
def entryBytes (entry : String × Value) : List UInt8 :=
  Value.blob entry.1 ++ entry.2.bytes

/-- The bytes of a message, lengths cut to the four bytes that they have. -/
def bytes (m : Message) : List UInt8 :=
  Value.blob m.method ++ littleEndian m.entries.size ++ m.entries.entries.flatMap entryBytes

/-- The lengths that the bytes of a message state, in order. -/
def lengths (m : Message) : List Nat :=
  m.method.utf8ByteSize ::
    m.entries.entries.flatMap fun entry => entry.1.utf8ByteSize :: entry.2.lengths

/-- The bytes of a message; refused with the first length that four bytes cannot state. -/
def encode (m : Message) : Except MessageError (List UInt8) :=
  match m.lengths.find? (maxLength < ·) with
  | some length => .error (.blobTooLarge length)
  | none => .ok m.bytes

/-- An entry is written as many bytes as are counted for it. -/
theorem length_entryBytes (entry : String × Value) :
    (entryBytes entry).length = entrySize entry.1 entry.2 := by
  rw [entryBytes, List.length_append, Value.length_blob, Value.length_bytes, entrySize]

/-- Entries in a row are written as many bytes as are counted for all of them. -/
theorem length_flatMap_entryBytes (l : List (String × Value)) :
    (l.flatMap entryBytes).length = sumOf (fun entry => entrySize entry.1 entry.2) l :=
  length_flatMap_eq_sumOf length_entryBytes l

/-- **A message is written as many bytes as it keeps count of.** -/
theorem length_bytes (m : Message) : m.bytes.length = m.size := by
  rw [m.size_eq, bytes, List.length_append, List.length_append, length_flatMap_entryBytes,
    Value.length_blob]
  rfl

/-- A message within a limit is written within it. -/
theorem length_bytes_le {m : Message} {n : Nat} (le : m.size ≤ n) : m.bytes.length ≤ n := by
  rw [length_bytes]
  exact le

end Message

end KeyedRpc
