/-
# Which errors can be refused with

A refusal repeats what its error says, so an error can be too long for one. It has a frame
exactly if the refusal keeps within the default limit (`Refusal.frame_eq_error_iff`). What a
responder says when it leaves a stream is short, unless the stream itself reports a failure
with a text that is too long (`Refusal.room_of_text`). An error with a kind of its own is read
off its frame again, with all its details, and any other arrives as a plain refusal with its
text (`Refusal.meaning_kept`).
-/
import KeyedRpc.Proofs.Message.Histories
import KeyedRpc.Proofs.Stream.Carriage
import KeyedRpc.Proofs.Text.Lengths

namespace KeyedRpc

namespace Refusal

open Numeral (decimal)

/-! ## Sizes -/

/-- The number of bytes of the refusal of an error. -/
def size (e : TransportError) : Nat :=
  headerSize "" + entrySize kindKey (.string (describe e).1)
    + entrySize detailKey (.strings (describe e).2)

/-- The kind of an error has room in its refusal. -/
theorem kind_has_room (e : TransportError) :
    headerSize "" + entrySize kindKey (.string (describe e).1) ≤ defaultLimit := by
  cases e <;> (dsimp only [describe]; decide)

/-- What is left to do for a refusal, once it holds the kind of the error. -/
theorem exists_base (e : TransportError) :
    ∃ base : Message, message e = base.set detailKey (.strings (describe e).2) ∧
      base.needed detailKey (.strings (describe e).2) = size e ∧ base.limit = defaultLimit := by
  have needed : (Message.empty "").needed kindKey (.string (describe e).1)
      = headerSize "" + entrySize kindKey (.string (describe e).1) :=
    Message.needed_of_absent rfl _
  obtain ⟨base, set⟩ : ∃ base, (Message.empty "").set kindKey (.string (describe e).1) = .ok base :=
    Message.exists_set (Nat.le_trans (Nat.le_of_eq needed) (kind_has_room e))
  have absent : base.contains detailKey = false := by
    have other : detailKey ≠ kindKey := by decide
    have none := Message.get?_set set detailKey
    rw [if_neg other] at none
    rw [Message.contains, KeyMap.contains]
    exact congrArg Option.isSome none
  refine ⟨base, ?_, ?_, ?_⟩
  · unfold message
    dsimp only
    rw [Message.setAll_cons, set]
    show (base.setAll [(detailKey, .strings (describe e).2)]) = _
    rw [Message.setAll_cons]
    cases base.set detailKey (.strings (describe e).2) <;> rfl
  · rw [Message.needed_of_absent absent, Message.size_set set, needed]
    rfl
  · exact (Message.set_eq_ok_iff.mp set).2.2.2

/-- The frame of a refusal that keeps within the default limit. -/
theorem frame_of_room {e : TransportError} (room : size e ≤ defaultLimit) :
    ∃ m, message e = .ok m ∧ frame e = .ok ⟨.refused, m.bytes⟩ := by
  obtain ⟨base, message_eq, needed, limit⟩ := exists_base e
  rw [← needed, ← limit] at room
  obtain ⟨m, set⟩ := Message.exists_set room
  rw [set] at message_eq
  have encoded : (Except.ok m >>= Message.encode) = .ok m.bytes :=
    Message.encode_of_size_le (size_le_of_message message_eq)
  refine ⟨m, message_eq, ?_⟩
  rw [frame, message_eq, encoded]

/-- A refusal that is too long has none. -/
theorem frame_of_full {e : TransportError} (full : defaultLimit < size e) :
    frame e = .error (.codec (.bufferTooSmall (size e) defaultLimit)) := by
  obtain ⟨base, message_eq, needed, limit⟩ := exists_base e
  rw [← needed, ← limit] at full
  rw [Message.set_eq_error_iff.mpr ⟨full, rfl⟩, needed, limit] at message_eq
  rw [frame, message_eq]
  rfl

/-- An error has no frame if and only if its refusal is too long, and is then replaced by the
error that says so. -/
theorem frame_eq_error_iff {e e' : TransportError} :
    frame e = .error e' ↔
      defaultLimit < size e ∧ e' = .codec (.bufferTooSmall (size e) defaultLimit) := by
  by_cases room : size e ≤ defaultLimit
  · obtain ⟨m, -, framed⟩ := frame_of_room room
    rw [framed]
    constructor
    · intro h
      cases h
    · rintro ⟨full, -⟩
      omega
  · have full : defaultLimit < size e := by omega
    rw [frame_of_full full, Except.error.injEq, eq_comm]
    exact ⟨fun same => ⟨full, same⟩, fun refused => refused.2⟩

/-- The frame of an error is a refusal that fits, with the bytes of the message of the error. -/
theorem spec_frame {e : TransportError} {g : Frame} (h : frame e = .ok g) :
    size e ≤ defaultLimit ∧ g.kind = .refused ∧ g.body.length ≤ maxLength := by
  have room : size e ≤ defaultLimit := by
    rcases Nat.lt_or_ge defaultLimit (size e) with full | room
    · rw [frame_of_full full] at h
      cases h
    · exact room
  obtain ⟨m, made, framed⟩ := frame_of_room room
  rw [framed] at h
  cases h
  exact ⟨room, rfl, Message.length_bytes_le (size_le_of_message made)⟩

/-! ## Errors of a stream -/

/-- An error without a kind of its own is refused with its text. -/
theorem size_of_text {e : TransportError} (plain : describe e = ("refused", [e.text])) :
    size e = e.text.utf8ByteSize + 51 := by
  unfold size
  rw [plain]
  have others : headerSize "" + entrySize kindKey (.string "refused") = 30 := by decide
  show headerSize "" + entrySize kindKey (.string "refused")
    + ((5 + 6) + (5 + ((5 + e.text.utf8ByteSize) + 0))) = e.text.utf8ByteSize + 51
  omega

/-- A byte that announces no kind of frame can be refused with. -/
theorem room_of_unknown (b : UInt8) : size (FrameKind.unknown b) ≤ defaultLimit := by
  have text : (FrameKind.unknown b).text.utf8ByteSize ≤ 52 := by
    have few : (Nat.toDigits 16 b.toNat).length ≤ 2 :=
      (Nat.length_toDigits_le_iff (by decide) (by decide)).mpr b.toNat_lt
    have digits := Numeral.utf8ByteSize_hexadecimal_le (Nat.le_refl 2) few
    show ("Refused by peer: " ++ ("unknown frame kind " ++ _)).utf8ByteSize ≤ 52
    rw [String.utf8ByteSize_append, String.utf8ByteSize_append]
    show 17 + (19 + _) ≤ 52
    omega
  have plain : size (FrameKind.unknown b) = (FrameKind.unknown b).text.utf8ByteSize + 51 :=
    size_of_text rfl
  unfold defaultLimit
  omega

/-- A length that stands in four bytes can be refused with. -/
theorem room_of_tooLarge {length max : Nat} (le : length ≤ maxLength) (exceeds : max < length) :
    size (.frameTooLarge length max) ≤ defaultLimit := by
  have few : maxLength < 10 ^ 10 := by decide
  have first : (Numeral.decimal length).utf8ByteSize ≤ 10 :=
    Numeral.utf8ByteSize_decimal_le (by decide) (by omega)
  have second : (Numeral.decimal max).utf8ByteSize ≤ 10 :=
    Numeral.utf8ByteSize_decimal_le (by decide) (by omega)
  show headerSize "" + entrySize kindKey (.string "frame-too-large")
    + ((5 + 6) + (5 + ((5 + (Numeral.decimal length).utf8ByteSize)
      + ((5 + (Numeral.decimal max).utf8ByteSize) + 0)))) ≤ defaultLimit
  have others : headerSize "" + entrySize kindKey (.string "frame-too-large") = 38 := by decide
  unfold defaultLimit
  omega

/-- A failure of a stream can be refused with, unless its text is about as long as the
limit. -/
theorem room_of_text {f : StreamFault} (short : f.text.utf8ByteSize + 68 ≤ defaultLimit) :
    size (.ofStreamFault f) ≤ defaultLimit := by
  have text : (TransportError.ofStreamFault f).text.utf8ByteSize ≤ 17 + f.text.utf8ByteSize := by
    unfold TransportError.ofStreamFault
    split
    all_goals
      show (_ ++ f.text).utf8ByteSize ≤ _
      rw [String.utf8ByteSize_append]
      apply Nat.add_le_add_right
      decide
  have plain : describe (.ofStreamFault f)
      = ("refused", [(TransportError.ofStreamFault f).text]) := by
    unfold TransportError.ofStreamFault
    split
    all_goals rfl
  rw [size_of_text plain]
  omega

/-! ## What arrives -/

/-- The lengths in an error can be lengths of something: they are not above `maxNumber`. -/
def Numbered : TransportError → Prop
  | .frameTooLarge length max => length ≤ maxNumber ∧ max ≤ maxNumber
  | _ => True

/-- What an error arrives as: errors with a kind of their own as what they are, and all others
as a plain refusal with their text. -/
def arrived : TransportError → TransportError
  | .unknownModule module => .unknownModule module
  | .versionMismatch module expected found => .versionMismatch module expected found
  | .moduleNotLoaded module => .moduleNotLoaded module
  | .unknownMethod tag => .unknownMethod tag
  | .frameTooLarge length max => .frameTooLarge length max
  | e => .refused e.text

/-- The bytes that the refusal of an error is to have, whether or not there are too many. -/
def spelled (e : TransportError) : List UInt8 :=
  Message.spelling "" [(detailKey, .strings (describe e).2), (kindKey, .string (describe e).1)]

/-- A refusal is as long as the sizes of its parts say. -/
theorem length_spelled (e : TransportError) : (spelled e).length = size e := by
  rw [spelled, Message.length_spelling, size, sumOf_cons, sumOf_cons, sumOf_nil]
  dsimp only
  omega

/-- A length is read back from its digits. -/
theorem number_decimal {n : Nat} (le : n ≤ maxNumber) : number (decimal n) = n := by
  rw [number, Numeral.readDecimal?_decimal]
  exact if_pos le

/-- What is restored from the details of an error is what it arrives as. -/
theorem restore_describe_eq_arrived {e : TransportError} (numbered : Numbered e) :
    restore (describe e).1 (describe e).2 = arrived e := by
  cases e with
  | frameTooLarge length max =>
    show TransportError.frameTooLarge (number (decimal length)) (number (decimal max)) = _
    rw [number_decimal numbered.1, number_decimal numbered.2]
    rfl
  | _ => rfl

/-- A refusal that can be made has the bytes that it is to have. -/
theorem bytes_of_message {e : TransportError} {m : Message} (made : message e = .ok m) :
    m.bytes = spelled e := by
  obtain ⟨n, setKind, setDetail⟩ := sets_of_message made
  obtain ⟨-, method, entries, -⟩ := Message.set_eq_ok_iff.mp setDetail
  obtain ⟨-, method', entries', -⟩ := Message.set_eq_ok_iff.mp setKind
  rw [Message.bytes_eq_spelling, method, entries, entries', method']
  -- The detail stands before the kind, in the order of the keys.
  rfl

/-- **A refusal keeps the meaning of its error.** If an error has a frame, what is read off it is
the error itself where that has a kind of its own, and a plain refusal with its text where it
has not. An error is without a frame only if the refusal would be above the default limit. -/
theorem meaning_kept (e : TransportError) :
    (Numbered e → ∀ g, frame e = .ok g → g = ⟨.refused, spelled e⟩ ∧
      read g.body = .ok (arrived e)) ∧
    ∀ e', frame e = .error e' ↔ defaultLimit < (spelled e).length ∧
      e' = .codec (.bufferTooSmall (spelled e).length defaultLimit) := by
  rw [length_spelled]
  refine ⟨fun numbered g framed => ?_, fun e' => frame_eq_error_iff⟩
  obtain ⟨m, made, framed'⟩ := frame_of_room (spec_frame framed).1
  rw [framed'] at framed
  cases framed
  refine ⟨?_, ?_⟩
  · rw [bytes_of_message made]
  · rw [read_bytes made, restore_describe_eq_arrived numbered]

/-- Three details that look alike keep their places, the largest length is read back, and what
has no kind of its own arrives as its text. -/
theorem meaning_kept_each_kind :
    read (spelled (.versionMismatch "" "'" "")) = .ok (.versionMismatch "" "'" "") ∧
    read (spelled (.frameTooLarge maxNumber 0)) = .ok (.frameTooLarge maxNumber 0) ∧
    read (spelled (.codec .unexpectedEnd))
      = .ok (.refused "Codec error: corrupt RPC message: unexpected end of buffer") := by
  have mismatch := (meaning_kept (.versionMismatch "" "'" "")).1 trivial _ rfl
  have tooLarge := (meaning_kept (.frameTooLarge maxNumber 0)).1
    ⟨Nat.le_refl _, Nat.zero_le _⟩ _ rfl
  have codec := (meaning_kept (.codec .unexpectedEnd)).1 trivial _ rfl
  exact ⟨mismatch.2, tooLarge.2, codec.2⟩

end Refusal

end KeyedRpc
