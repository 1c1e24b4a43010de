/-
# Frames

A frame is a kind, the length of its body in four bytes, and the body. A stream may end
between frames; within a frame that is a failure.
-/
import KeyedRpc.Message.Decoding
import KeyedRpc.Stream.Basic

namespace KeyedRpc

open Numeral (hexadecimal)

/-! ## Kinds of frames -/

/-- What a frame is for. -/
inductive FrameKind where
  | call
  | load
  | reply
  | refused
  deriving DecidableEq, Repr

namespace FrameKind

/-- The byte that announces a kind of frame. -/
def code : FrameKind → UInt8
  | call => 0x01
  | load => 0x02
  | reply => 0x81
  | refused => 0x82

/-- The kind of frame that a byte announces. -/
def ofCode? (byte : UInt8) : Option FrameKind :=
  if byte = 0x01 then some call
  else if byte = 0x02 then some load
  else if byte = 0x81 then some reply
  else if byte = 0x82 then some refused
  else none

/-- The name of a kind of frame, as it appears in messages to people. -/
def name : FrameKind → String
  | call => "Call"
  | load => "Load"
  | reply => "Reply"
  | refused => "Refused"

/-- The byte of a kind of frame announces it. -/
@[simp] theorem ofCode?_code (k : FrameKind) : ofCode? k.code = some k := by
  cases k <;> rfl

/-- A byte announces a kind of frame if and only if it is the byte of that kind. -/
theorem ofCode?_eq_some_iff {byte : UInt8} {k : FrameKind} :
    ofCode? byte = some k ↔ byte = k.code := by
  constructor
  · intro h
    unfold ofCode? at h
    repeat' split at h
    all_goals cases h
    all_goals assumption
  · intro h
    rw [h, ofCode?_code]

/-- The refusal of a byte that announces no kind of frame. -/
def unknown (byte : UInt8) : TransportError :=
  .refused ("unknown frame kind " ++ hexadecimal 2 byte.toNat)

end FrameKind

/-! ## Frames and their bytes -/

/-- A kind of frame with a body. -/
structure Frame where
  kind : FrameKind
  body : List UInt8
  deriving DecidableEq, Repr

namespace Frame

/-- The bytes before the body of a frame. -/
def header (f : Frame) : List UInt8 :=
  f.kind.code :: littleEndian f.body.length

/-- The bytes of a frame. -/
def bytes (f : Frame) : List UInt8 :=
  f.header ++ f.body

/-- Writes a frame and flushes it; a body whose length has no place in the header is not
begun. The blocking and the interleaved function of the program take the same steps in the same
order, so one definition stands for both, and the style for what they are made of. -/
def write (style : StreamStyle) (f : Frame) (sink : Sink) : Except TransportError Unit × Sink :=
  if maxLength < f.body.length then
    (.error (.frameTooLarge f.body.length maxLength), sink)
  else
    match sink.writeAll style f.header with
    | (.error e, sink) => (.error (.ofStreamFault e), sink)
    | (.ok (), sink) =>
      match sink.writeAll style f.body with
      | (.error e, sink) => (.error (.ofStreamFault e), sink)
      | (.ok (), sink) =>
        match sink.flush with
        | (.error e, sink) => (.error (.ofStreamFault e), sink)
        | (.ok (), sink) => (.ok (), sink)

/-- Reads a frame whose body has at most `max` bytes, unless the stream has ended. The blocking
and the interleaved function of the program were compared step by step: they differ only in that
the first tries an interrupted read of the first byte again, which is left to the style. -/
def read (style : StreamStyle) (max : Nat) (source : Source) :
    Except TransportError (Option Frame) × Source :=
  match source.readByte style with
  | (.error e, rest) => (.error (.ofStreamFault e), rest)
  | (.ok none, rest) => (.ok none, rest)
  | (.ok (some code), rest) =>
    match FrameKind.ofCode? code with
    | none => (.error (FrameKind.unknown code), rest)
    | some kind =>
      match rest.readExact style 4 with
      | (.error e, rest) => (.error (.ofStreamFault e), rest)
      | (.ok bytes, rest) =>
        let length := ofLittleEndian bytes
        if max < length then (.error (.frameTooLarge length max), rest)
        else
          match rest.readExact style length with
          | (.error e, rest) => (.error (.ofStreamFault e), rest)
          | (.ok body, rest) => (.ok (some ⟨kind, body⟩), rest)

/-- A frame is read if the byte that announces its kind, a length that is not too large and
a body of that length come one after another. -/
theorem read_eq_ok_iff {style : StreamStyle} {max : Nat} {source rest : Source} {f : Frame} :
    read style max source = (.ok (some f), rest) ↔
      ∃ afterCode l afterLength, source.readByte style = (.ok (some f.kind.code), afterCode) ∧
        afterCode.readExact style 4 = (.ok l, afterLength) ∧ ofLittleEndian l ≤ max ∧
        afterLength.readExact style (ofLittleEndian l) = (.ok f.body, rest) := by
  unfold read
  constructor
  · intro h
    -- Every branch but the last ends in a failure, or at the end of the stream.
    rcases readCode : source.readByte style with ⟨e | _ | code, afterCode⟩
    · simp [readCode] at h
    · simp [readCode] at h
    rcases known : FrameKind.ofCode? code with _ | kind
    · simp [readCode, known] at h
    rcases readLength : afterCode.readExact style 4 with ⟨e | l, afterLength⟩
    · simp [readCode, known, readLength] at h
    by_cases exceeds : max < ofLittleEndian l
    · simp [readCode, known, readLength, exceeds] at h
    rcases readBody : afterLength.readExact style (ofLittleEndian l) with ⟨e | body, afterBody⟩
    · simp [readCode, known, readLength, exceeds, readBody] at h
    · simp only [readCode, known, readLength, exceeds, readBody] at h
      cases h
      rw [FrameKind.ofCode?_eq_some_iff] at known
      subst known
      exact ⟨afterCode, l, afterLength, rfl, readLength, Nat.not_lt.mp exceeds, readBody⟩
  · rintro ⟨afterCode, l, afterLength, readCode, readLength, within, readBody⟩
    simp only [readCode, FrameKind.ofCode?_code, readLength, readBody,
      if_neg (Nat.not_lt.mpr within)]

end Frame

/-! ## Reading makes headway -/

namespace Source

/-- What is left to read: each event counts for one, and each byte of a chunk. -/
def remaining (source : Source) : Nat :=
  sumOf (fun
    | .chunk bytes => bytes.length + 1
    | .fault _ => 1) source

/-- What is left of a chunk counts no more than it did before. -/
theorem remaining_leave_le (bytes : List UInt8) (rest : Source) :
    (leave bytes rest).remaining ≤ bytes.length + 1 + rest.remaining := by
  unfold leave
  split <;> simp [remaining]

/-- A byte that is read is left no more. -/
theorem remaining_readByte_lt {style : StreamStyle} {source rest : Source} {b : UInt8}
    (h : source.readByte style = (.ok (some b), rest)) : rest.remaining < source.remaining := by
  fun_induction readByte style source with
  | case1 => simp at h
  | case2 => simp at h
  | case3 b bytes rest =>
    obtain ⟨-, rfl⟩ := Prod.mk.inj h
    have := remaining_leave_le bytes rest
    simp only [remaining, sumOf_cons, List.length_cons] at this ⊢
    omega
  | case4 rest' f hf ih =>
    have := ih h
    simp only [remaining, sumOf_cons] at this ⊢
    omega
  | case5 => simp at h

/-- Nothing is added to what is left when bytes are read. -/
theorem remaining_readExact_le (style : StreamStyle) (source : Source) (n : Nat) :
    (source.readExact style n).2.remaining ≤ source.remaining := by
  fun_induction readExact style source n with
  | case1 => exact Nat.le_refl _
  | case2 => exact Nat.le_refl _
  | case3 => simp [remaining]
  | case4 n b bytes rest taken short more rest' eq ih =>
    rw [eq] at ih
    simp only [remaining, sumOf_cons] at ih ⊢
    omega
  | case5 n b bytes rest taken short f rest' eq ih =>
    rw [eq] at ih
    simp only [remaining, sumOf_cons] at ih ⊢
    omega
  | case6 n b bytes rest taken long =>
    have := remaining_leave_le (bytes.drop n) rest
    simp only [remaining, sumOf_cons, List.length_drop, List.length_cons]
      at this ⊢
    omega
  | case7 n f rest retry ih =>
    simp only [remaining, sumOf_cons] at ih ⊢
    omega
  | case8 n f rest =>
    simp [remaining]

end Source

/-- A frame takes up something of the stream that it is read from. -/
theorem Frame.remaining_read_lt {style : StreamStyle} {max : Nat} {source rest : Source}
    {f : Frame} (h : Frame.read style max source = (.ok (some f), rest)) :
    rest.remaining < source.remaining := by
  obtain ⟨afterCode, l, afterLength, readCode, readLength, -, readBody⟩ :=
    Frame.read_eq_ok_iff.mp h
  have first : afterCode.remaining < source.remaining := Source.remaining_readByte_lt readCode
  have second := Source.remaining_readExact_le style afterCode 4
  have third := Source.remaining_readExact_le style afterLength (ofLittleEndian l)
  rw [readLength] at second
  rw [readBody] at third
  exact Nat.lt_of_le_of_lt (Nat.le_trans third second) first

end KeyedRpc
