/-
# How the frames of a stream end

After its last complete frame a stream has ended, or it goes on with something that no frame
can come of: a byte that announces no kind, a length that is too large, or a part of a frame
after which it ends or fails. The next read says which of these it is (`Frame.read_of_ends`),
whatever the chunks are that the bytes come in.
-/
import KeyedRpc.Proofs.Stream.Frames

namespace KeyedRpc

/-! ## Streams that fall short -/

/-- A chunk of a stream with too few bytes is taken whole, and the rest has too few as well. -/
theorem Source.chunk_short {b : UInt8} {l : List UInt8} {tail : Source} {n : Nat}
    (short : (bytes (.chunk (b :: l) :: tail)).length < n) :
    ∃ k, n = k + 1 ∧ (b :: l.take k).length < k + 1 ∧
      (bytes tail).length < k + 1 - (b :: l.take k).length := by
  rw [bytes_chunk, List.length_append, List.length_cons] at short
  obtain ⟨k, rfl⟩ : ∃ k, n = k + 1 := ⟨n - 1, by omega⟩
  have whole : l.take k = l := List.take_of_length_le (by omega)
  refine ⟨k, rfl, ?_⟩
  rw [whole, List.length_cons]
  exact ⟨by omega, by omega⟩

/-- More bytes than a stream has are not read, if what comes after it ends or fails. -/
theorem Source.readExact_short {style : StreamStyle} {source next rest : Source} {f : StreamFault}
    {n : Nat} (steady : source.Steady) (short : source.bytes.length < n)
    (fails : ∀ n, 0 < n → next.readExact style n = (.error f, rest)) :
    (source ++ next).readExact style n = (.error f, rest) := by
  induction source generalizing n with
  | nil => exact fails n short
  | cons event tail ih =>
    obtain ⟨⟨b, l, rfl⟩, steadyTail⟩ := steady_cons_iff.mp steady
    obtain ⟨k, rfl, some, left⟩ := chunk_short short
    rw [List.cons_append, readExact, if_pos some, ih steadyTail left]

/-- An interruption does not show while a stream has too few bytes: the read goes on after it. -/
theorem Source.readExact_interrupted (style : StreamStyle) {source : Source} {f : StreamFault}
    {n : Nat} (steady : source.Steady) (short : source.bytes.length < n)
    (interruption : f.isInterruption = true) (next : Source) :
    (source ++ .fault f :: next).readExact style n = (source ++ next).readExact style n := by
  induction source generalizing n with
  | nil =>
    obtain ⟨k, rfl⟩ : ∃ k, n = k + 1 := ⟨n - 1, (Nat.succ_pred_eq_of_pos short).symm⟩
    rw [List.nil_append, List.nil_append, readExact, if_pos interruption]
  | cons event tail ih =>
    obtain ⟨⟨b, l, rfl⟩, steadyTail⟩ := steady_cons_iff.mp steady
    obtain ⟨k, rfl, some, left⟩ := chunk_short short
    rw [List.cons_append, List.cons_append, readExact, readExact, if_pos some, if_pos some,
      ih steadyTail left]

namespace Frame

/-! ## Ends -/

/-- The first bytes of a frame that has more: its kind and a part of its length, or its kind,
its length and a part of its body. No bytes at all count as well. -/
inductive Begun (max : Nat) : List UInt8 → Prop where
  | nothing : Begun max []
  | length {kind : FrameKind} {l : List UInt8} (short : l.length < 4) : Begun max (kind.code :: l)
  | body {kind : FrameKind} {l body : List UInt8} (length : l.length = 4)
      (within : ofLittleEndian l ≤ max) (short : body.length < ofLittleEndian l) :
      Begun max (kind.code :: (l ++ body))

/-- How the frames of a stream end, by the bytes after the last that is complete and what comes
after these bytes. -/
inductive Ends (max : Nat) : List UInt8 → Source → Except TransportError Unit → Prop where
  /-- The stream ends between frames. -/
  | clean : Ends max [] [] (.ok ())
  /-- A byte announces no kind of frame. -/
  | unknown {b : UInt8} {more : List UInt8} {next : Source} (none : FrameKind.ofCode? b = none) :
      Ends max (b :: more) next (.error (FrameKind.unknown b))
  /-- A frame announces a body that is too large. -/
  | tooLarge {kind : FrameKind} {l more : List UInt8} {next : Source} (length : l.length = 4)
      (exceeds : max < ofLittleEndian l) :
      Ends max (kind.code :: (l ++ more)) next (.error (.frameTooLarge (ofLittleEndian l) max))
  /-- The stream ends within a frame. -/
  | truncated {begun : List UInt8} (some : begun ≠ []) (begins : Begun max begun) :
      Ends max begun [] (.error (.connectionLost "early eof"))
  /-- The stream fails. An interruption within a frame is no failure: the read goes on. -/
  | failed {begun : List UInt8} {f : StreamFault} {more : Source} (begins : Begun max begun)
      (fails : begun = [] ∨ f.isInterruption = false) :
      Ends max begun (.fault f :: more) (.error (.ofStreamFault f))

/-- A part of a frame is not read, if what comes after it ends or fails. -/
theorem read_of_begun {style : StreamStyle} {max : Nat} {source next rest : Source}
    {f : StreamFault} (steady : source.Steady) (begins : Begun max source.bytes)
    (some : source.bytes ≠ [])
    (fails : ∀ n, 0 < n → next.readExact style n = (.error f, rest)) :
    Frame.read style max (source ++ next) = (.error (.ofStreamFault f), rest) := by
  rcases eq : source.bytes with _ | ⟨code, tail⟩
  · exact absurd eq some
  · obtain ⟨afterCode, readCode, steady, tail_eq⟩ := Source.readByte_steady style steady eq
    rw [eq] at begins
    unfold read
    rw [Source.readByte_append readCode]
    dsimp only
    rcases begins with _ | short | @⟨kind, l, body, length, within, short⟩
    · -- The stream falls short of the four bytes of the length.
      rw [FrameKind.ofCode?_code]
      dsimp only
      have left : afterCode.bytes.length < 4 := by
        rw [tail_eq]
        exact short
      rw [Source.readExact_short steady left fails]
    · rw [FrameKind.ofCode?_code]
      dsimp only
      obtain ⟨afterLength, readLength, steady, body_eq⟩ :=
        Source.readExact_steady style steady tail_eq
      rw [length] at readLength
      have left : afterLength.bytes.length < ofLittleEndian l := by
        rw [body_eq]
        exact short
      rw [Source.readExact_append next readLength]
      dsimp only
      rw [if_neg (Nat.not_lt.mpr within), Source.readExact_short steady left fails]

/-- An interruption within a frame does not show. -/
theorem read_of_interrupted (style : StreamStyle) {max : Nat} {source : Source} {f : StreamFault}
    (steady : source.Steady) (begins : Begun max source.bytes) (some : source.bytes ≠ [])
    (interruption : f.isInterruption = true) (next : Source) :
    Frame.read style max (source ++ .fault f :: next) = Frame.read style max (source ++ next) := by
  rcases eq : source.bytes with _ | ⟨code, tail⟩
  · exact absurd eq some
  · obtain ⟨afterCode, readCode, steady, tail_eq⟩ := Source.readByte_steady style steady eq
    rw [eq] at begins
    unfold read
    rw [Source.readByte_append readCode, Source.readByte_append readCode]
    dsimp only
    rcases begins with _ | short | @⟨kind, l, body, length, within, short⟩
    · -- The four bytes of the length are not there yet.
      rw [← tail_eq] at short
      rw [FrameKind.ofCode?_code]
      dsimp only
      rw [Source.readExact_interrupted style steady short interruption]
    · rw [FrameKind.ofCode?_code]
      dsimp only
      obtain ⟨afterLength, readLength, steady, body_eq⟩ :=
        Source.readExact_steady style steady tail_eq
      rw [length] at readLength
      rw [← body_eq] at short
      rw [Source.readExact_append _ readLength, Source.readExact_append _ readLength]
      dsimp only
      rw [if_neg (Nat.not_lt.mpr within), if_neg (Nat.not_lt.mpr within),
        Source.readExact_interrupted style steady short interruption]

/-- A byte that announces no kind of frame is taken, and nothing else is. -/
theorem read_of_unknown (style : StreamStyle) (max : Nat) {source : Source} {b : UInt8}
    {more : List UInt8} (steady : source.Steady) (bytes_eq : source.bytes = b :: more)
    (none : FrameKind.ofCode? b = none) :
    ∃ rest, rest.Steady ∧ rest.bytes = more ∧ ∀ next,
      Frame.read style max (source ++ next) = (.error (FrameKind.unknown b), rest ++ next) := by
  obtain ⟨afterCode, readCode, steady, more_eq⟩ := Source.readByte_steady style steady bytes_eq
  refine ⟨afterCode, steady, more_eq, fun next => ?_⟩
  unfold read
  rw [Source.readByte_append readCode]
  dsimp only
  rw [none]

/-- A length that is too large is taken with the kind before it, and nothing else is. -/
theorem read_of_tooLarge (style : StreamStyle) {max : Nat} {source : Source} {kind : FrameKind}
    {l more : List UInt8} (steady : source.Steady)
    (bytes_eq : source.bytes = kind.code :: (l ++ more)) (length : l.length = 4)
    (exceeds : max < ofLittleEndian l) :
    ∃ rest, rest.Steady ∧ rest.bytes = more ∧ ∀ next, Frame.read style max (source ++ next)
      = (.error (.frameTooLarge (ofLittleEndian l) max), rest ++ next) := by
  obtain ⟨afterCode, readCode, steady, bytes_eq⟩ := Source.readByte_steady style steady bytes_eq
  obtain ⟨afterLength, readLength, steady, more_eq⟩ :=
    Source.readExact_steady style steady bytes_eq
  rw [length] at readLength
  refine ⟨afterLength, steady, more_eq, fun next => ?_⟩
  unfold read
  rw [Source.readByte_append readCode]
  dsimp only
  rw [FrameKind.ofCode?_code]
  dsimp only
  rw [Source.readExact_append next readLength]
  dsimp only
  rw [if_pos exceeds]

/-- The stream ends within a frame. -/
theorem read_of_truncated (style : StreamStyle) {max : Nat} {source : Source}
    (steady : source.Steady) (begins : Begun max source.bytes) (some : source.bytes ≠ []) :
    Frame.read style max source = (.error (.connectionLost style.endText), []) := by
  have fails : ∀ n, 0 < n → Source.readExact style [] n = (.error style.endFault, []) := by
    intro n positive
    obtain ⟨n, rfl⟩ : ∃ k, n = k + 1 := ⟨n - 1, by omega⟩
    rfl
  have read := read_of_begun steady begins some fails
  rw [List.append_nil] at read
  exact read

/-- **After the last complete frame, the next read says how the stream ends.** -/
theorem read_of_ends {max : Nat} {source next : Source} {ending : Except TransportError Unit}
    (steady : source.Steady) (ends : Ends max source.bytes next ending) :
    ∃ rest, Frame.read .interleaved max (source ++ next)
      = (ending.map fun _ => none, rest) := by
  generalize eq : source.bytes = begun at ends
  rcases ends with _ | none | ⟨length, exceeds⟩ | ⟨some, begins⟩ | @⟨_, f, more, begins, fails⟩
  · rw [Source.eq_nil_of_steady steady eq]
    exact ⟨[], rfl⟩
  · obtain ⟨rest, -, -, read⟩ := read_of_unknown .interleaved max steady eq none
    exact ⟨rest ++ next, read next⟩
  · obtain ⟨rest, -, -, read⟩ := read_of_tooLarge .interleaved steady eq length exceeds
    exact ⟨rest ++ next, read next⟩
  · subst eq
    refine ⟨[], ?_⟩
    rw [List.append_nil]
    exact read_of_truncated .interleaved steady begins some
  · subst eq
    refine ⟨more, ?_⟩
    by_cases empty : source.bytes = []
    · -- Nothing of a frame is there: the first byte meets the failure.
      rw [Source.eq_nil_of_steady steady empty]
      rfl
    · have lasting : f.isInterruption = false := fails.resolve_left empty
      apply read_of_begun steady begins empty
      intro n positive
      obtain ⟨n, rfl⟩ : ∃ k, n = k + 1 := ⟨n - 1, by omega⟩
      rw [Source.readExact, lasting]
      rfl

end Frame

end KeyedRpc
