/-
# Frames in any parts and any style

A stream takes the bytes of a frame in whatever parts it likes, and hands them on in whatever
chunks it likes. What a read of a frame comes to is told by the bytes alone, and so is what is
left of them. So a frame is read as it was written (`Frame.read_in_any_parts`). On a stream
without interruptions the style of reading and writing makes no difference but to the words for
a stream that ends early or takes no more bytes (`Frame.differ_in_words`).
-/
import KeyedRpc.Proofs.Stream.Failures

namespace KeyedRpc

/-! ## Writing in parts -/

/-- A stream accepts what is written if each write takes at least a byte and each flush goes
well. -/
structure Sink.Accepting (sink : Sink) : Prop where
  writes : ∀ event ∈ sink.writes, ∃ n, event = .accept (n + 1)
  flushes : ∀ event ∈ sink.flushes, event = none

/-- A stream that accepts what is written has no failure in store. -/
theorem Sink.Accepting.not_fails {sink : Sink} (accepting : sink.Accepting) (style : StreamStyle)
    (f : StreamFault) : ¬ sink.Fails style f := by
  rintro (mem | mem | mem)
  · obtain ⟨n, eq⟩ := accepting.writes _ mem
    cases eq
  · obtain ⟨n, eq⟩ := accepting.writes _ mem
    cases eq
  · cases accepting.flushes _ mem

namespace Frame

/-- A sink that accepts bytes takes a whole frame, in as many writes as it needs. -/
theorem write_accepting (style : StreamStyle) {f : Frame} {sink : Sink}
    (accepting : sink.Accepting) (le : f.body.length ≤ maxLength) :
    ∃ sink', f.write style sink = (.ok (), sink') ∧ sink'.written = sink.written ++ f.bytes := by
  rcases eq : f.write style sink with ⟨e | _, sink'⟩
  · rcases failed_of_write eq with ⟨exceeds, -⟩ | ⟨fault, fails, -⟩
    · exact absurd le (Nat.not_le.mpr exceeds)
    · exact absurd fails (accepting.not_fails style fault)
  · exact ⟨sink', rfl, written_write eq⟩

/-! ## Reading in chunks -/

theorem exists_append_of_le {n : Nat} {bytes : List UInt8} (le : n ≤ bytes.length) :
    ∃ l more, l.length = n ∧ bytes = l ++ more :=
  ⟨bytes.take n, bytes.drop n, List.length_take_of_le le, (List.take_append_drop n bytes).symm⟩

/-- All bytes come to something, when the stream ends after them. -/
theorem exists_parses (max : Nat) (bytes : List UInt8) :
    ∃ outcome left, Parses max bytes none outcome left := by
  rcases bytes with _ | ⟨b, tail⟩
  · exact ⟨_, _, .ended⟩
  rcases known : FrameKind.ofCode? b with _ | kind
  · exact ⟨_, _, .unknown known⟩
  rw [FrameKind.ofCode?_eq_some_iff] at known
  subst known
  by_cases short : tail.length < 4
  · exact ⟨_, _, .of_begun (.length short) none⟩
  -- Four bytes of length are there.
  obtain ⟨l, more, length, rfl⟩ := exists_append_of_le (Nat.not_lt.mp short)
  by_cases exceeds : max < ofLittleEndian l
  · exact ⟨_, _, .tooLarge length exceeds⟩
  have within : ofLittleEndian l ≤ max := Nat.not_lt.mp exceeds
  by_cases short : more.length < ofLittleEndian l
  · exact ⟨_, _, .of_begun (.body length within short) none⟩
  obtain ⟨body, tail, whole, rfl⟩ := exists_append_of_le (Nat.not_lt.mp short)
  exact ⟨_, _, .frame length within whole⟩

/-- The length of a frame and its body are the bytes of the frame. -/
theorem bytes_eq_of_length {kind : FrameKind} {l body : List UInt8} (length : l.length = 4)
    (whole : body.length = ofLittleEndian l) :
    (Frame.mk kind body).bytes = kind.code :: (l ++ body) := by
  rw [bytes, header, whole, (ofLittleEndian_of_length length).1, List.cons_append]

/-- A read comes to what the bytes come to, whatever the chunks. -/
theorem read_of_parses (style : StreamStyle) {max : Nat} {source : Source}
    {outcome : Except (Option TransportError) (Option Frame)} {left : List UInt8}
    (steady : source.Steady) (parses : Parses max source.bytes none outcome left) :
    ∃ rest, Frame.read style max source = (inWords (.connectionLost style.endText) outcome, rest) ∧
      rest.Steady ∧ rest.bytes = left := by
  generalize bytes_eq : source.bytes = bytes at parses
  cases parses with
  | ended =>
    rw [Source.eq_nil_of_steady steady bytes_eq]
    exact ⟨[], rfl, List.forall_mem_nil _, rfl⟩
  | truncated some begins =>
    subst bytes_eq
    exact ⟨[], read_of_truncated style steady begins some, List.forall_mem_nil _, rfl⟩
  | unknown none =>
    obtain ⟨rest, restSteady, left_eq, read⟩ := read_of_unknown style max steady bytes_eq none
    exact ⟨rest, by simpa using read [], restSteady, left_eq⟩
  | tooLarge length exceeds =>
    obtain ⟨rest, restSteady, left_eq, read⟩ :=
      read_of_tooLarge style steady bytes_eq length exceeds
    exact ⟨rest, by simpa using read [], restSteady, left_eq⟩
  | frame length within whole =>
    apply read_steady style steady
    · rw [bytes_eq, bytes_eq_of_length length whole, List.cons_append, List.append_assoc]
    · exact whole ▸ within
    · exact whole ▸ (ofLittleEndian_of_length length).2

/-- Bytes come to one thing only: styles with different words for an end would tell two apart. -/
theorem parses_unique {max : Nat} {source : Source}
    {outcome outcome' : Except (Option TransportError) (Option Frame)} {left left' : List UInt8}
    (steady : source.Steady) (parses : Parses max source.bytes none outcome left)
    (parses' : Parses max source.bytes none outcome' left') :
    outcome' = outcome ∧ left' = left := by
  have alike : ∀ style : StreamStyle,
      inWords (.connectionLost style.endText) outcome'
        = inWords (.connectionLost style.endText) outcome ∧ left' = left := by
    intro style
    obtain ⟨rest, read, -, left_eq⟩ := read_of_parses style steady parses
    obtain ⟨rest', read', -, left_eq'⟩ := read_of_parses style steady parses'
    obtain ⟨same, rfl⟩ := Prod.mk.inj (read'.symm.trans read)
    exact ⟨same, left_eq'.symm.trans left_eq⟩
  refine ⟨eq_of_inWords ?_ (alike .blocking).1 (alike .interleaved).1, (alike .blocking).2⟩
  simp [StreamStyle.blocking, StreamStyle.interleaved]

/-- **A frame is read as it was written, in whatever parts it is taken and in whatever chunks it
arrives**, with what follows it left; and any bytes at all come to what `Parses` says of them,
whatever the chunks. -/
theorem read_in_any_parts (writer reader : StreamStyle) (max : Nat) :
    (∀ (f : Frame) (sink : Sink), f.body.length ≤ max → f.body.length ≤ maxLength →
      sink.Accepting → ∃ sink', f.write writer sink = (.ok (), sink') ∧
        sink'.written = sink.written ++ f.bytes ∧
        ∀ (source : Source) (tail : List UInt8), source.Steady → source.bytes = f.bytes ++ tail →
          ∃ rest, Frame.read reader max source = (.ok (some f), rest) ∧ rest.Steady ∧
            rest.bytes = tail) ∧
    ∀ source : Source, source.Steady →
      ∃ outcome rest,
        Frame.read reader max source = (inWords (.connectionLost reader.endText) outcome, rest) ∧
        rest.Steady ∧ ∀ outcome' left,
          Parses max source.bytes none outcome' left ↔ outcome' = outcome ∧ left = rest.bytes := by
  constructor
  · intro f sink within le accepting
    obtain ⟨sink', write, written⟩ := write_accepting writer accepting le
    refine ⟨sink', write, written, fun source tail steady bytes_eq => ?_⟩
    exact read_steady reader steady bytes_eq within le
  · intro source steady
    obtain ⟨outcome, left, parses⟩ := exists_parses max source.bytes
    obtain ⟨rest, read, restSteady, rfl⟩ := read_of_parses reader steady parses
    refine ⟨outcome, rest, read, restSteady, fun outcome' left => ⟨fun other => ?_, ?_⟩⟩
    · exact parses_unique steady parses other
    · rintro ⟨rfl, rfl⟩
      exact parses

/-- A frame in pieces is read with a byte after it left, and with a smaller limit its body is
left as well. -/
theorem read_in_any_parts_pieces :
    (∃ sink' rest,
      (Frame.mk .call [7, 8]).write .interleaved ⟨[.accept 1, .accept 3, .accept 2], [none], []⟩
        = (.ok (), sink') ∧ sink'.written = [1, 2, 0, 0, 0, 7, 8] ∧
      Frame.read .blocking 16 [.chunk [1], .chunk [2, 0], .chunk [0, 0, 7, 8, 9]]
        = (.ok (some ⟨.call, [7, 8]⟩), rest) ∧ rest.bytes = [9]) ∧
    ∃ rest, Frame.read .blocking 1 [.chunk [1], .chunk [2, 0], .chunk [0, 0, 7, 8, 9]]
      = (.error (.frameTooLarge 2 1), rest) ∧ rest.bytes = [7, 8, 9] := by
  have steady : Source.Steady [.chunk [1], .chunk [2, 0], .chunk [0, 0, 7, 8, 9]] := by
    simp [Source.Steady]
  have accepting : Sink.Accepting ⟨[.accept 1, .accept 3, .accept 2], [none], []⟩ :=
    ⟨by simp, by simp⟩
  constructor
  · obtain ⟨sink', write, written, reads⟩ := (read_in_any_parts .interleaved .blocking 16).1
      ⟨.call, [7, 8]⟩ _ (by decide) (by decide) accepting
    obtain ⟨rest, read, -, left⟩ := reads _ [9] steady rfl
    exact ⟨sink', rest, write, written, read, left⟩
  · obtain ⟨outcome, rest, read, -, parses_iff⟩ :=
      (read_in_any_parts .interleaved .blocking 1).2 _ steady
    have large : Parses 1 (FrameKind.call.code :: ([2, 0, 0, 0] ++ [7, 8, 9])) none
        (.error (some (.frameTooLarge (ofLittleEndian [2, 0, 0, 0]) 1))) [7, 8, 9] :=
      .tooLarge rfl (by decide)
    obtain ⟨rfl, left⟩ := (parses_iff _ _).mp large
    exact ⟨rest, read, left.symm⟩

end Frame

/-! ## Two styles on one stream -/

/-- A stream is uninterrupted if none of its failures is an interruption. -/
def Source.Uninterrupted (source : Source) : Prop :=
  ∀ f, .fault f ∈ source → f.isInterruption = false

/-- Only an interruption makes a difference to the read of a byte. -/
theorem Source.readByte_uninterrupted {source : Source} (uninterrupted : source.Uninterrupted)
    (style style' : StreamStyle) : source.readByte style = source.readByte style' := by
  rcases source with _ | ⟨(_ | ⟨b, chunk⟩) | f, rest⟩
  · rfl
  · rfl
  · rfl
  · have lasting : f.isInterruption = false := uninterrupted f List.mem_cons_self
    simp only [readByte, lasting, Bool.and_false]
    rfl

namespace Frame

/-- **On an uninterrupted stream all styles read the same frame, or meet the same end or error,
and leave the same; and all write the same bytes of a frame, with the same result.** Only the
words for a stream that ends within a frame, or for a write that takes nothing, are those of the
style. -/
theorem differ_in_words (max : Nat) {source : Source} (uninterrupted : source.Uninterrupted)
    (f : Frame) (sink : Sink) :
    (∃ outcome rest,
      (∀ style, Frame.read style max source
        = (inWords (.connectionLost style.endText) outcome, rest)) ∧
      ∃ bytes stop left, source.Stops bytes stop ∧ Parses max bytes stop outcome left) ∧
    ∃ outcome after met flushed,
      (∀ style, f.write style sink = (inWords (.io style.stallText) outcome, after)) ∧
      f.Writes sink met flushed outcome after := by
  obtain ⟨outcome, rest, read, parsed⟩ := read_worded .blocking max source
  refine ⟨⟨outcome, rest, fun style => ?_, parsed⟩, write_worded f sink⟩
  exact read style (Source.readByte_uninterrupted uninterrupted style .blocking)

/-- A stream that pauses within a frame, and one that takes no more bytes. -/
theorem differ_in_words_cut :
    (∃ rest, rest = [.chunk [9]] ∧
      Frame.read .blocking 16 [.chunk [1, 2], .chunk [], .chunk [9]]
        = (.error (.connectionLost "failed to fill whole buffer"), rest) ∧
      Frame.read .interleaved 16 [.chunk [1, 2], .chunk [], .chunk [9]]
        = (.error (.connectionLost "early eof"), rest)) ∧
    ∃ after : Sink, after.written = [1, 1, 0] ∧
      (Frame.mk .call [7]).write .blocking ⟨[.accept 3, .accept 0], [], []⟩
        = (.error (.io "failed to write whole buffer"), after) ∧
      (Frame.mk .call [7]).write .interleaved ⟨[.accept 3, .accept 0], [], []⟩
        = (.error (.io "write zero"), after) := by
  have uninterrupted : Source.Uninterrupted [.chunk [1, 2], .chunk [], .chunk [9]] := by
    simp [Source.Uninterrupted]
  obtain ⟨⟨outcome, rest, read, -⟩, outcome', after, -, -, write, -⟩ :=
    differ_in_words 16 uninterrupted ⟨.call, [7]⟩ ⟨[.accept 3, .accept 0], [], []⟩
  constructor
  · obtain ⟨-, rfl⟩ := Prod.mk.inj (read .blocking)
    exact ⟨_, rfl, rfl, rfl⟩
  · obtain ⟨-, rfl⟩ := Prod.mk.inj (write .blocking)
    exact ⟨_, rfl, rfl, rfl⟩

end Frame

end KeyedRpc
