/-
# Why reading and writing fail

A stream hands on bytes until it ends or fails (`Source.Stops`), and these bytes and this stop are
all that a read of a frame depends on: `Frame.Parses` says what it comes to. What a write of a
frame comes to depends on what it meets on the stream (`Frame.Writes`). The style adds its words
for a stream that ends early or takes no more bytes.
-/
import KeyedRpc.Proofs.Stream.Endings

namespace KeyedRpc

/-! ## Words -/

/-- An outcome whose failure, where it has no words of its own, gets some. -/
def inWords {ε α : Type} (own : ε) (outcome : Except (Option ε) α) : Except ε α :=
  outcome.mapError (·.getD own)

/-- Words for failures do not matter to a result. -/
@[simp] theorem inWords_ok {ε α : Type} (own : ε) (a : α) : inWords own (.ok a) = .ok a := rfl

/-- A failure that has words of its own keeps them. -/
@[simp] theorem inWords_error {ε α : Type} (own : ε) (e : Option ε) :
    inWords own (.error e : Except (Option ε) α) = .error (e.getD own) := rfl

/-- Different words tell whether a failure had words of its own. -/
theorem eq_of_inWords {ε α : Type} {own own' : ε} {outcome outcome' : Except (Option ε) α}
    (ne : own ≠ own') (same : inWords own outcome = inWords own outcome')
    (same' : inWords own' outcome = inWords own' outcome') : outcome = outcome' := by
  rcases outcome with (_ | e) | a <;> rcases outcome' with (_ | e') | a' <;> simp_all

/-! ## Reading -/

namespace Source

/-- A stream hands on some bytes, and then it ends, or fails with a failure. An interruption on
the way may be passed over. -/
inductive Stops : Source → List UInt8 → Option StreamFault → Prop where
  | ended : Stops [] [] none
  | paused {rest : Source} : Stops (.chunk [] :: rest) [] none
  | failed {f : StreamFault} {rest : Source} : Stops (.fault f :: rest) [] (some f)
  | chunk {b : UInt8} {l bytes : List UInt8} {rest : Source} {stop : Option StreamFault}
      (others : Stops rest bytes stop) : Stops (.chunk (b :: l) :: rest) (b :: l ++ bytes) stop
  | resumed {f : StreamFault} {bytes : List UInt8} {rest : Source} {stop : Option StreamFault}
      (interruption : f.isInterruption = true) (others : Stops rest bytes stop) :
      Stops (.fault f :: rest) bytes stop

section

variable {style : StreamStyle} {source rest : Source} {bytes : List UInt8}
  {stop : Option StreamFault}

/-- A stream with the rest of a chunk put back stops where it does without it. -/
theorem Stops.of_leave {l : List UInt8} (h : (leave l rest).Stops bytes stop) :
    ∃ more, bytes = l ++ more ∧ rest.Stops more stop := by
  cases l with
  | nil => exact ⟨bytes, rfl, h⟩
  | cons b l =>
    cases h with
    | chunk others => exact ⟨_, rfl, others⟩

/-- What is left after a byte stops where the stream does. -/
theorem Stops.of_readByte {b : UInt8} (h : rest.Stops bytes stop)
    (read : source.readByte style = (.ok (some b), rest)) : source.Stops (b :: bytes) stop := by
  fun_induction readByte style source with
  | case1 | case2 | case5 => cases read
  | case3 b' l tail =>
    cases read
    obtain ⟨more, rfl, others⟩ := h.of_leave
    exact .chunk others
  | case4 tail f retry ih =>
    rw [Bool.and_eq_true] at retry
    exact .resumed retry.2 (ih read)

/-- What is left after bytes that are read stops where the stream does. -/
theorem Stops.of_readExact {n : Nat} {l : List UInt8} (h : rest.Stops bytes stop)
    (read : source.readExact style n = (.ok l, rest)) : source.Stops (l ++ bytes) stop := by
  fun_induction readExact style source n generalizing l
  case case1 source =>
    cases read
    exact h
  case case2 | case3 | case5 | case8 => cases read
  case case4 n b chunk tail taken short more rest' eq ih =>
    cases read
    have all : taken = b :: chunk := congrArg (b :: ·) (take_eq_of_short short)
    rw [all, List.append_assoc]
    exact .chunk (ih eq)
  case case6 n b chunk tail taken enough =>
    cases read
    obtain ⟨more, rfl, others⟩ := h.of_leave
    have whole : taken ++ (chunk.drop n ++ more) = b :: chunk ++ more := by
      rw [← List.append_assoc, List.cons_append, List.take_append_drop]
    rw [whole]
    exact .chunk others
  case case7 n f tail retry ih => exact .resumed retry (ih read)

/-- Every stream stops. -/
theorem exists_stops (source : Source) : ∃ bytes stop, source.Stops bytes stop := by
  induction source with
  | nil => exact ⟨_, _, .ended⟩
  | cons event tail ih =>
    obtain ⟨bytes, stop, stops⟩ := ih
    rcases event with (_ | ⟨b, l⟩) | f
    · exact ⟨_, _, .paused⟩
    · exact ⟨_, _, .chunk stops⟩
    · exact ⟨_, _, .failed⟩

/-- What a stream hands on before it stops comes first in its bytes. -/
theorem Stops.exists_bytes (h : source.Stops bytes stop) :
    ∃ more, source.bytes = bytes ++ more := by
  induction h with
  | ended => exact ⟨[], rfl⟩
  | paused | failed => exact ⟨_, rfl⟩
  | chunk others ih =>
    obtain ⟨more, eq⟩ := ih
    exact ⟨more, by rw [bytes_chunk, eq, List.append_assoc]⟩
  | resumed interruption others ih => exact ih

/-- There is no byte where the stream ends. -/
theorem stops_of_readByte_none (read : source.readByte style = (.ok none, rest)) :
    source.Stops [] none := by
  fun_induction readByte style source with
  | case1 => exact .ended
  | case2 => exact .paused
  | case3 | case5 => cases read
  | case4 tail f retry ih =>
    rw [Bool.and_eq_true] at retry
    exact .resumed retry.2 (ih read)

/-- A byte is not read where the stream fails. -/
theorem stops_of_readByte {f : StreamFault} (read : source.readByte style = (.error f, rest)) :
    source.Stops [] (some f) := by
  fun_induction readByte style source with
  | case1 | case2 | case3 => cases read
  | case4 tail f retry ih =>
    rw [Bool.and_eq_true] at retry
    exact .resumed retry.2 (ih read)
  | case5 tail f lasting =>
    cases read
    exact .failed

end

/-- Bytes are not read where the stream stops before there are enough. Styles differ only in the
words for its end. -/
theorem readExact_worded (source : Source) (n : Nat) :
    ∃ outcome rest, (∀ style, source.readExact style n = (inWords style.endFault outcome, rest)) ∧
      ∀ stop, outcome = .error stop → ∃ begun, begun.length < n ∧ source.Stops begun stop := by
  induction source generalizing n with
  | nil =>
    cases n with
    | zero => exact ⟨.ok [], [], fun _ => rfl, by simp⟩
    | succ n =>
      refine ⟨.error none, [], fun _ => rfl, ?_⟩
      rintro _ ⟨⟩
      exact ⟨[], Nat.succ_pos n, .ended⟩
  | cons event tail ih =>
    rcases n with _ | n
    · exact ⟨.ok [], event :: tail, fun _ => rfl, by simp⟩
    rcases event with (_ | ⟨b, chunk⟩) | f
    · refine ⟨.error none, tail, fun _ => rfl, ?_⟩
      rintro _ ⟨⟩
      exact ⟨[], Nat.succ_pos n, .paused⟩
    · by_cases short : (b :: chunk.take n).length < n + 1
      · -- The chunk is taken whole, and the read goes on for what it falls short of.
        obtain ⟨stop | more, rest, read, stops⟩ := ih (n + 1 - (b :: chunk.take n).length)
        · refine ⟨.error stop, rest, fun style => ?_, ?_⟩
          · rw [readExact, if_pos short, read style]
            rfl
          · rintro _ ⟨⟩
            obtain ⟨begun, fewer, stops⟩ := stops stop rfl
            refine ⟨b :: chunk ++ begun, ?_, .chunk stops⟩
            rw [take_eq_of_short short] at fewer
            rw [List.length_append]
            omega
        · refine ⟨.ok (b :: chunk.take n ++ more), rest, fun style => ?_, by simp⟩
          rw [readExact, if_pos short, read style]
          rfl
      · refine ⟨.ok (b :: chunk.take n), leave (chunk.drop n) tail, fun style => ?_, by simp⟩
        rw [readExact, if_neg short]
        rfl
    · by_cases retry : f.isInterruption = true
      · -- The read is tried again, for as many bytes as before.
        obtain ⟨outcome, rest, read, stops⟩ := ih (n + 1)
        refine ⟨outcome, rest, fun style => ?_, fun stop eq => ?_⟩
        · rw [readExact, if_pos retry, read style]
        · obtain ⟨begun, fewer, stops⟩ := stops stop eq
          exact ⟨begun, fewer, .resumed retry stops⟩
      · refine ⟨.error (some f), tail, fun style => ?_, ?_⟩
        · rw [readExact, if_neg retry]
          rfl
        · rintro _ ⟨⟩
          exact ⟨[], Nat.succ_pos n, .failed⟩

end Source

namespace Frame

/-- What a read of a frame with a body of at most `max` bytes comes to, by the bytes that are
there and by what stops the stream after them, and the bytes that it leaves. There are no words
for a stream that ends within a frame. -/
inductive Parses (max : Nat) : List UInt8 → Option StreamFault →
    Except (Option TransportError) (Option Frame) → List UInt8 → Prop where
  /-- The stream ends between frames. -/
  | ended : Parses max [] none (.ok none) []
  /-- The stream ends within the frame. -/
  | truncated {begun : List UInt8} (some : begun ≠ []) (begins : Begun max begun) :
      Parses max begun none (.error none) []
  /-- The stream fails before the frame is complete. -/
  | failed {begun : List UInt8} {f : StreamFault} (begins : Begun max begun) :
      Parses max begun (some f) (.error (some (.ofStreamFault f))) []
  /-- The first byte announces no kind of frame. -/
  | unknown {b : UInt8} {more : List UInt8} {stop : Option StreamFault}
      (none : FrameKind.ofCode? b = none) :
      Parses max (b :: more) stop (.error (some (FrameKind.unknown b))) more
  /-- The length is too large. -/
  | tooLarge {kind : FrameKind} {l more : List UInt8} {stop : Option StreamFault}
      (length : l.length = 4) (exceeds : max < ofLittleEndian l) :
      Parses max (kind.code :: (l ++ more)) stop
        (.error (some (.frameTooLarge (ofLittleEndian l) max))) more
  /-- A body of the announced length is there. -/
  | frame {kind : FrameKind} {l body tail : List UInt8} {stop : Option StreamFault}
      (length : l.length = 4) (within : ofLittleEndian l ≤ max)
      (whole : body.length = ofLittleEndian l) :
      Parses max (kind.code :: (l ++ (body ++ tail))) stop (.ok (some ⟨kind, body⟩)) tail

/-- A frame that is begun fails with what stops the stream. -/
theorem Parses.of_begun {max : Nat} {b : UInt8} {l : List UInt8} (begins : Begun max (b :: l))
    (stop : Option StreamFault) :
    Parses max (b :: l) stop (.error (stop.map .ofStreamFault)) [] := by
  cases stop with
  | none => exact .truncated (List.cons_ne_nil b l) begins
  | some f => exact .failed begins

/-- Styles in which the first byte is read alike read the frame alike, in their own words if the
stream ends within it. -/
theorem read_worded (style : StreamStyle) (max : Nat) (source : Source) :
    ∃ outcome rest,
      (∀ style' : StreamStyle, source.readByte style' = source.readByte style →
        Frame.read style' max source
          = (inWords (.ofStreamFault style'.endFault) outcome, rest)) ∧
      ∃ bytes stop left, source.Stops bytes stop ∧ Parses max bytes stop outcome left := by
  rcases readCode : source.readByte style with ⟨f | _ | code, afterCode⟩
  · refine ⟨.error (some (.ofStreamFault f)), afterCode, fun style' same => ?_, ?_⟩
    · rw [Frame.read, same]
      rfl
    · exact ⟨_, _, _, Source.stops_of_readByte readCode, .failed .nothing⟩
  · refine ⟨.ok none, afterCode, fun style' same => ?_, ?_⟩
    · rw [Frame.read, same]
      rfl
    · exact ⟨_, _, _, Source.stops_of_readByte_none readCode, .ended⟩
  rcases known : FrameKind.ofCode? code with _ | kind
  · obtain ⟨more, stop, stops⟩ := afterCode.exists_stops
    refine ⟨.error (some (FrameKind.unknown code)), afterCode, fun style' same => ?_, ?_⟩
    · simp only [Frame.read, same, known, inWords_error, Option.getD_some]
    · exact ⟨_, _, _, stops.of_readByte readCode, .unknown known⟩
  rw [FrameKind.ofCode?_eq_some_iff] at known
  subst known
  -- From here on the two styles differ in words only: first the length is read, then the body.
  obtain ⟨stop | l, afterLength, readLength, stopped⟩ := afterCode.readExact_worded 4
  · refine ⟨.error (stop.map .ofStreamFault), afterLength, fun style' same => ?_, ?_⟩
    · simp only [Frame.read, same, FrameKind.ofCode?_code, readLength, inWords_error,
        Option.getD_map]
    · obtain ⟨begun, short, stops⟩ := stopped stop rfl
      exact ⟨_, _, _, stops.of_readByte readCode, .of_begun (.length short) stop⟩
  obtain ⟨length, -⟩ := Source.bytes_readExact (readLength style)
  by_cases exceeds : max < ofLittleEndian l
  · obtain ⟨more, stop, stops⟩ := afterLength.exists_stops
    refine ⟨.error (some (.frameTooLarge (ofLittleEndian l) max)), afterLength,
      fun style' same => ?_, ?_⟩
    · simp only [Frame.read, same, FrameKind.ofCode?_code, readLength, inWords_ok, inWords_error,
        if_pos exceeds, Option.getD_some]
    · exact ⟨_, _, _, (stops.of_readExact (readLength style)).of_readByte readCode,
        .tooLarge length exceeds⟩
  have within : ofLittleEndian l ≤ max := Nat.not_lt.mp exceeds
  obtain ⟨stop | body, afterBody, readBody, stopped⟩ :=
    afterLength.readExact_worded (ofLittleEndian l)
  · refine ⟨.error (stop.map .ofStreamFault), afterBody, fun style' same => ?_, ?_⟩
    · simp only [Frame.read, same, FrameKind.ofCode?_code, readLength, readBody, inWords_ok,
        inWords_error, if_neg exceeds, Option.getD_map]
    · obtain ⟨begun, short, stops⟩ := stopped stop rfl
      exact ⟨_, _, _, (stops.of_readExact (readLength style)).of_readByte readCode,
        .of_begun (.body length within short) stop⟩
  · obtain ⟨tail, stop, stops⟩ := afterBody.exists_stops
    obtain ⟨whole, -⟩ := Source.bytes_readExact (readBody style)
    refine ⟨.ok (some ⟨kind, body⟩), afterBody, fun style' same => ?_, ?_⟩
    · simp only [Frame.read, same, FrameKind.ofCode?_code, readLength, readBody, inWords_ok,
        if_neg exceeds]
    · have stops := stops.of_readExact (readBody style)
      exact ⟨_, _, _, (stops.of_readExact (readLength style)).of_readByte readCode,
        .frame length within whole⟩

/-- Why a responder cannot read a frame: a byte announces no kind, the body is too large, or the
stream ends within the frame, or it fails before the frame is complete. -/
inductive Unreadable (max : Nat) (source : Source) : TransportError → Prop where
  | unknown {b : UInt8} {more : List UInt8} (bytes_eq : source.bytes = b :: more)
      (none : FrameKind.ofCode? b = none) : Unreadable max source (FrameKind.unknown b)
  | tooLarge {kind : FrameKind} {l more : List UInt8}
      (bytes_eq : source.bytes = kind.code :: (l ++ more)) (length : l.length = 4)
      (exceeds : max < ofLittleEndian l) :
      Unreadable max source (.frameTooLarge (ofLittleEndian l) max)
  | truncated {begun : List UInt8} (some : begun ≠ []) (begins : Begun max begun)
      (stops : source.Stops begun none) :
      Unreadable max source (.connectionLost "early eof")
  | failed {begun : List UInt8} {f : StreamFault} (begins : Begun max begun)
      (stops : source.Stops begun (some f)) : Unreadable max source (.ofStreamFault f)

/-- A frame that is not read is unreadable for one of these reasons. -/
theorem unreadable_of_read {max : Nat} {source rest : Source} {e : TransportError}
    (h : Frame.read .interleaved max source = (.error e, rest)) : Unreadable max source e := by
  obtain ⟨outcome, rest', read, bytes, stop, left, stops, parses⟩ :=
    read_worded .interleaved max source
  rw [read .interleaved rfl] at h
  obtain ⟨others, bytes_eq⟩ := stops.exists_bytes
  cases parses with
  | ended | frame => cases h
  | truncated some begins =>
    cases h
    exact .truncated some begins stops
  | failed begins =>
    cases h
    exact .failed begins stops
  | unknown none =>
    cases h
    exact .unknown bytes_eq none
  | tooLarge length exceeds =>
    cases h
    rw [List.cons_append, List.append_assoc] at bytes_eq
    exact .tooLarge bytes_eq length exceeds

end Frame

/-! ## Writing -/

namespace WriteEvent

/-- What a write stops with that meets an event, if it does not go on. There are no words for a
write that takes nothing. -/
def stop? : WriteEvent → Option (Option StreamFault)
  | .accept 0 => some none
  | .accept (_ + 1) => none
  | .fault f => if f.isInterruption then none else some (some f)

/-- One of some events stops a write. -/
def Stops (events : List WriteEvent) (stop : Option StreamFault) : Prop :=
  ∃ event ∈ events, event.stop? = some stop

@[simp] theorem stops_nil (stop : Option StreamFault) : ¬ Stops [] stop := by
  simp [Stops]

/-- One of some events stops a write if the first does or one of the others. -/
@[simp] theorem stops_cons_iff {event : WriteEvent} {events : List WriteEvent}
    {stop : Option StreamFault} :
    Stops (event :: events) stop ↔ event.stop? = some stop ∨ Stops events stop := by
  simp [Stops]

/-- One of the events in a row stops a write if one does of either part. -/
@[simp] theorem stops_append_iff {events events' : List WriteEvent} {stop : Option StreamFault} :
    Stops (events ++ events') stop ↔ Stops events stop ∨ Stops events' stop := by
  simp [Stops, or_and_right, exists_or]

/-- Bytes are not taken if and only if an event is met that stops the write. Styles differ only in
the words for a write that takes nothing. -/
theorem offer_worded (events : List WriteEvent) (bytes : List UInt8) :
    ∃ outcome taken met rest,
      (∀ style, offer style events bytes = (inWords style.stallFault outcome, taken, rest)) ∧
      events = met ++ rest ∧ ∀ stop, outcome = .error stop ↔ Stops met stop := by
  induction events generalizing bytes with
  | nil =>
    refine ⟨.ok (), bytes, [], [], fun style => ?_, rfl, by simp⟩
    cases bytes <;> rfl
  | cons event events ih =>
    rcases bytes with _ | ⟨b, bytes⟩
    · exact ⟨.ok (), [], [], event :: events, fun _ => rfl, rfl, by simp⟩
    rcases event with (_ | n) | f
    · exact ⟨.error none, [], [.accept 0], events, fun _ => rfl, rfl, by simp [stop?]⟩
    · obtain ⟨outcome, taken, met, rest, offered, events_eq, stops_iff⟩ := ih (bytes.drop n)
      refine ⟨outcome, b :: bytes.take n ++ taken, .accept (n + 1) :: met, rest, fun style => ?_,
        congrArg (.accept (n + 1) :: ·) events_eq, fun stop => ?_⟩
      · rw [offer, offered style]
      · rw [stops_iff, stops_cons_iff]
        simp [stop?]
    · by_cases retry : f.isInterruption = true
      · obtain ⟨outcome, taken, met, rest, offered, events_eq, stops_iff⟩ := ih (b :: bytes)
        refine ⟨outcome, taken, .fault f :: met, rest, fun style => ?_,
          congrArg (.fault f :: ·) events_eq, fun stop => ?_⟩
        · rw [offer_fault, if_pos retry, offered style]
        · rw [stops_iff, stops_cons_iff]
          simp [stop?, retry]
      · refine ⟨.error (some f), [], [.fault f], events, fun style => ?_, rfl, ?_⟩
        · rw [offer_fault, if_neg retry]
          rfl
        · simp [stop?, retry]

end WriteEvent

namespace Sink

/-- Bytes are not all written if and only if an event is met that stops a write. -/
theorem writeAll_worded (sink : Sink) (bytes : List UInt8) :
    ∃ outcome after met,
      (∀ style, sink.writeAll style bytes = (inWords style.stallFault outcome, after)) ∧
      sink.writes = met ++ after.writes ∧ sink.flushes = after.flushes ∧
      ∀ stop, outcome = .error stop ↔ WriteEvent.Stops met stop := by
  obtain ⟨outcome, taken, met, rest, offered, writes_eq, stops_iff⟩ :=
    WriteEvent.offer_worded sink.writes bytes
  refine ⟨outcome, ⟨rest, sink.flushes, sink.written ++ taken⟩, met, fun style => ?_, writes_eq,
    rfl, stops_iff⟩
  rw [writeAll, offered style]

/-- A flush fails if and only if it meets a failure. -/
theorem exists_flush (sink : Sink) :
    ∃ outcome after flushed, sink.flush = (outcome, after) ∧ sink.writes = after.writes ∧
      sink.flushes = flushed ++ after.flushes ∧ ∀ f, outcome = .error f ↔ some f ∈ flushed := by
  obtain ⟨writes, _ | ⟨_ | f, flushes⟩, written⟩ := sink
  · exact ⟨.ok (), _, [], rfl, rfl, rfl, by simp⟩
  · exact ⟨.ok (), _, [none], rfl, rfl, rfl, by simp⟩
  · exact ⟨.error f, _, [some f], rfl, rfl, rfl, by simp [eq_comm]⟩

end Sink

namespace Frame

/-- Why a frame is not written, by the events that its writes and its flush meet: its length has
no place in its header, a write stops, or the flush fails. -/
inductive Unwritten (f : Frame) (met : List WriteEvent) (flushed : List (Option StreamFault)) :
    Option TransportError → Prop where
  | tooLarge (exceeds : maxLength < f.body.length) :
      Unwritten f met flushed (some (.frameTooLarge f.body.length maxLength))
  | stopped {stop : Option StreamFault} (stops : WriteEvent.Stops met stop) :
      Unwritten f met flushed (stop.map .ofStreamFault)
  | unflushed {g : StreamFault} (mem : some g ∈ flushed) :
      Unwritten f met flushed (some (.ofStreamFault g))

/-- What a write of a frame comes to that meets some write events and some flush events. -/
structure Writes (f : Frame) (sink : Sink) (met : List WriteEvent)
    (flushed : List (Option StreamFault)) (outcome : Except (Option TransportError) Unit)
    (after : Sink) : Prop where
  writes_eq : sink.writes = met ++ after.writes
  flushes_eq : sink.flushes = flushed ++ after.flushes
  written_eq : outcome = .ok () → after.written = sink.written ++ f.bytes
  error_iff : ∀ why, outcome = .error why ↔ f.Unwritten met flushed why

section

variable {f : Frame} {sink after : Sink} {met : List WriteEvent}
  {flushed : List (Option StreamFault)}

/-- A frame with a body that is too long meets no events. -/
theorem Writes.of_exceeds (exceeds : maxLength < f.body.length) (sink : Sink) :
    f.Writes sink [] [] (.error (some (.frameTooLarge f.body.length maxLength))) sink := by
  refine ⟨rfl, rfl, by simp, fun why => ⟨?_, ?_⟩⟩
  · rintro ⟨⟩
    exact .tooLarge exceeds
  · rintro (_ | stops | mem)
    · rfl
    · simp at stops
    · simp at mem

/-- A write that is stopped is that of the frame. -/
theorem Writes.of_stop {stop : Option StreamFault} (fits : ¬ maxLength < f.body.length)
    (writes_eq : sink.writes = met ++ after.writes) (flushes_eq : sink.flushes = after.flushes)
    (stops_iff : ∀ stop', (Except.error stop : Except _ Unit) = .error stop' ↔
      WriteEvent.Stops met stop') :
    f.Writes sink met [] (.error (stop.map .ofStreamFault)) after := by
  refine ⟨writes_eq, flushes_eq, by simp, fun why => ⟨?_, ?_⟩⟩
  · rintro ⟨⟩
    exact .stopped ((stops_iff stop).mp rfl)
  · rintro (exceeds | stops | mem)
    · exact absurd exceeds fits
    · cases (stops_iff _).mpr stops
      rfl
    · simp at mem

/-- A frame whose bytes are written ends as its flush does. -/
theorem Writes.of_flush {outcome : Except StreamFault Unit} (fits : ¬ maxLength < f.body.length)
    (writes_eq : sink.writes = met ++ after.writes)
    (flushes_eq : sink.flushes = flushed ++ after.flushes)
    (written_eq : outcome = .ok () → after.written = sink.written ++ f.bytes)
    (passed : ∀ stop, ¬ WriteEvent.Stops met stop)
    (flush_iff : ∀ g, outcome = .error g ↔ some g ∈ flushed) :
    f.Writes sink met flushed (outcome.mapError fun g => some (.ofStreamFault g)) after := by
  refine ⟨writes_eq, flushes_eq, ?_, fun why => ⟨?_, ?_⟩⟩
  · intro ok
    rcases outcome with g | _
    · cases ok
    · exact written_eq rfl
  · intro failed
    rcases outcome with g | _
    · cases failed
      exact .unflushed ((flush_iff g).mp rfl)
    · cases failed
  · rintro (exceeds | stops | mem)
    · exact absurd exceeds fits
    · exact absurd stops (passed _)
    · rw [(flush_iff _).mpr mem]
      rfl

end

/-- Styles write a frame alike, in their own words if a write takes nothing. -/
theorem write_worded (f : Frame) (sink : Sink) :
    ∃ outcome after met flushed,
      (∀ style, f.write style sink = (inWords (.ofStreamFault style.stallFault) outcome, after)) ∧
      f.Writes sink met flushed outcome after := by
  by_cases exceeds : maxLength < f.body.length
  · refine ⟨_, _, _, _, fun style => ?_, .of_exceeds exceeds sink⟩
    rw [write, if_pos exceeds]
    rfl
  obtain ⟨stop | _, afterHeader, met, writeHeader, writes_eq, flushes_eq, header_iff⟩ :=
    sink.writeAll_worded f.header
  · refine ⟨_, _, _, _, fun style => ?_, .of_stop exceeds writes_eq flushes_eq header_iff⟩
    simp only [write, if_neg exceeds, writeHeader, inWords_error, Option.getD_map]
  obtain ⟨bodied, afterBody, met', writeBody, writes_eq', flushes_eq', body_iff⟩ :=
    afterHeader.writeAll_worded f.body
  -- The header was written whole, so that only the writes of the body may meet what stops them.
  have stops_iff : ∀ stop, bodied = .error stop ↔ WriteEvent.Stops (met ++ met') stop := by
    intro stop
    rw [WriteEvent.stops_append_iff, ← header_iff, ← body_iff]
    simp
  rw [writes_eq', ← List.append_assoc] at writes_eq
  rw [flushes_eq'] at flushes_eq
  rcases bodied with stop | _
  · refine ⟨_, _, _, _, fun style => ?_, .of_stop exceeds writes_eq flushes_eq stops_iff⟩
    simp only [write, if_neg exceeds, writeHeader, writeBody, inWords_ok, inWords_error,
      Option.getD_map]
  obtain ⟨ended, afterFlush, flushed, flush, writes_eq'', flushes_eq'', flush_iff⟩ :=
    afterBody.exists_flush
  rw [writes_eq''] at writes_eq
  rw [flushes_eq''] at flushes_eq
  have all : ∀ style, f.write style sink = (ended.mapError .ofStreamFault, afterFlush) := by
    intro style
    simp only [write, if_neg exceeds, writeHeader, writeBody, flush, inWords_ok]
    cases ended <;> rfl
  refine ⟨_, _, _, _, fun style => ?_, .of_flush exceeds writes_eq flushes_eq ?_ ?_ flush_iff⟩
  · rw [all]
    cases ended <;> rfl
  · rintro rfl
    exact written_write (all .blocking)
  · intro stop stops
    cases (stops_iff stop).mpr stops

end Frame

/-- What is in store for writing and may fail it: a failure of a write or of a flush, or a write
that takes nothing. -/
inductive Sink.Fails (style : StreamStyle) (sink : Sink) : StreamFault → Prop where
  | write {f : StreamFault} (mem : .fault f ∈ sink.writes) : Fails style sink f
  | stall (mem : .accept 0 ∈ sink.writes) : Fails style sink style.stallFault
  | flush {f : StreamFault} (mem : some f ∈ sink.flushes) : Fails style sink f

/-- A frame is not written if its length has no place in its header, or if the stream fails. -/
theorem Frame.failed_of_write {style : StreamStyle} {sink sink' : Sink} {g : Frame}
    {e : TransportError} (h : g.write style sink = (.error e, sink')) :
    (maxLength < g.body.length ∧ e = .frameTooLarge g.body.length maxLength) ∨
      ∃ f, sink.Fails style f ∧ e = .ofStreamFault f := by
  obtain ⟨why | _, after, met, flushed, write, writes_eq, flushes_eq, -, error_iff⟩ :=
    g.write_worded sink
  · rw [write style] at h
    cases h
    rcases (error_iff why).mp rfl with exceeds | ⟨event, mem, stop_eq⟩ | mem
    · exact Or.inl ⟨exceeds, rfl⟩
    · have mem : event ∈ sink.writes := writes_eq ▸ List.mem_append_left _ mem
      rcases event with (_ | n) | f
      · cases stop_eq
        exact Or.inr ⟨_, .stall mem, rfl⟩
      · cases stop_eq
      · rw [WriteEvent.stop?] at stop_eq
        by_cases retry : f.isInterruption = true
        · rw [if_pos retry] at stop_eq
          cases stop_eq
        · rw [if_neg retry] at stop_eq
          cases stop_eq
          exact Or.inr ⟨_, .write mem, rfl⟩
    · exact Or.inr ⟨_, .flush (flushes_eq ▸ List.mem_append_left _ mem), rfl⟩
  · rw [write style] at h
    cases h

end KeyedRpc
