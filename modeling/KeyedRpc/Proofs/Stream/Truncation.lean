/-
# Faults cut off what a responder writes

A stream may take the answers of a responder by parts, and may fail while it takes them. Up to
its first failure the responder does what it does on a stream that never fails. Then it leaves:
it dispatches nothing more, it writes nothing more, and it reports that failure, unless it was
on its way out already and was telling the peer why (`Service.faults_truncate`). An
interruption of a write is none of these failures, since the write is tried again
(`Service.serve_after_interruption`); an interruption of a flush is one.
-/
import KeyedRpc.Proofs.Stream.Delivery
import KeyedRpc.Proofs.Stream.Omissions

namespace KeyedRpc

variable {σ : Type}

/-! ## Up to the first failure -/

namespace Sink

/-- What happens at a writing end: bytes are taken, interrupted writes are tried again, and
flushes succeed. It is over with the first failure, if there is one. -/
inductive Meets (style : StreamStyle) : Sink → Except StreamFault Unit → Sink → Prop where
  | done {sink : Sink} : Meets style sink (.ok ()) sink
  | takes {n : Nat} {writes : List WriteEvent} {flushes : List (Option StreamFault)}
      {written part : List UInt8} {result : Except StreamFault Unit} {sink : Sink}
      (le : part.length ≤ n + 1)
      (others : Meets style ⟨writes, flushes, written ++ part⟩ result sink) :
      Meets style ⟨.accept (n + 1) :: writes, flushes, written⟩ result sink
  /-- After the last event, everything is taken. -/
  | takesAll {flushes : List (Option StreamFault)} {written part : List UInt8}
      {result : Except StreamFault Unit} {sink : Sink}
      (others : Meets style ⟨[], flushes, written ++ part⟩ result sink) :
      Meets style ⟨[], flushes, written⟩ result sink
  | interrupted {f : StreamFault} {writes : List WriteEvent}
      {flushes : List (Option StreamFault)} {written : List UInt8}
      {result : Except StreamFault Unit} {sink : Sink} (interruption : f.isInterruption = true)
      (others : Meets style ⟨writes, flushes, written⟩ result sink) :
      Meets style ⟨.fault f :: writes, flushes, written⟩ result sink
  | flushed {writes : List WriteEvent} {flushes : List (Option StreamFault)}
      {written : List UInt8} {result : Except StreamFault Unit} {sink : Sink}
      (others : Meets style ⟨writes, flushes, written⟩ result sink) :
      Meets style ⟨writes, none :: flushes, written⟩ result sink
  | stalls {writes : List WriteEvent} {flushes : List (Option StreamFault)}
      {written : List UInt8} : Meets style ⟨.accept 0 :: writes, flushes, written⟩
        (.error style.stallFault) ⟨writes, flushes, written⟩
  | fails {f : StreamFault} {writes : List WriteEvent} {flushes : List (Option StreamFault)}
      {written : List UInt8} (lasting : f.isInterruption = false) :
      Meets style ⟨.fault f :: writes, flushes, written⟩ (.error f) ⟨writes, flushes, written⟩
  | unflushed {f : StreamFault} {writes : List WriteEvent} {flushes : List (Option StreamFault)}
      {written : List UInt8} :
      Meets style ⟨writes, some f :: flushes, written⟩ (.error f) ⟨writes, flushes, written⟩

variable {style : StreamStyle} {sink between after : Sink} {result : Except StreamFault Unit}

theorem Meets.trans (first : sink.Meets style (.ok ()) between)
    (second : between.Meets style result after) : sink.Meets style result after := by
  generalize passed : Except.ok () = met at first
  induction first with
  | done => exact second
  | takes le _ ih => exact .takes le (ih second passed)
  | takesAll _ ih => exact .takesAll (ih second passed)
  | interrupted interruption _ ih => exact .interrupted interruption (ih second passed)
  | flushed _ ih => exact .flushed (ih second passed)
  | stalls | fails | unflushed => cases passed

/-- Bytes that are offered meet what the sink does with them. -/
theorem meets_offer {events rest : List WriteEvent} {bytes taken : List UInt8}
    (h : WriteEvent.offer style events bytes = (result, taken, rest))
    (flushes : List (Option StreamFault)) (written : List UInt8) :
    Meets style ⟨events, flushes, written⟩ result ⟨rest, flushes, written ++ taken⟩ := by
  fun_induction WriteEvent.offer style events bytes generalizing taken rest written with
  | case1 events =>
    cases h
    rw [List.append_nil]
    exact .done
  | case2 bytes nonempty =>
    cases h
    exact .takesAll .done
  | case3 =>
    cases h
    rw [List.append_nil]
    exact .stalls
  | case4 b bytes n events result taken' rest' offered ih =>
    cases h
    have le : (b :: bytes.take n).length ≤ n + 1 := by
      rw [List.length_cons, List.length_take]
      omega
    rw [← List.append_assoc]
    exact .takes le (ih offered _)
  | case5 bytes f events nonempty retry ih => exact .interrupted retry (ih h written)
  | case6 bytes f events nonempty retry =>
    cases h
    rw [List.append_nil]
    exact .fails (Bool.eq_false_iff.mpr retry)

/-- Writing bytes meets a failure of the sink, or none. -/
theorem meets_writeAll {bytes : List UInt8} (h : sink.writeAll style bytes = (result, after)) :
    sink.Meets style result after := by
  unfold writeAll at h
  cases h
  exact meets_offer rfl sink.flushes sink.written

/-- Flushing meets a failure of the sink, or none. -/
theorem meets_flush (h : sink.flush = (result, after)) : sink.Meets style result after := by
  obtain ⟨writes, _ | ⟨_ | f, flushes⟩, written⟩ := sink
  · cases h
    exact .done
  · cases h
    exact .flushed .done
  · cases h
    exact .unflushed

end Sink

namespace Frame

variable {style : StreamStyle} {f : Frame} {sink : Sink}

/-- Writing a frame meets a failure of the sink, or none. -/
theorem meets_write {after : Sink} {result : Except TransportError Unit}
    (le : f.body.length ≤ maxLength) (h : f.write style sink = (result, after)) :
    ∃ met, sink.Meets style met after ∧ result = met.mapError .ofStreamFault := by
  rcases parts_of_write le h with ⟨e, header, rfl⟩ | ⟨begun, header, ⟨e, body, rfl⟩ |
    ⟨whole, flushed, body, flush, rfl⟩⟩
  · exact ⟨.error e, Sink.meets_writeAll header, rfl⟩
  · have meets := (Sink.meets_writeAll header).trans (Sink.meets_writeAll body)
    exact ⟨.error e, meets, rfl⟩
  · have meets := (Sink.meets_writeAll header).trans (Sink.meets_writeAll body)
    exact ⟨flushed, meets.trans (Sink.meets_flush flush), rfl⟩

/-- **A frame is written whole, or up to the first failure of the stream**, which is then what
the write fails with. -/
theorem write_cases (style : StreamStyle) (le : f.body.length ≤ maxLength) (sink : Sink) :
    (∃ after, f.write style sink = (.ok (), after) ∧ sink.Meets style (.ok ()) after ∧
      after.written = sink.written ++ f.bytes) ∨
    ∃ fault after part, f.write style sink = (.error (.ofStreamFault fault), after) ∧
      sink.Meets style (.error fault) after ∧ part <+: f.bytes ∧
      after.written = sink.written ++ part := by
  rcases write : f.write style sink with ⟨result, after⟩
  obtain ⟨fault | _, meets, rfl⟩ := meets_write le write
  · obtain ⟨part, first, written, -⟩ := exists_write write
    exact Or.inr ⟨fault, after, part, rfl, meets, first, written⟩
  · exact Or.inl ⟨after, rfl, meets, written_write write⟩

end Frame

/-! ## Without failures -/

namespace Service

/-- A responder takes turns off a stream. Each answer has a place in a frame, but nothing is
said of whether it can be written. -/
inductive Takes (r : Registry σ) (max : Nat) :
    Source → Responder σ → List (Turn σ) → Source → Responder σ → Prop where
  | nil {source : Source} {c : Responder σ} : Takes r max source c [] source c
  | cons {source rest rest' : Source} {c c' c'' : Responder σ} {f g : Frame}
      {turns : List (Turn σ)} (read : Frame.read .interleaved max source = (.ok (some f), rest))
      (answered : Responder.answer r f c = (.ok (.ok g), c')) (le : g.body.length ≤ maxLength)
      (others : Takes r max rest c' turns rest' c'') :
      Takes r max source c (⟨c, f, g⟩ :: turns) rest' c''

/-- A responder comes to an end where it can take no turn: what it tells the peer then, how
serving ends, and what is left. -/
inductive Finishes (r : Registry σ) (max : Nat) (source : Source) (c : Responder σ) :
    List Frame → Except Abort (Except TransportError Unit) → Source → Responder σ → Prop where
  | closed {rest : Source} (read : Frame.read .interleaved max source = (.ok none, rest)) :
      Finishes r max source c [] (.ok (.ok ())) rest c
  | unreadable {rest : Source} {e : TransportError}
      (read : Frame.read .interleaved max source = (.error e, rest)) :
      Finishes r max source c (parting (.error e)) (.ok (.error e)) rest c
  | stopped {rest : Source} {c' : Responder σ} {f : Frame} {abort : Abort}
      (read : Frame.read .interleaved max source = (.ok (some f), rest))
      (answered : Responder.answer r f c = (.error abort, c')) :
      Finishes r max source c [] (.error abort) rest c'
  | unrefused {rest : Source} {c' : Responder σ} {f : Frame} {e : TransportError}
      (read : Frame.read .interleaved max source = (.ok (some f), rest))
      (answered : Responder.answer r f c = (.ok (.error e), c')) :
      Finishes r max source c [] (.ok (.error e)) rest c'
  | unframed {rest : Source} {c' : Responder σ} {f g : Frame}
      (read : Frame.read .interleaved max source = (.ok (some f), rest))
      (answered : Responder.answer r f c = (.ok (.ok g), c'))
      (exceeds : maxLength < g.body.length) :
      Finishes r max source c [] (.ok (.error (.frameTooLarge g.body.length maxLength))) rest c'

/-- What a responder does on a stream: the turns that it takes, the frames that it leaves with,
how serving ends, and what is left. -/
structure Course (σ : Type) where
  turns : List (Turn σ)
  parting : List Frame
  result : Except Abort (Except TransportError Unit)
  rest : Source
  responder : Responder σ

namespace Course

/-- The course of a responder on a stream: it takes the turns and then comes to the end. -/
def Runs (r : Registry σ) (max : Nat) (source : Source) (c : Responder σ) (course : Course σ) :
    Prop :=
  ∃ last c', Takes r max source c course.turns last c' ∧
    Finishes r max last c' course.parting course.result course.rest course.responder

/-- The bytes of the answers, and of what comes after them. -/
def bytes (course : Course σ) : List UInt8 :=
  course.turns.flatMap (·.told.bytes) ++ course.parting.flatMap Frame.bytes

end Course

variable {r : Registry σ} {max : Nat} {source last rest : Source} {c c' : Responder σ}
  {turns : List (Turn σ)} {gone : List Frame} {result : Except Abort (Except TransportError Unit)}

/-- There is a course on every stream. -/
theorem exists_course (r : Registry σ) (max : Nat) (source : Source) (c : Responder σ) :
    ∃ course, Course.Runs r max source c course := by
  -- Each turn takes something off the stream.
  induction left : source.remaining using Nat.strongRecOn generalizing source c with
  | _ n ih =>
    subst left
    rcases read : Frame.read .interleaved max source with ⟨e | _ | f, rest⟩
    · exact ⟨⟨[], _, _, _, _⟩, _, _, .nil, .unreadable read⟩
    · exact ⟨⟨[], _, _, _, _⟩, _, _, .nil, .closed read⟩
    · rcases answered : Responder.answer r f c with ⟨abort | e | g, c'⟩
      · exact ⟨⟨[], _, _, _, _⟩, _, _, .nil, .stopped read answered⟩
      · exact ⟨⟨[], _, _, _, _⟩, _, _, .nil, .unrefused read answered⟩
      · by_cases le : g.body.length ≤ maxLength
        · obtain ⟨⟨turns, gone, result, left, responder⟩, last, c'', takes, finishes⟩ :=
            ih _ (Frame.remaining_read_lt read) rest c' rfl
          exact ⟨⟨_ :: turns, gone, result, left, responder⟩, last, c'',
            .cons read answered le takes, finishes⟩
        · exact ⟨⟨[], _, _, _, _⟩, _, _, .nil, .unframed read answered (Nat.lt_of_not_le le)⟩

/-- Frames that are taken are answered over a sink without failures. -/
theorem Takes.serve_faultless (h : Takes r max source c turns last c') (written : List UInt8) :
    serve r max ⟨source, ⟨[], [], written⟩, c⟩
      = serve r max ⟨last, ⟨[], [], written ++ turns.flatMap (·.told.bytes)⟩, c'⟩ := by
  induction h generalizing written with
  | nil => rw [List.flatMap_nil, List.append_nil]
  | cons read answered le others ih =>
    rw [serve_eq_of_read read answered (Frame.write_faultless .interleaved le written), ih,
      List.flatMap_cons, List.append_assoc]

/-- At its end a responder writes nothing, or tells the peer why the stream cannot be read. -/
theorem Finishes.serve (h : Finishes r max source c gone result rest c') (sink : Sink) :
    (gone = [] ∧ serve r max ⟨source, sink, c⟩ = (result, ⟨rest, sink, c'⟩)) ∨
      ∃ e, Frame.read .interleaved max source = (.error e, rest) ∧ gone = parting (.error e) ∧
        result = .ok (.error e) ∧
        serve r max ⟨source, sink, c⟩ = (.ok (.error e), ⟨rest, farewell e sink, c'⟩) := by
  cases h with
  | closed read =>
    left
    rw [serve_eq, read]
    exact ⟨rfl, rfl⟩
  | unreadable read =>
    right
    rw [serve_eq, read]
    exact ⟨_, rfl, rfl, rfl, rfl⟩
  | stopped read answered =>
    left
    rw [serve_of_read read, answered]
    exact ⟨rfl, rfl⟩
  | unrefused read answered =>
    left
    rw [serve_of_read read, answered]
    exact ⟨rfl, rfl⟩
  | unframed read answered exceeds =>
    left
    rw [serve_of_read read, answered]
    dsimp only
    rw [Frame.write, if_pos exceeds]
    exact ⟨rfl, rfl⟩

/-- Serving finishes over a sink without failures. -/
theorem Finishes.serve_faultless (h : Finishes r max source c gone result rest c')
    (written : List UInt8) :
    Service.serve r max ⟨source, ⟨[], [], written⟩, c⟩
      = (result, ⟨rest, ⟨[], [], written ++ gone.flatMap Frame.bytes⟩, c'⟩) := by
  rcases h.serve ⟨[], [], written⟩ with ⟨rfl, served⟩ | ⟨e, -, rfl, rfl, served⟩
  · rw [served, List.flatMap_nil, List.append_nil]
  · rw [served, farewell_faultless]

/-- Serving a stream that does not fail runs the course. -/
theorem Course.Runs.serve_faultless {course : Course σ} (h : course.Runs r max source c)
    (written : List UInt8) :
    serve r max ⟨source, ⟨[], [], written⟩, c⟩
      = (course.result, ⟨course.rest, ⟨[], [], written ++ course.bytes⟩, course.responder⟩) := by
  obtain ⟨last, c', takes, finishes⟩ := h
  rw [takes.serve_faultless, finishes.serve_faultless, Course.bytes, List.append_assoc]

/-! ## With failures -/

/-- What comes of a course on a stream that may fail. -/
inductive Course.Truncates (r : Registry σ) (max : Nat) (source : Source) (c : Responder σ)
    (sink : Sink) (course : Course σ) :
    Except Abort (Except TransportError Unit) × Service σ → Prop where
  /-- The stream does not fail, and all is as it would be without failures. -/
  | undisturbed {after : Sink} (meets : sink.Meets .interleaved (.ok ()) after)
      (written : after.written = sink.written ++ course.bytes) :
      Truncates r max source c sink course
        (course.result, ⟨course.rest, after, course.responder⟩)
  /-- The first failure comes with the answer of a turn, which is the last. -/
  | answerFails {before others : List (Turn σ)} {t : Turn σ} {rest : Source} {c' : Responder σ}
      {fault : StreamFault} {after : Sink} {part : List UInt8}
      (turns : course.turns = before ++ t :: others)
      (takes : Takes r max source c (before ++ [t]) rest c')
      (meets : sink.Meets .interleaved (.error fault) after) (first : part <+: t.told.bytes)
      (written : after.written
        = sink.written ++ (before.flatMap (·.told.bytes) ++ part)) :
      Truncates r max source c sink course
        (.ok (.error (.ofStreamFault fault)), ⟨rest, after, c'⟩)
  /-- The first failure comes while the peer is told why the stream cannot be read any more. -/
  | partingFails {e : TransportError} {g : Frame} {fault : StreamFault} {after : Sink}
      {part : List UInt8} (result : course.result = .ok (.error e))
      (unreadable : ∃ last c' rest, Takes r max source c course.turns last c' ∧
        Frame.read .interleaved max last = (.error e, rest))
      (refuses : Refusal.frame e = .ok g) (parting : course.parting = [g])
      (meets : sink.Meets .interleaved (.error fault) after) (first : part <+: g.bytes)
      (written : after.written
        = sink.written ++ (course.turns.flatMap (·.told.bytes) ++ part)) :
      Truncates r max source c sink course
        (.ok (.error e), ⟨course.rest, after, course.responder⟩)

namespace Course.Truncates

variable {course : Course σ} {sink between : Sink} {f g : Frame}
  {out : Except Abort (Except TransportError Unit) × Service σ}

/-- What is written is a beginning of what would be, if nothing failed. -/
theorem written_prefix (h : course.Truncates r max source c sink out) :
    out.2.sink.written <+: sink.written ++ course.bytes := by
  cases h with
  | undisturbed meets written => exact ⟨[], (List.append_nil _).trans written⟩
  | answerFails turns takes meets first written =>
    rw [written, List.prefix_append_right_inj, bytes, turns, List.flatMap_append,
      List.flatMap_cons, List.append_assoc, List.prefix_append_right_inj, List.append_assoc]
    exact first.trans (List.prefix_append _ _)
  | partingFails result unreadable refuses parting meets first written =>
    rw [written, List.prefix_append_right_inj, bytes, parting, List.prefix_append_right_inj,
      List.flatMap_singleton]
    exact first

/-- A run that finishes before the sink fails is not cut. -/
theorem of_finishes (h : Finishes r max source c gone result rest c') (sink : Sink) :
    Truncates r max source c sink ⟨[], gone, result, rest, c'⟩
      (serve r max ⟨source, sink, c⟩) := by
  rcases h.serve sink with ⟨rfl, served⟩ | ⟨e, read, rfl, rfl, served⟩
  · rw [served]
    exact .undisturbed .done (List.append_nil _).symm
  · rw [served, farewell, Service.parting]
    rcases framed : Refusal.frame e with e' | g
    · exact .undisturbed .done (List.append_nil _).symm
    · obtain ⟨-, -, le⟩ := Refusal.spec_frame framed
      dsimp only
      rcases g.write_cases .interleaved le sink with ⟨after, write, meets, written⟩ |
        ⟨fault, after, part, write, meets, first, written⟩
      · rw [write]
        refine .undisturbed meets (written.trans ?_)
        exact congrArg (sink.written ++ ·) (List.append_nil g.bytes).symm
      · rw [write]
        exact .partingFails rfl ⟨source, c, rest, .nil, read⟩ framed rfl meets first written

/-- A turn whose answer is written comes before what comes of the others. -/
theorem cons (read : Frame.read .interleaved max source = (.ok (some f), last))
    (answered : Responder.answer r f c = (.ok (.ok g), c')) (le : g.body.length ≤ maxLength)
    (meets : sink.Meets .interleaved (.ok ()) between)
    (written : between.written = sink.written ++ g.bytes)
    (others : course.Truncates r max last c' between out) :
    Truncates r max source c sink { course with turns := ⟨c, f, g⟩ :: course.turns } out := by
  cases others with
  | undisturbed meets' written' =>
    refine .undisturbed (meets.trans meets') ?_
    rw [written', written, bytes, bytes, List.flatMap_cons, List.append_assoc, List.append_assoc]
  | @answerFails before _ t _ _ _ _ _ turns takes meets' first written' =>
    have takes : Takes r max source c (⟨c, f, g⟩ :: before ++ [t]) _ _ :=
      .cons read answered le takes
    refine .answerFails (congrArg (_ :: ·) turns) takes (meets.trans meets') first ?_
    rw [written', written, List.flatMap_cons, List.append_assoc, List.append_assoc]
  | partingFails result unreadable refuses parting meets' first written' =>
    obtain ⟨last, c'', rest, takes, read'⟩ := unreadable
    refine .partingFails result
      ⟨last, c'', rest, .cons read answered le takes, read'⟩ refuses parting
      (meets.trans meets') first ?_
    rw [written', written, List.flatMap_cons, List.append_assoc, List.append_assoc]

/-- A turn whose answer is not written is the last. -/
theorem of_failed {rest' : Source} {gone : List Frame} {fault : StreamFault} {after : Sink}
    {part : List UInt8} (read : Frame.read .interleaved max source = (.ok (some f), last))
    (answered : Responder.answer r f c = (.ok (.ok g), c')) (le : g.body.length ≤ maxLength)
    (meets : sink.Meets .interleaved (.error fault) after) (first : part <+: g.bytes)
    (written : after.written = sink.written ++ part) (responder : Responder σ) :
    Truncates r max source c sink ⟨⟨c, f, g⟩ :: turns, gone, result, rest', responder⟩
      (.ok (.error (.ofStreamFault fault)), ⟨last, after, c'⟩) :=
  have takes : Takes r max source c ([] ++ [⟨c, f, g⟩]) last c' := .cons read answered le .nil
  .answerFails rfl takes meets first written

end Course.Truncates

/-- **What comes of a course on a stream that may fail** is the course up to the first
failure. -/
theorem Course.Runs.truncates {course : Course σ} (h : course.Runs r max source c) (sink : Sink) :
    course.Truncates r max source c sink (serve r max ⟨source, sink, c⟩) := by
  obtain ⟨turns, gone, result, rest, responder⟩ := course
  obtain ⟨last, c', takes, finishes⟩ := h
  dsimp only at takes finishes
  induction takes generalizing sink with
  | nil => exact .of_finishes finishes sink
  | @cons source next last c c'' c' f g turns read answered le others ih =>
    rcases g.write_cases .interleaved le sink with ⟨after, write, meets, written⟩ |
      ⟨fault, after, part, write, meets, first, written⟩
    · rw [serve_eq_of_read read answered write]
      exact .cons read answered le meets written (ih after finishes)
    · rw [serve_of_read read, answered]
      dsimp only
      rw [write]
      exact .of_failed read answered le meets first written responder

/-- **Faults only cut off what a responder writes.** For every stream there is a course, which
serving runs if the stream never fails while it is written to. Otherwise serving runs the course
up to the first failure, and what it has written by then comes first among what it would have
written without. A failure while an answer is written ends serving, and is its result. A failure
while the peer is told about a frame that cannot be read leaves the result as it was. -/
theorem faults_truncate (r : Registry σ) (max : Nat) (source : Source) (c : Responder σ) :
    ∃ course : Course σ, course.Runs r max source c ∧
      (∀ written, serve r max ⟨source, ⟨[], [], written⟩, c⟩ = (course.result,
        ⟨course.rest, ⟨[], [], written ++ course.bytes⟩, course.responder⟩)) ∧
      ∀ sink, course.Truncates r max source c sink (serve r max ⟨source, sink, c⟩) ∧
        (serve r max ⟨source, sink, c⟩).2.sink.written
          <+: (serve r max ⟨source, ⟨[], [], sink.written⟩, c⟩).2.sink.written := by
  obtain ⟨course, runs⟩ := exists_course r max source c
  refine ⟨course, runs, runs.serve_faultless, fun sink => ?_⟩
  have truncates := runs.truncates sink
  refine ⟨truncates, ?_⟩
  rw [runs.serve_faultless]
  exact truncates.written_prefix

/-- A module is to be loaded, and the first write of the answer reports a failure. -/
def failingLoad (f : StreamFault) : Service Nat where
  source := [.chunk (Frame.mk .load
    (Message.spelling "ping" [(Request.versionKey, .string "1")])).bytes]
  sink := ⟨[.fault f], [], []⟩
  responder := Responder.start 0

/-- An interruption of that write does not end serving: the answer is written all the same. So
not every failure that a write reports is the result of serving. -/
theorem serve_after_interruption :
    serve pingRegistry 64 (failingLoad ⟨.interrupted, "again"⟩)
      = (.ok (.ok ()), ⟨[], ⟨[], [], (Frame.mk .reply []).bytes⟩, ⟨⟨["ping"]⟩, 0⟩⟩) ∧
    ¬ ∀ f : StreamFault, (serve pingRegistry 64 (failingLoad f)).1
        = .ok (.error (.ofStreamFault f)) ∧
      (serve pingRegistry 64 (failingLoad f)).2.sink.written = [] := by
  have served : serve pingRegistry 64 (failingLoad ⟨.interrupted, "again"⟩)
      = (.ok (.ok ()), ⟨[], ⟨[], [], (Frame.mk .reply []).bytes⟩, ⟨⟨["ping"]⟩, 0⟩⟩) := by
    have read : Frame.read .interleaved 64 (failingLoad ⟨.interrupted, "again"⟩).source
        = (.ok (some ⟨.load, Message.spelling "ping" [(Request.versionKey, .string "1")]⟩), []) :=
      rfl
    rw [serve_eq_of_read read rfl rfl]
    exact serve_nil _ _ _ _
  refine ⟨served, fun reported => ?_⟩
  have result := (reported ⟨.interrupted, "again"⟩).1
  rw [served] at result
  cases result

end Service

end KeyedRpc
