/-
# What a caller wrote is what a responder is asked for

A caller writes the frames of its requests one after another, and stops for good within one of
them if the stream fails (`StreamClient.exists_written`). A responder that gets some of these
bytes finds the same frames in them, one after another, and is asked for nothing else
(`Service.handed_prefix`). So whatever happens to the stream, a request is carried out at most
once, and none that was not made (`StreamClient.written_delivered`).
-/
import KeyedRpc.Proofs.Stream.Carriage
import KeyedRpc.Proofs.Stream.Service

namespace KeyedRpc

/-! ## Writing that may fail -/

/-- The bytes that are taken come first among those that are offered. -/
theorem WriteEvent.taken_prefix (style : StreamStyle) (events : List WriteEvent)
    (bytes : List UInt8) : (offer style events bytes).2.1 <+: bytes := by
  fun_induction offer style events bytes with
  | case1 | case3 | case6 => exact List.nil_prefix
  | case2 => exact List.prefix_refl _
  | case4 b bytes n rest result taken rest' offered ih =>
    rw [offered] at ih
    obtain ⟨left, eq⟩ := ih
    refine ⟨left, ?_⟩
    rw [List.cons_append, List.cons_append, List.append_assoc, eq, List.take_append_drop]
  | case5 bytes f rest nonempty retry ih => exact ih

/-- A write takes the bytes up to some place. -/
theorem Sink.exists_writeAll {style : StreamStyle} {sink sink' : Sink} {bytes : List UInt8}
    {result : Except StreamFault Unit} (h : sink.writeAll style bytes = (result, sink')) :
    ∃ taken, taken <+: bytes ∧ sink'.written = sink.written ++ taken := by
  have taken := WriteEvent.taken_prefix style sink.writes bytes
  unfold writeAll at h
  cases h
  exact ⟨_, taken, rfl⟩

/-- Writing a frame adds the first of its bytes to what was written. One that is too long is not
begun. -/
theorem Frame.exists_write {style : StreamStyle} {f : Frame} {sink sink' : Sink}
    {result : Except TransportError Unit} (h : f.write style sink = (result, sink')) :
    ∃ taken, taken <+: f.bytes ∧ sink'.written = sink.written ++ taken ∧
      (maxLength < f.body.length → taken = []) := by
  by_cases long : maxLength < f.body.length
  · rw [Frame.write, if_pos long] at h
    cases h
    exact ⟨[], List.nil_prefix, (List.append_nil _).symm, fun _ => rfl⟩
  · suffices some : ∃ taken, taken <+: f.bytes ∧ sink'.written = sink.written ++ taken by
      obtain ⟨taken, first, written⟩ := some
      exact ⟨taken, first, written, fun exceeds => absurd exceeds long⟩
    rcases Frame.parts_of_write (Nat.not_lt.mp long) h with ⟨e, header, -⟩ |
      ⟨begun, header, ⟨e, body, -⟩ | ⟨whole, flushed, body, flush, -⟩⟩
    · -- The failure comes within the header.
      obtain ⟨taken, first, written⟩ := Sink.exists_writeAll header
      exact ⟨taken, first.trans (List.prefix_append _ _), written⟩
    · -- The failure comes within the body.
      obtain ⟨taken, first, written⟩ := Sink.exists_writeAll body
      refine ⟨f.header ++ taken, (List.prefix_append_right_inj _).mpr first, ?_⟩
      rw [written, Sink.written_writeAll header, List.append_assoc]
    · -- All is written, whether or not it is flushed.
      have unchanged := Sink.written_flush whole
      rw [flush] at unchanged
      refine ⟨f.bytes, List.prefix_refl _, ?_⟩
      rw [unchanged, Sink.written_writeAll body, Sink.written_writeAll header, List.append_assoc,
        Frame.bytes]

/-! ## What a caller writes -/

/-- A request is issued with its frame, if it has one. -/
def Request.issued (request : Request) : Option (Request × Frame) :=
  request.frame.toOption.map (request, ·)

/-- What is issued for a request is its frame. -/
theorem Request.frame_of_issued {request : Request} {issue : Request × Frame}
    (h : request.issued = some issue) : issue.1.frame = .ok issue.2 := by
  unfold issued at h
  rcases framed : request.frame with e | f
  · rw [framed] at h
    cases h
  · rw [framed] at h
    cases h
    exact framed

/-- A request with a frame is issued with it. -/
theorem Request.map_issued (request : Request) :
    request.issued.map Prod.snd = request.frame.toOption := by
  unfold issued
  cases request.frame with
  | error e => rfl
  | ok f => rfl

/-- A request fits its frame, if its length has a place there. -/
theorem Request.fits_of_frame {request : Request} {f : Frame} (framed : request.frame = .ok f)
    (le : f.body.length ≤ maxLength) : request.Fits maxLength := by
  have size_le {m : Message} {body : List UInt8} (encoded : m.encode = .ok body)
      (le : body.length ≤ maxLength) : m.size ≤ maxLength := by
    obtain ⟨-, rfl⟩ := Message.encode_eq_ok_iff.mp encoded
    rw [Message.length_bytes] at le
    exact le
  cases request with
  | call m =>
    obtain ⟨body, encoded, rfl⟩ := map_eq_ok_iff.mp framed
    exact ⟨size_le encoded le, size_le encoded le⟩
  | load module version =>
    obtain ⟨body, made, rfl⟩ := map_eq_ok_iff.mp framed
    obtain ⟨m, set, encoded⟩ := bind_eq_ok_iff.mp made
    exact ⟨m, set, size_le encoded le⟩

/-- A request is read off its frame as it was put in. -/
theorem Request.ofFrame_of_frame {request : Request} {f : Frame} (framed : request.frame = .ok f)
    (le : f.body.length ≤ maxLength) : ofFrame f = .ok request.received := by
  obtain ⟨f', framed', -, -, read⟩ := ofFrame_of_fits (fits_of_frame framed le)
  rw [framed, Except.ok.injEq] at framed'
  rw [framed', read]

namespace StreamClient

/-- What a step asks for, and the frame that asks for it. A step whose request cannot be built
or encoded asks for nothing. -/
def Step.issued : Step → Option (Request × Frame)
  | load module version => (Request.load module version).issued
  | call m args => (m.request args).toOption.bind fun request => (Request.call request).issued
  | send request => (Request.call request).issued

/-- A frame that is issued asks for its request. -/
theorem Step.frame_of_issued {step : Step} {issue : Request × Frame}
    (h : step.issued = some issue) : issue.1.frame = .ok issue.2 := by
  cases step with
  | load module version => exact Request.frame_of_issued h
  | call m args =>
    obtain ⟨request, -, issued⟩ := Option.bind_eq_some_iff.mp h
    exact Request.frame_of_issued issued
  | send request => exact Request.frame_of_issued h

/-- The frame that a step writes is the one that it issues. -/
theorem Step.map_issued (step : Step) : step.issued.map Prod.snd = step.frame.toOption := by
  cases step with
  | load module version =>
    rw [Step.frame, toOption_mapError]
    exact Request.map_issued _
  | call m args =>
    rw [Step.frame, Step.issued]
    cases m.request args with
    | error e => rfl
    | ok request =>
      dsimp only
      rw [toOption_mapError]
      exact Request.map_issued _
  | send request =>
    rw [Step.frame, toOption_mapError]
    exact Request.map_issued _

/-- Sending adds the first bytes of a frame to what was written, whether or not it succeeds. -/
theorem exists_send {f : Frame} {c after : StreamClient} {result : Except TransportError Unit}
    (h : send f c = (result, after)) :
    ∃ taken, taken <+: f.bytes ∧ after.sink.written = c.sink.written ++ taken ∧
      (maxLength < f.body.length → taken = []) := by
  unfold send at h
  by_cases broken : c.broken = true
  · rw [if_pos broken] at h
    cases h
    exact ⟨[], List.nil_prefix, (List.append_nil _).symm, fun _ => rfl⟩
  · rw [if_neg broken] at h
    rcases write : f.write .blocking c.sink with ⟨e | ⟨⟩, sink⟩
    · rw [write] at h
      cases h
      exact Frame.exists_write write
    · rw [write] at h
      cases h
      exact Frame.exists_write write

/-- Receiving writes nothing. -/
theorem sink_receive (c : StreamClient) : (receive c).2.sink = c.sink := by
  unfold receive
  rcases Frame.read .blocking c.maxFrame c.source with ⟨e | none | ⟨kind, body⟩, source⟩
  · rfl
  · rfl
  · cases kind with
    | load | call | reply => rfl
    | refused =>
      dsimp only
      cases Refusal.read body <;> rfl

/-- An exchange adds the first bytes of its frame to what was written, whether or not it
succeeds. -/
theorem exists_exchange (f : Frame) (c : StreamClient) :
    ∃ taken, taken <+: f.bytes ∧ (exchange f c).2.sink.written = c.sink.written ++ taken ∧
      (maxLength < f.body.length → taken = []) := by
  rw [exchange, bind_apply]
  rcases sent : send f c with ⟨e | ⟨⟩, after⟩
  · exact exists_send sent
  · dsimp only
    rw [sink_receive]
    exact exists_send sent

/-! ## Frames in a row -/

/-- What may be written of frames that are issued: their bytes in a row, up to some place. A
frame that is too long is not begun. -/
inductive Begun : List (Request × Frame) → List UInt8 → Prop where
  | stopped {issues : List (Request × Frame)} : Begun issues []
  | within {issue : Request × Frame} {issues : List (Request × Frame)} {taken : List UInt8}
      (le : issue.2.body.length ≤ maxLength) (first : taken <+: issue.2.bytes) :
      Begun (issue :: issues) taken
  | next {issue : Request × Frame} {issues : List (Request × Frame)} {sent : List UInt8}
      (le : issue.2.body.length ≤ maxLength) (others : Begun issues sent) :
      Begun (issue :: issues) (issue.2.bytes ++ sent)

namespace Begun

variable {issues : List (Request × Frame)} {sent bytes : List UInt8}

/-- What was sent are the first of the bytes of what was issued. -/
theorem prefix_flatMap (h : Begun issues sent) : sent <+: issues.flatMap (·.2.bytes) := by
  induction h with
  | stopped => exact List.nil_prefix
  | within le first => exact first.trans (List.prefix_append _ _)
  | next le others ih => exact (List.prefix_append_right_inj _).mpr ih

/-- What is written may be cut anywhere. -/
theorem of_prefix (h : Begun issues sent) (first : bytes <+: sent) : Begun issues bytes := by
  induction h generalizing bytes with
  | stopped =>
    rw [List.prefix_nil] at first
    rw [first]
    exact .stopped
  | within le first' => exact .within le (first.trans first')
  | @next issue issues sent le others ih =>
    rcases List.prefix_or_prefix_of_prefix first (List.prefix_append issue.2.bytes sent) with
      within | ⟨more, rfl⟩
    · exact .within le within
    · exact .next le (ih ((List.prefix_append_right_inj _).mp first))

/-- A whole frame at the beginning is the first one that was issued. -/
theorem of_frame {f : Frame} (h : Begun issues (f.bytes ++ bytes))
    (le : f.body.length ≤ maxLength) :
    ∃ issue others, issues = issue :: others ∧ issue.2 = f ∧ Begun others bytes := by
  generalize eq : f.bytes ++ bytes = sent at h
  rcases h with _ | ⟨le', left, more⟩ | ⟨le', others⟩
  · simp [Frame.bytes, Frame.header] at eq
  · rw [← eq, List.append_assoc] at more
    obtain ⟨same, none⟩ := Frame.bytes_append_inj le le' (more.trans (List.append_nil _).symm)
    obtain ⟨rfl, -⟩ := List.append_eq_nil_iff.mp none
    exact ⟨_, _, rfl, same.symm, .stopped⟩
  · obtain ⟨same, rfl⟩ := Frame.bytes_append_inj le le' eq
    exact ⟨_, _, rfl, same.symm, others⟩

end Begun

/-- **A caller writes its frames in a row**, up to some place. -/
theorem exists_written (c : StreamClient) (steps : List Step) :
    ∃ sent, Begun (steps.filterMap Step.issued) sent ∧
      (c.after steps).sink.written = c.sink.written ++ sent := by
  induction steps generalizing c with
  | nil => exact ⟨[], .stopped, (List.append_nil _).symm⟩
  | cons step steps ih =>
    obtain ⟨sent, begun, written⟩ := ih (c.turn step).after
    have issued := step.map_issued
    have taken := step.take_eq c
    rcases framed : step.frame with answer | f
    · -- A step without a frame leaves the caller as it was.
      rw [framed] at issued taken
      have none : step.issued = none := Option.map_eq_none_iff.mp issued
      have same : (c.turn step).after = c := by rw [turn, taken]
      rw [same] at written
      rw [after, same, List.filterMap_cons_none none]
      exact ⟨sent, begun, written⟩
    · rw [framed] at issued taken
      obtain ⟨issue, some, rfl⟩ := Option.map_eq_some_iff.mp issued
      have moved : (c.turn step).after = (exchange issue.2 c).2 := by rw [turn, taken]
      rw [moved] at written
      rw [after, moved, List.filterMap_cons_some some]
      rcases broken : (exchange issue.2 c).2.broken with _ | _
      · -- The frame was written whole, and the steps after it write behind it.
        have exchanged : exchange issue.2 c = ((exchange issue.2 c).1, (exchange issue.2 c).2) :=
          rfl
        obtain ⟨-, le, written', -⟩ := exchange_in_step exchanged broken
        refine ⟨issue.2.bytes ++ sent, .next le begun, ?_⟩
        rw [written, written', List.append_assoc]
      · -- The stream is left alone from now on.
        rw [(turns_broken broken steps).1]
        obtain ⟨taken', first, written', none⟩ := exists_exchange issue.2 c
        refine ⟨taken', ?_, written'⟩
        by_cases long : maxLength < issue.2.body.length
        · rw [none long]
          exact .stopped
        · exact .within (Nat.le_of_not_lt long) first

end StreamClient

namespace Service

variable {σ : Type}

/-- What a responder is asked for on a stream: each request that it reads, and then performs,
until it stops serving. -/
def handed (r : Registry σ) (max : Nat) (s : Service σ) : List Request :=
  match _h : Frame.read .interleaved max s.source with
  | (.ok (some f), source) =>
    (Request.ofFrame f).toOption.toList ++
      match Responder.answer r f s.responder with
      | (.ok (.ok answer), responder) =>
        match answer.write .interleaved s.sink with
        | (.ok (), sink) => handed r max ⟨source, sink, responder⟩
        | (.error _, _) => []
      | _ => []
  | _ => []
termination_by s.source.remaining
decreasing_by exact Frame.remaining_read_lt _h

/-- The next read says what else a responder is asked for. -/
theorem handed_eq (r : Registry σ) (max : Nat) (s : Service σ) :
    handed r max s = match Frame.read .interleaved max s.source with
      | (.ok (some f), rest) => (Request.ofFrame f).toOption.toList ++
        match Responder.answer r f s.responder with
        | (.ok (.ok g), c) => match g.write .interleaved s.sink with
          | (.ok (), sink) => handed r max ⟨rest, sink, c⟩
          | (.error _, _) => []
        | _ => []
      | _ => [] := by
  rw [handed]
  rcases Frame.read .interleaved max s.source with ⟨e | _ | f, rest⟩
  · rfl
  · rfl
  · rfl

/-- A frame changes a responder as the request does that is read off it, if any. -/
theorem responder_answer (r : Registry σ) (f : Frame) (c : Responder σ) :
    (Responder.answer r f c).2
      = (Request.ofFrame f).toOption.toList.foldl
          (fun c request => (Responder.perform r request c).2) c := by
  unfold Responder.answer
  rcases Request.ofFrame f with e | request
  · rfl
  · show _ = (Responder.perform r request c).2
    dsimp only
    rcases Responder.perform r request c with ⟨abort | e | body, c'⟩ <;> rfl

/-- **Serving performs what was asked for**, one request after another, and does nothing else to
the responder. -/
theorem responder_serve (r : Registry σ) (max : Nat) (s : Service σ) :
    (serve r max s).2.responder
      = (handed r max s).foldl (fun c request => (Responder.perform r request c).2)
          s.responder := by
  fun_induction handed r max s with
  | case1 s f source read ih =>
    rw [serve_of_read read, List.foldl_append, ← responder_answer]
    rcases Responder.answer r f s.responder with ⟨abort | e | answer, c⟩
    · rfl
    · rfl
    · dsimp only
      rcases answer.write .interleaved s.sink with ⟨e | ⟨⟩, sink⟩
      · rfl
      · exact ih c sink
  | case2 s unread =>
    rw [serve_eq]
    rcases read : Frame.read .interleaved max s.source with ⟨e | none | f, source⟩
    · rfl
    · rfl
    · exact absurd read (unread f source)

/-- **A responder finds the frames that were written**, one after another, whatever it makes of
them. -/
theorem handed_prefix {issues : List (Request × Frame)}
    (framed : ∀ issue ∈ issues, issue.1.frame = .ok issue.2) (r : Registry σ) (max : Nat)
    (s : Service σ) (begun : StreamClient.Begun issues s.source.bytes) :
    handed r max s <+: issues.map (·.1.received) := by
  fun_induction handed r max s generalizing issues with
  | case1 s f source read ih =>
    obtain ⟨bytes_eq, -, le⟩ := Frame.bytes_read read
    rw [bytes_eq] at begun
    obtain ⟨issue, others, rfl, rfl, rest⟩ := begun.of_frame le
    rw [List.forall_mem_cons] at framed
    rw [Request.ofFrame_of_frame framed.1 le]
    -- It may stop serving here; what it is asked for after that is among the others.
    refine (List.prefix_append_right_inj [issue.1.received]).mpr ?_
    rcases Responder.answer r issue.2 s.responder with ⟨abort | e | answer, c⟩
    · exact List.nil_prefix
    · exact List.nil_prefix
    · dsimp only
      rcases answer.write .interleaved s.sink with ⟨e | _, sink⟩
      · exact List.nil_prefix
      · exact ih c sink framed.2 rest
  | case2 => exact List.nil_prefix

end Service

namespace StreamClient

/-- **A request is carried out at most once, and none that was not made.** Whatever the stream
does, what a caller has written comes first in the bytes of the frames that its steps issue, one
after another. And however these bytes come to a responder, wherever they are cut off, it is asked
for the first of the same requests, one after another; and what it is asked for is all that it
does. A request is received as it was made, but for the limit of its message, which is not
written. -/
theorem written_delivered (c : StreamClient) (steps : List Step) :
    ∃ sent, (c.after steps).sink.written = c.sink.written ++ sent ∧
      sent <+: (steps.filterMap Step.issued).flatMap (·.2.bytes) ∧
      ∀ {σ : Type} (r : Registry σ) (max : Nat) (s : Service σ), s.source.bytes <+: sent →
        Service.handed r max s <+: (steps.filterMap Step.issued).map (·.1.received) ∧
        (Service.serve r max s).2.responder
          = (Service.handed r max s).foldl (fun c request => (Responder.perform r request c).2)
              s.responder := by
  obtain ⟨sent, begun, written⟩ := exists_written c steps
  refine ⟨sent, written, begun.prefix_flatMap, fun r max s first => ?_⟩
  have framed : ∀ issue ∈ steps.filterMap Step.issued, issue.1.frame = .ok issue.2 := by
    intro issue mem
    obtain ⟨step, -, issued⟩ := List.mem_filterMap.mp mem
    exact Step.frame_of_issued issued
  exact ⟨Service.handed_prefix framed r max s (begun.of_prefix first),
    Service.responder_serve r max s⟩

/-- A caller whose stream fails within the header of its second frame. -/
def failingCaller : StreamClient where
  source := [.chunk [0x81, 0, 0, 0, 0]]
  sink := ⟨[.accept 5, .accept 64, .accept 2, .fault ⟨.brokenPipe, "broken pipe"⟩], [], []⟩
  maxFrame := 64
  broken := false

/-- The caller writes the first load and two bytes of the call. A responder gets a byte of the call
as well, in three chunks, and is asked for the load: the first of what the caller asked for. -/
theorem written_delivered_ping :
    ∃ sent, (failingCaller.after [.load "ping" "1", .send (Message.empty "ping.Ping"),
        .load "ping" "2"]).sink.written = sent ∧
      sent = Service.pingLoad.bytes ++ Service.pingCall.bytes.take 2 ∧
      Service.handed Service.pingRegistry 64
          ⟨(Source.cut [4, 9] (sent.take 37)).1, Sink.faultless, Responder.start 0⟩
        = [.load "ping" "1"] ∧
      Service.handed Service.pingRegistry 64
          ⟨(Source.cut [4, 9] (sent.take 37)).1, Sink.faultless, Responder.start 0⟩
        <+: [.load "ping" "1", .call (Message.empty "ping.Ping").received, .load "ping" "2"] := by
  obtain ⟨sent, written, -, delivered⟩ := written_delivered failingCaller
    [.load "ping" "1", .send (Message.empty "ping.Ping"), .load "ping" "2"]
  have bytes_eq : sent = Service.pingLoad.bytes ++ Service.pingCall.bytes.take 2 :=
    written.symm.trans rfl
  refine ⟨sent, written, bytes_eq, ?_, ?_⟩
  · rw [bytes_eq]
    have read : Frame.read .interleaved 64 (Source.cut [4, 9]
        ((Service.pingLoad.bytes ++ Service.pingCall.bytes.take 2).take 37)).1
          = (.ok (some Service.pingLoad), [.chunk [1]]) := rfl
    have unread : Frame.read .interleaved 64 [.chunk [1]]
        = (.error (.connectionLost "early eof"), []) := rfl
    have loaded : Responder.Reacts Service.pingRegistry (Responder.start 0) Service.pingLoad
        (.ok []) ⟨⟨["ping"]⟩, 0⟩ := .loaded rfl rfl
    rw [Service.handed_eq, read]
    dsimp only
    rw [Responder.answer_of_reacts loaded]
    show _ ++ Service.handed _ _ ⟨[.chunk [1]], _, _⟩ = _
    rw [Service.handed_eq, unread]
    rfl
  · have first : (Source.cut [4, 9] (sent.take 37)).1.bytes <+: sent := by
      rw [Source.bytes_cut]
      exact List.take_prefix 37 sent
    exact (delivered Service.pingRegistry 64 ⟨_, Sink.faultless, Responder.start 0⟩ first).1

end StreamClient

end KeyedRpc
