/-
# Serving frame by frame

On a stream whose bytes come in any chunks and whose writes do not fail, a responder answers
frame by frame: each is answered in the state that the frames before it left, the answers come
in the order of the frames, and the end of the stream says how serving ends
(`Service.serve_frames`). A frame costs a caller its connection only if the error that it is
refused with is too long for a refusal, or its reply for a frame (`Service.serve_stays`). The
second can only be where a handler puts another message in the place of its reply
(`Service.serve_frames_exceptions`).
-/
import KeyedRpc.Proofs.Stream.Endings
import KeyedRpc.Proofs.Stream.Loopback
import KeyedRpc.Proofs.Stream.Reactions
import KeyedRpc.Proofs.Stream.Refusals

namespace KeyedRpc

variable {σ : Type}

namespace Service

/-! ## One frame -/

/-- What is served after a frame is read. -/
theorem serve_of_read {r : Registry σ} {max : Nat} {s : Service σ} {rest : Source} {f : Frame}
    (read : Frame.read .interleaved max s.source = (.ok (some f), rest)) :
    serve r max s = match Responder.answer r f s.responder with
      | (.error abort, c) => (.error abort, ⟨rest, s.sink, c⟩)
      | (.ok (.error e), c) => (.ok (.error e), ⟨rest, s.sink, c⟩)
      | (.ok (.ok g), c) => match g.write .interleaved s.sink with
        | (.error e, sink) => (.ok (.error e), ⟨rest, sink, c⟩)
        | (.ok (), sink) => serve r max ⟨rest, sink, c⟩ := by
  rewrite [serve_eq, read]
  rfl

/-- A complete frame is read off a steady stream, whatever comes after that. -/
theorem exists_read {max : Nat} {source : Source} {f : Frame} {tail : List UInt8}
    (steady : source.Steady) (bytes_eq : source.bytes = f.bytes ++ tail)
    (fits : f.body.length ≤ max ∧ f.body.length ≤ maxLength) :
    ∃ rest : Source, rest.Steady ∧ rest.bytes = tail ∧
      ∀ next, Frame.read .interleaved max (source ++ next) = (.ok (some f), rest ++ next) := by
  obtain ⟨rest, read, steady, bytes_eq⟩ :=
    Frame.read_steady .interleaved steady bytes_eq fits.1 fits.2
  exact ⟨rest, steady, bytes_eq, Frame.read_append read⟩

section Faultless

variable {r : Registry σ} {max : Nat} {source rest : Source} {c c' : Responder σ} {f : Frame}
  {written : List UInt8}

/-- A reply is written, if its length has a place in a frame. -/
theorem serve_replied {body : List UInt8}
    (read : Frame.read .interleaved max source = (.ok (some f), rest))
    (reacts : Responder.Reacts r c f (.ok body) c') (le : body.length ≤ maxLength) :
    serve r max ⟨source, ⟨[], [], written⟩, c⟩
      = serve r max ⟨rest, ⟨[], [], written ++ (Frame.mk .reply body).bytes⟩, c'⟩ := by
  rw [serve_of_read read, Responder.answer_of_reacts reacts, Responder.frameOf]
  dsimp only
  rw [Frame.write_faultless .interleaved le]

/-- A reply that is too long ends serving. -/
theorem serve_unframed {body : List UInt8}
    (read : Frame.read .interleaved max source = (.ok (some f), rest))
    (reacts : Responder.Reacts r c f (.ok body) c') (exceeds : maxLength < body.length) :
    serve r max ⟨source, ⟨[], [], written⟩, c⟩
      = (.ok (.error (.frameTooLarge body.length maxLength)), ⟨rest, ⟨[], [], written⟩, c'⟩) := by
  rw [serve_of_read read, Responder.answer_of_reacts reacts, Responder.frameOf]
  dsimp only
  rw [Frame.write, if_pos exceeds]

/-- An error is refused with, if there is a refusal of it. -/
theorem serve_refused {e : TransportError} {g : Frame}
    (read : Frame.read .interleaved max source = (.ok (some f), rest))
    (reacts : Responder.Reacts r c f (.error e) c') (framed : Refusal.frame e = .ok g) :
    serve r max ⟨source, ⟨[], [], written⟩, c⟩
      = serve r max ⟨rest, ⟨[], [], written ++ g.bytes⟩, c'⟩ := by
  obtain ⟨-, -, le⟩ := Refusal.spec_frame framed
  rw [serve_of_read read, Responder.answer_of_reacts reacts, Responder.frameOf, framed]
  dsimp only
  rw [Frame.write_faultless .interleaved le]

/-- An error that has no refusal ends serving. -/
theorem serve_unrefused {e e' : TransportError}
    (read : Frame.read .interleaved max source = (.ok (some f), rest))
    (reacts : Responder.Reacts r c f (.error e) c') (unframed : Refusal.frame e = .error e') :
    serve r max ⟨source, ⟨[], [], written⟩, c⟩
      = (.ok (.error e'), ⟨rest, ⟨[], [], written⟩, c'⟩) := by
  rw [serve_of_read read, Responder.answer_of_reacts reacts, Responder.frameOf, unframed]

end Faultless

/-! ## Ends -/

/-- What the peer is told at the end of a stream: nothing if the stream ends between frames,
and otherwise the error, if it has a refusal. -/
def parting : Except TransportError Unit → List Frame
  | .ok () => []
  | .error e => (Refusal.frame e).toOption.toList

/-- A sink without failures takes the last refusal, if there is one. -/
theorem farewell_faultless (e : TransportError) (written : List UInt8) :
    farewell e ⟨[], [], written⟩
      = ⟨[], [], written ++ (parting (.error e)).flatMap Frame.bytes⟩ := by
  rw [farewell, parting]
  rcases framed : Refusal.frame e with e' | g
  · exact congrArg (Sink.mk [] []) (List.append_nil written).symm
  · obtain ⟨-, -, le⟩ := Refusal.spec_frame framed
    dsimp only
    rw [Frame.write_faultless .interleaved le]
    exact congrArg (fun l => Sink.mk [] [] (written ++ l)) (List.append_nil g.bytes).symm

/-- Serving ends as the stream does, after the peer is told. -/
theorem serve_ended {r : Registry σ} {max : Nat} {source next : Source} {c : Responder σ}
    {written : List UInt8} {ending : Except TransportError Unit} (steady : source.Steady)
    (ends : Frame.Ends max source.bytes next ending) :
    ∃ rest, serve r max ⟨source ++ next, ⟨[], [], written⟩, c⟩
      = (.ok ending, ⟨rest, ⟨[], [], written ++ (parting ending).flatMap Frame.bytes⟩, c⟩) := by
  obtain ⟨rest, read⟩ := Frame.read_of_ends steady ends
  refine ⟨rest, ?_⟩
  rw [serve_eq, read]
  rcases ending with e | ⟨⟩
  · show (Except.ok (Except.error e), Service.mk rest (farewell e ⟨[], [], written⟩) c) = _
    rw [farewell_faultless]
  · rw [parting, List.flatMap_nil, List.append_nil]
    rfl

/-- Every end but that between frames is told the peer, unless the stream fails with a text
that is about as long as the limit. -/
theorem parting_of_ends {max : Nat} {begun : List UInt8} {next : Source} {e : TransportError}
    (ends : Frame.Ends max begun next (.error e)) :
    (∃ g, Refusal.frame e = .ok g ∧ g.kind = .refused ∧ parting (.error e) = [g]) ∨
      ∃ f more, next = .fault f :: more ∧ e = .ofStreamFault f ∧
        defaultLimit < f.text.utf8ByteSize + 68 := by
  have told : Refusal.size e ≤ defaultLimit →
      ∃ g, Refusal.frame e = .ok g ∧ g.kind = .refused ∧ parting (.error e) = [g] := by
    intro room
    obtain ⟨m, -, framed⟩ := Refusal.frame_of_room room
    refine ⟨_, framed, rfl, ?_⟩
    rw [parting, framed]
    rfl
  rcases ends with _ | none | ⟨length, exceeds⟩ | _ | @⟨_, f, more, begins, fails⟩
  · exact Or.inl (told (Refusal.room_of_unknown _))
  · have le := (ofLittleEndian_of_length length).2
    exact Or.inl (told (Refusal.room_of_tooLarge le exceeds))
  · have room : Refusal.size (.connectionLost "early eof") ≤ defaultLimit := by decide
    exact Or.inl (told room)
  · by_cases short : f.text.utf8ByteSize + 68 ≤ defaultLimit
    · exact Or.inl (told (Refusal.room_of_text short))
    · exact Or.inr ⟨f, more, rfl, rfl, by omega⟩

/-! ## Frames in a row -/

/-- Serving frames in a row, up to the end of the stream: the frames that are written, how
serving ends, and the responder that is left. -/
inductive Serves (r : Registry σ) (ending : Except TransportError Unit) : Responder σ →
    List Frame → List Frame → Except TransportError Unit → Responder σ → Prop where
  /-- After the last frame, the end of the stream is that of serving. -/
  | ended {c : Responder σ} : Serves r ending c [] (parting ending) ending c
  | replied {c c' c'' : Responder σ} {f : Frame} {fs gs : List Frame} {body : List UInt8}
      {result : Except TransportError Unit} (reacts : Responder.Reacts r c f (.ok body) c')
      (le : body.length ≤ maxLength) (others : Serves r ending c' fs gs result c'') :
      Serves r ending c (f :: fs) (⟨.reply, body⟩ :: gs) result c''
  | refused {c c' c'' : Responder σ} {f g : Frame} {fs gs : List Frame} {e : TransportError}
      {result : Except TransportError Unit} (reacts : Responder.Reacts r c f (.error e) c')
      (framed : Refusal.frame e = .ok g) (others : Serves r ending c' fs gs result c'') :
      Serves r ending c (f :: fs) (g :: gs) result c''
  /-- An error that has no refusal ends serving with the error that says so. -/
  | unrefused {c c' : Responder σ} {f : Frame} {fs : List Frame} {e e' : TransportError}
      (reacts : Responder.Reacts r c f (.error e) c') (unframed : Refusal.frame e = .error e') :
      Serves r ending c (f :: fs) [] (.error e') c'
  /-- A reply that is too long for a frame ends serving. -/
  | unframed {c c' : Responder σ} {f : Frame} {fs : List Frame} {body : List UInt8}
      (reacts : Responder.Reacts r c f (.ok body) c') (exceeds : maxLength < body.length) :
      Serves r ending c (f :: fs) [] (.error (.frameTooLarge body.length maxLength)) c'

section Runs

variable {r : Registry σ} {max : Nat} {next : Source} {c c' : Responder σ} {fs gs : List Frame}
  {begun : List UInt8} {ending result : Except TransportError Unit}

/-- The bytes of a stream are those of frames, and of what is begun after them. -/
structure Holds (source : Source) (fs : List Frame) (begun : List UInt8) : Prop where
  steady : source.Steady
  bytes_eq : source.bytes = fs.flatMap Frame.bytes ++ begun

/-- The first of the frames that a stream holds is read, and leaves a stream with the others. -/
theorem Holds.exists_rest {source : Source} {f : Frame} (holds : Holds source (f :: fs) begun)
    (fits : f.body.length ≤ max ∧ f.body.length ≤ maxLength) :
    ∃ rest, Holds rest fs begun ∧
      Frame.read .interleaved max source = (.ok (some f), rest) := by
  have bytes_eq := holds.bytes_eq
  rw [List.flatMap_cons, List.append_assoc] at bytes_eq
  obtain ⟨rest, read, steady, bytes_eq⟩ :=
    Frame.read_steady .interleaved holds.steady bytes_eq fits.1 fits.2
  exact ⟨rest, ⟨steady, bytes_eq⟩, read⟩

/-- It is read in the same way whatever comes after these frames. -/
theorem Holds.exists_read {source : Source} {f : Frame} (holds : Holds source (f :: fs) begun)
    (fits : f.body.length ≤ max ∧ f.body.length ≤ maxLength) :
    ∃ rest, Holds rest fs begun ∧
      ∀ next, Frame.read .interleaved max (source ++ next) = (.ok (some f), rest ++ next) := by
  obtain ⟨rest, others, read⟩ := holds.exists_rest fits
  exact ⟨rest, others, Frame.read_append read⟩

/-- **Frames are served in a row**, in whatever chunks they come. -/
theorem Serves.serve (h : Serves r ending c fs gs result c')
    (fit : ∀ f ∈ fs, f.body.length ≤ max ∧ f.body.length ≤ maxLength)
    (ends : Frame.Ends max begun next ending) {source : Source} (holds : Holds source fs begun)
    (written : List UInt8) :
    ∃ rest, serve r max ⟨source ++ next, ⟨[], [], written⟩, c⟩
      = (.ok result, ⟨rest, ⟨[], [], written ++ gs.flatMap Frame.bytes⟩, c'⟩) := by
  induction h generalizing source written with
  | ended =>
    have bytes_eq := holds.bytes_eq
    rw [List.flatMap_nil, List.nil_append] at bytes_eq
    rw [← bytes_eq] at ends
    exact serve_ended holds.steady ends
  | replied reacts le others ih =>
    rw [List.forall_mem_cons] at fit
    obtain ⟨rest, holds, read⟩ := holds.exists_read fit.1
    rw [serve_replied (read next) reacts le, List.flatMap_cons, ← List.append_assoc]
    exact ih fit.2 holds _
  | refused reacts framed others ih =>
    rw [List.forall_mem_cons] at fit
    obtain ⟨rest, holds, read⟩ := holds.exists_read fit.1
    rw [serve_refused (read next) reacts framed, List.flatMap_cons, ← List.append_assoc]
    exact ih fit.2 holds _
  | unrefused reacts unframed =>
    rw [List.forall_mem_cons] at fit
    obtain ⟨rest, holds, read⟩ := holds.exists_read fit.1
    rw [serve_unrefused (read next) reacts unframed, List.flatMap_nil, List.append_nil]
    exact ⟨_, rfl⟩
  | unframed reacts exceeds =>
    rw [List.forall_mem_cons] at fit
    obtain ⟨rest, holds, read⟩ := holds.exists_read fit.1
    rw [serve_unframed (read next) reacts exceeds, List.flatMap_nil, List.append_nil]
    exact ⟨_, rfl⟩

/-- A responder that is not stopped for good serves the frames in a row. -/
theorem exists_serves (fit : ∀ f ∈ fs, f.body.length ≤ max ∧ f.body.length ≤ maxLength)
    {source : Source} (holds : Holds source fs begun) (written : List UInt8)
    (runs : ∀ abort, (serve r max ⟨source ++ next, ⟨[], [], written⟩, c⟩).1 ≠ .error abort) :
    ∃ gs result c', Serves r ending c fs gs result c' := by
  induction fs generalizing source written c with
  | nil => exact ⟨_, _, _, .ended⟩
  | cons f fs ih =>
    rw [List.forall_mem_cons] at fit
    obtain ⟨rest, holds, read⟩ := holds.exists_read fit.1
    rcases answered : Responder.answer r f c with ⟨abort | result, c'⟩
    · rw [serve_of_read (read next), answered] at runs
      exact absurd rfl (runs abort)
    · obtain ⟨e | body, reacts, -⟩ := Responder.exists_reacts answered
      · rcases framed : Refusal.frame e with e' | g
        · exact ⟨_, _, _, .unrefused reacts framed⟩
        · rw [serve_refused (read next) reacts framed] at runs
          obtain ⟨gs, result, c'', others⟩ := ih fit.2 holds _ runs
          exact ⟨_, _, _, .refused reacts framed others⟩
      · by_cases le : body.length ≤ maxLength
        · rw [serve_replied (read next) reacts le] at runs
          obtain ⟨gs, result, c'', others⟩ := ih fit.2 holds _ runs
          exact ⟨_, _, _, .replied reacts le others⟩
        · exact ⟨_, _, _, .unframed reacts (by omega)⟩

end Runs

/-! ## Interruptions -/

/-- What is seen of serving: how it ends, what is written, and the responder that is left. -/
def seen (out : Except Abort (Except TransportError Unit) × Service σ) :
    Except Abort (Except TransportError Unit) × Sink × Responder σ :=
  (out.1, out.2.sink, out.2.responder)

/-- A stream is another one with interruptions, each of them within a frame. -/
inductive Interrupted (max : Nat) : Source → Source → Prop where
  | never {source : Source} : Interrupted max source source
  | once {source before after : Source} {fs : List Frame} {begun : List UInt8} {f : StreamFault}
      (fit : ∀ f ∈ fs, f.body.length ≤ max ∧ f.body.length ≤ maxLength)
      (holds : Holds before fs begun) (begins : Frame.Begun max begun) (some : begun ≠ [])
      (interruption : f.isInterruption = true) (others : Interrupted max source (before ++ after)) :
      Interrupted max source (before ++ .fault f :: after)

/-- An interruption within a frame is not seen, whatever comes after it. -/
theorem seen_of_interruption (r : Registry σ) {max : Nat} {before : Source} {fs : List Frame}
    {begun : List UInt8} (fit : ∀ f ∈ fs, f.body.length ≤ max ∧ f.body.length ≤ maxLength)
    (holds : Holds before fs begun) (begins : Frame.Begun max begun) (some : begun ≠ [])
    {f : StreamFault} (interruption : f.isInterruption = true) (after : Source) (sink : Sink)
    (c : Responder σ) :
    seen (serve r max ⟨before ++ .fault f :: after, sink, c⟩)
      = seen (serve r max ⟨before ++ after, sink, c⟩) := by
  induction fs generalizing before sink c with
  | nil =>
    -- The frame that is interrupted is the next.
    have bytes_eq : before.bytes = begun := holds.bytes_eq
    rw [← bytes_eq] at begins some
    have read := Frame.read_of_interrupted .interleaved holds.steady begins some interruption after
    rw [serve_eq r max ⟨before ++ .fault f :: after, sink, c⟩,
      serve_eq r max ⟨before ++ after, sink, c⟩, read]
  | cons g fs ih =>
    rw [List.forall_mem_cons] at fit
    obtain ⟨rest, holds, read⟩ := holds.exists_read fit.1
    rw [serve_of_read (read _), serve_of_read (read _)]
    dsimp only
    rcases Responder.answer r g c with ⟨abort | e | answer, c'⟩
    · rfl
    · rfl
    · dsimp only
      rcases answer.write .interleaved sink with ⟨e | _, sink'⟩
      · rfl
      · exact ih fit.2 holds sink' c'

/-- **Interruptions within frames are not seen.** -/
theorem Interrupted.seen_serve {max : Nat} {source stream : Source}
    (h : Interrupted max source stream) (r : Registry σ) (sink : Sink) (c : Responder σ) :
    seen (serve r max ⟨stream, sink, c⟩) = seen (serve r max ⟨source, sink, c⟩) := by
  induction h with
  | never => rfl
  | once fit holds begins some interruption _ ih =>
    rw [seen_of_interruption r fit holds begins some interruption]
    exact ih

/-- Serving comes to an end from any stream that is interrupted. -/
theorem Interrupted.exists_serve {r : Registry σ} {max : Nat} {source stream rest : Source}
    {sink sink' : Sink} {c c' : Responder σ} {result : Except Abort (Except TransportError Unit)}
    (h : Interrupted max source stream)
    (served : serve r max ⟨source, sink, c⟩ = (result, ⟨rest, sink', c'⟩)) :
    ∃ left, serve r max ⟨stream, sink, c⟩ = (result, ⟨left, sink', c'⟩) := by
  have same := h.seen_serve r sink c
  rcases ran : serve r max ⟨stream, sink, c⟩ with ⟨out, left, after, responder⟩
  rw [ran, served] at same
  cases same
  exact ⟨left, rfl⟩

/-! ## Frame by frame -/

/-- **Frames are answered one by one, whatever chunks they come in.** A stream holds frames and
then ends, all its writes succeed, and nothing stops the responder for good. Then each frame is
answered, in the state that those before it left, up to one that has no answer if there is
such; and the end of the stream is told the peer. The same comes of the same bytes in other
chunks, and of interruptions within frames. Replies always have a frame if handlers of messages
only edit them, and only a failure of the stream with a text of about the size of the limit is not
told the peer. -/
theorem serve_frames {r : Registry σ} (limit : r.replyLimit ≤ maxLength) {max : Nat}
    {source next : Source} {fs : List Frame} {begun : List UInt8}
    {ending : Except TransportError Unit} {c : Responder σ}
    (fit : ∀ f ∈ fs, f.body.length ≤ max ∧ f.body.length ≤ maxLength)
    (holds : Holds source fs begun) (ends : Frame.Ends max begun next ending)
    (runs : ∀ abort, (serve r max ⟨source ++ next, Sink.faultless, c⟩).1 ≠ .error abort) :
    (∃ gs result c', Serves r ending c fs gs result c' ∧
      ∀ chunks stream : Source, chunks.Steady → chunks.bytes = source.bytes →
        Interrupted max (chunks ++ next) stream →
          ∃ rest, serve r max ⟨stream, Sink.faultless, c⟩
            = (.ok result, ⟨rest, ⟨[], [], gs.flatMap Frame.bytes⟩, c'⟩)) ∧
    (r.Editing → ∀ c f body c', f.body.length ≤ maxLength →
      Responder.Reacts r c f (.ok body) c' → body.length ≤ maxLength) ∧
    ∀ e, ending = .error e →
      (∃ g, Refusal.frame e = .ok g ∧ g.kind = .refused ∧ parting ending = [g]) ∨
        ∃ f more, next = .fault f :: more ∧ e = .ofStreamFault f ∧
          defaultLimit < f.text.utf8ByteSize + 68 := by
  refine ⟨?_, ?_, ?_⟩
  · obtain ⟨gs, result, c', serves⟩ : ∃ gs result c', Serves r ending c fs gs result c' :=
      exists_serves fit holds [] runs
    refine ⟨gs, result, c', serves, fun chunks stream steady same interrupted => ?_⟩
    obtain ⟨rest, served⟩ := serves.serve fit ends ⟨steady, same.trans holds.bytes_eq⟩ []
    exact interrupted.exists_serve served
  · intro editing c f body c' le reacts
    exact reacts.length_le limit editing le
  · rintro e rfl
    exact parting_of_ends ends

/-- A registry with a method that counts its calls. -/
def pingRegistry : Registry Nat :=
  ((Registry.empty fun _ => none).registerModule "ping" "1").register
    ⟨"ping", "Ping", [], .keyed .word⟩ fun _ => do
      modify (· + 1)
      return 7

/-- The load of the module. -/
def pingLoad : Frame :=
  ⟨.load, Message.spelling "ping" [(Request.versionKey, .string "1")]⟩

/-- A call of the method. -/
def pingCall : Frame :=
  ⟨.call, Message.spelling "ping.Ping" []⟩

theorem decode_pingCall : Message.decode pingCall.body = .ok (Message.empty "ping.Ping") := rfl

/-- A load that is accepted, a call, and a frame that is not one for a responder. -/
def pingFrames : List Frame :=
  [pingLoad, pingCall, ⟨.reply, []⟩]

theorem editing_pingRegistry : pingRegistry.Editing :=
  Registry.raw_register (fun tag handle registered => by cases registered) _ _

/-- The frames come in four chunks, and the stream ends within a fourth frame. -/
theorem serve_frames_ping :
    (∃ gs result c', Serves pingRegistry (.error (.connectionLost "early eof")) (Responder.start 0)
        pingFrames gs result c' ∧
      ∀ chunks stream : Source, chunks.Steady →
        chunks.bytes = pingFrames.flatMap Frame.bytes ++ [1, 9] →
          Interrupted 64 (chunks ++ []) stream →
            ∃ rest, serve pingRegistry 64 ⟨stream, Sink.faultless, Responder.start 0⟩
              = (.ok result, ⟨rest, ⟨[], [], gs.flatMap Frame.bytes⟩, c'⟩)) ∧
    ∀ c f body c', f.body.length ≤ maxLength →
      Responder.Reacts pingRegistry c f (.ok body) c' → body.length ≤ maxLength := by
  have fit : ∀ f ∈ pingFrames, f.body.length ≤ 64 ∧ f.body.length ≤ maxLength := by decide
  have begins : Frame.Begun 64 (FrameKind.call.code :: [9]) := .length (by decide)
  have holds : Holds (Source.cut [1, 6, 40] (pingFrames.flatMap Frame.bytes ++ [1, 9])).1
      pingFrames [1, 9] := ⟨Source.steady_cut _ _, Source.bytes_cut _ _⟩
  have ends : Frame.Ends 64 [1, 9] [] (.error (.connectionLost "early eof")) :=
    .truncated (by decide) begins
  -- What comes of each frame says that none stops the responder.
  have read : Message.decode (Message.spelling "ping.Ping" []) = .ok (Message.empty "ping.Ping") :=
    rfl
  obtain ⟨m, -, framed⟩ := Refusal.frame_of_room
    (e := .refused "unexpected Reply frame from client") (by decide)
  have serves : Serves pingRegistry (.error (.connectionLost "early eof")) (Responder.start 0)
      pingFrames _ _ ⟨⟨["ping"]⟩, 1⟩ :=
    .replied (.loaded rfl rfl) (by decide) (.replied (.replied read rfl rfl) (by decide)
      (.refused (.notTaken (Or.inl rfl)) framed .ended))
  obtain ⟨rest, served⟩ := serves.serve fit ends holds []
  have runs : ∀ abort, (serve pingRegistry 64 ⟨(Source.cut [1, 6, 40]
      (pingFrames.flatMap Frame.bytes ++ [1, 9])).1 ++ [], Sink.faultless, Responder.start 0⟩).1
        ≠ .error abort := by
    intro abort stopped
    rw [Sink.faultless, served] at stopped
    cases stopped
  have limit : pingRegistry.replyLimit ≤ maxLength := by decide
  obtain ⟨frames, replies, -⟩ := serve_frames limit fit holds ends runs
  rw [holds.bytes_eq] at frames
  exact ⟨frames, replies editing_pingRegistry⟩

/-! ## Exceptions -/

/-- A tag of some length without a full stop. -/
def longTag (n : Nat) : String :=
  String.ofList (List.replicate n 'a')

theorem utf8ByteSize_longTag (n : Nat) : (longTag n).utf8ByteSize = n := by
  induction n with
  | zero => rfl
  | succ n ih =>
    have one : 'a'.utf8Size = 1 := by decide
    rw [longTag, List.replicate_succ, String.ofList_cons, String.utf8ByteSize_append,
      String.utf8ByteSize_singleton, one]
    rw [longTag] at ih
    omega

/-- An empty message is longer than its tag by nine bytes. -/
theorem length_bytes_longTag (n : Nat) : (Message.empty (longTag n)).bytes.length = n + 9 := by
  have size : (Message.empty (longTag n)).size = headerSize (longTag n) := rfl
  rw [Message.length_bytes, size, headerSize, Value.blobSize, utf8ByteSize_longTag]
  omega

/-- A message with a long tag has bytes if the length of the tag has a place in four of them. -/
theorem encode_longTag (n : Nat) :
    (Message.empty (longTag n)).encode
      = if maxLength < n then .error (.blobTooLarge n)
        else .ok (Message.empty (longTag n)).bytes := by
  have lengths : (Message.empty (longTag n)).lengths = [n] :=
    congrArg (· :: []) (utf8ByteSize_longTag n)
  rw [Message.encode, lengths]
  by_cases exceeds : maxLength < n
  · simp [exceeds]
  · simp [exceeds]

/-- A registry with a handler of messages that counts its calls, and puts another message in the
place of its reply. -/
def replacingRegistry (other : Nat → Message) : Registry Nat :=
  ((Registry.empty fun _ => none).registerModule "ping" "1").registerRaw "ping" "Ping"
    fun _ (_, calls) => (.ok (), other calls, calls + 1)

/-- The reply of the handler is what it put in the place of the one it was given. -/
theorem dispatch_replacing (other : Nat → Message) (calls : Nat) :
    (Session.mk ["ping"]).dispatch (replacingRegistry other) (Message.empty "ping.Ping") calls
      = (.ok (.ok (other calls)), calls + 1) := rfl

/-- A load of the module is answered. -/
theorem reacts_load_replacing (other : Nat → Message) (calls : Nat) :
    Responder.Reacts (replacingRegistry other) (Responder.start calls) pingLoad (.ok [])
      ⟨⟨["ping"]⟩, calls⟩ :=
  .loaded rfl rfl

/-- A failure of the stream whose text leaves no room in a refusal is not told the peer. -/
theorem serve_untold (r : Registry σ) (max : Nat) (c : Responder σ) {text : String}
    (long : defaultLimit < text.utf8ByteSize + 62) :
    ∃ rest, serve r max ⟨[.fault ⟨.other, text⟩], Sink.faultless, c⟩
      = (.ok (.error (.io text)), ⟨rest, Sink.faultless, c⟩) := by
  have ends : Frame.Ends max [] [.fault ⟨.other, text⟩] (.error (.io text)) :=
    .failed .nothing (Or.inl rfl)
  have size : Refusal.size (.io text) = ("I/O error: " ++ text).utf8ByteSize + 51 :=
    Refusal.size_of_text (e := .io text) rfl
  have some : "I/O error: ".utf8ByteSize = 11 := by decide
  rw [String.utf8ByteSize_append, some] at size
  have full : defaultLimit < Refusal.size (.io text) := by omega
  have untold : parting (.error (.io text)) = [] := by
    rw [parting, Refusal.frame_of_full full]
    rfl
  have holds : Holds [] [] [] := ⟨List.forall_mem_nil _, rfl⟩
  obtain ⟨rest, served⟩ :=
    Serves.serve (r := r) (c := c) .ended (List.forall_mem_nil _) ends holds []
  rw [untold] at served
  exact ⟨rest, served⟩

/-- A frame has no answer if its reply is too long for a frame, an interruption within a frame does
not end serving, and a failure with a long text is not told the peer. -/
theorem serve_frames_exceptions :
    (∃ rest, serve (replacingRegistry fun _ => Message.empty (longTag maxLength)) 64
        ⟨[.chunk (pingLoad.bytes ++ pingCall.bytes)], Sink.faultless, Responder.start 0⟩
      = (.ok (.error (.frameTooLarge (maxLength + 9) maxLength)),
          ⟨rest, ⟨[], [], (Frame.mk .reply []).bytes⟩, ⟨⟨["ping"]⟩, 1⟩⟩)) ∧
    (∃ body rest, serve pingRegistry 64
        ⟨[.chunk (pingLoad.bytes ++ [1]), .fault ⟨.interrupted, "again"⟩,
          .chunk (pingCall.bytes.drop 1)], Sink.faultless, Responder.start 0⟩
      = (.ok (.ok ()), ⟨rest, ⟨[], [], (Frame.mk .reply []).bytes ++ (Frame.mk .reply body).bytes⟩,
          ⟨⟨["ping"]⟩, 1⟩⟩)) ∧
    ∃ rest, serve pingRegistry 64
        ⟨[.fault ⟨.other, longTag defaultLimit⟩], Sink.faultless, Responder.start 0⟩
      = (.ok (.error (.io (longTag defaultLimit))),
          ⟨rest, Sink.faultless, Responder.start 0⟩) := by
  have fit : ∀ f ∈ [pingLoad, pingCall], f.body.length ≤ 64 ∧ f.body.length ≤ maxLength := by decide
  refine ⟨?_, ?_, ?_⟩
  · -- A tag as long as four bytes can say can be written, but the reply is longer than its tag.
    have holds : Holds [.chunk (pingLoad.bytes ++ pingCall.bytes)] [pingLoad, pingCall] [] :=
      ⟨Source.steady_singleton rfl, rfl⟩
    have encoded := encode_longTag maxLength
    rw [if_neg (Nat.lt_irrefl maxLength)] at encoded
    have exceeds : maxLength < (Message.empty (longTag maxLength)).bytes.length := by
      rw [length_bytes_longTag]
      omega
    have serves : Serves (replacingRegistry fun _ => Message.empty (longTag maxLength)) (.ok ())
        (Responder.start 0) [pingLoad, pingCall] [⟨.reply, []⟩] _ ⟨⟨["ping"]⟩, 1⟩ :=
      .replied (reacts_load_replacing _ 0) (Nat.zero_le _)
        (.unframed (.replied decode_pingCall (dispatch_replacing _ 0) encoded) exceeds)
    obtain ⟨rest, served⟩ := serves.serve fit .clean holds []
    rw [length_bytes_longTag] at served
    exact ⟨rest, served⟩
  · -- The interruption comes after the first byte of the call.
    have steady : Source.Steady [.chunk (pingLoad.bytes ++ [1]), .chunk (pingCall.bytes.drop 1)] :=
      Source.steady_cons_iff.mpr ⟨⟨_, _, rfl⟩, Source.steady_singleton rfl⟩
    have interrupted : Interrupted 64
        [.chunk (pingLoad.bytes ++ [1]), .chunk (pingCall.bytes.drop 1)]
        [.chunk (pingLoad.bytes ++ [1]), .fault ⟨.interrupted, "again"⟩,
          .chunk (pingCall.bytes.drop 1)] := by
      have first : Holds [.chunk (pingLoad.bytes ++ [1])] [pingLoad] [1] :=
        ⟨Source.steady_singleton rfl, rfl⟩
      have begins : Frame.Begun 64 (FrameKind.call.code :: []) := .length (by decide)
      exact .once (by decide) first begins (List.cons_ne_nil _ _) rfl .never
    obtain ⟨body, replied⟩ : ∃ body, Responder.Reacts pingRegistry ⟨⟨["ping"]⟩, 0⟩ pingCall
        (.ok body) ⟨⟨["ping"]⟩, 1⟩ := ⟨_, .replied decode_pingCall rfl rfl⟩
    have le := replied.length_le (by decide) editing_pingRegistry (by decide)
    have serves : Serves pingRegistry (.ok ()) (Responder.start 0) [pingLoad, pingCall]
        [⟨.reply, []⟩, ⟨.reply, body⟩] (.ok ()) ⟨⟨["ping"]⟩, 1⟩ :=
      .replied (.loaded rfl rfl) (Nat.zero_le _) (.replied replied le .ended)
    obtain ⟨rest, served⟩ := serves.serve fit .clean ⟨steady, rfl⟩ []
    obtain ⟨left, served⟩ := interrupted.exists_serve served
    rw [List.flatMap_cons, List.flatMap_singleton] at served
    exact ⟨body, left, served⟩
  · apply serve_untold
    rw [utf8ByteSize_longTag]
    omega

end Service

end KeyedRpc
