/-
# Exchanges within one process

Over a stream without failures, a frame that the responder can answer is answered, however
the stream cuts the bytes on either way, and the stream is empty again afterwards
(`Loopback.exchange_quiet`).
-/
import KeyedRpc.Proofs.Serving.Replies
import KeyedRpc.Stream.Loopback

namespace KeyedRpc

variable {σ : Type}

/-! ## Chunks -/

namespace Source

/-- What is cut into chunks is a stream without ends and failures. -/
theorem steady_cut (sizes : List Nat) (bytes : List UInt8) : (cut sizes bytes).1.Steady := by
  fun_induction cut sizes bytes with
  | case1 => exact fun event mem => by cases mem
  | case2 bytes nonempty =>
    cases bytes with
    | nil => exact absurd rfl nonempty
    | cons b l => exact steady_cons_iff.mpr ⟨⟨b, l, rfl⟩, fun event mem => by cases mem⟩
  | case3 n sizes b bytes rest left eq ih =>
    rw [eq] at ih
    exact steady_cons_iff.mpr ⟨⟨b, bytes.take n, rfl⟩, ih⟩

/-- Cutting loses no byte. -/
theorem bytes_cut (sizes : List Nat) (bytes : List UInt8) : (cut sizes bytes).1.bytes = bytes := by
  fun_induction cut sizes bytes with
  | case1 => rfl
  | case2 bytes nonempty => exact List.append_nil bytes
  | case3 n sizes b bytes rest left eq ih =>
    rw [eq] at ih
    rw [bytes_chunk, ih, List.cons_append, List.take_append_drop]

end Source

/-! ## Serving -/

namespace Service

theorem serve_nil (r : Registry σ) (max : Nat) (sink : Sink) (c : Responder σ) :
    serve r max ⟨[], sink, c⟩ = (.ok (.ok ()), ⟨[], sink, c⟩) := by
  rw [serve]
  rfl

/-- The next read says how serving goes on. -/
theorem serve_eq (r : Registry σ) (max : Nat) (s : Service σ) :
    serve r max s = match Frame.read .interleaved max s.source with
      | (.error e, rest) => (.ok (.error e), ⟨rest, farewell e s.sink, s.responder⟩)
      | (.ok none, rest) => (.ok (.ok ()), ⟨rest, s.sink, s.responder⟩)
      | (.ok (some f), rest) => match Responder.answer r f s.responder with
        | (.error abort, c) => (.error abort, ⟨rest, s.sink, c⟩)
        | (.ok (.error e), c) => (.ok (.error e), ⟨rest, s.sink, c⟩)
        | (.ok (.ok g), c) => match g.write .interleaved s.sink with
          | (.error e, sink) => (.ok (.error e), ⟨rest, sink, c⟩)
          | (.ok (), sink) => serve r max ⟨rest, sink, c⟩ := by
  rw [serve]
  rcases Frame.read .interleaved max s.source with ⟨e | _ | f, rest⟩
  · rfl
  · rfl
  · rfl

/-- A frame that is read and answered is served, and the loop goes on. -/
theorem serve_eq_of_read {r : Registry σ} {max : Nat} {s : Service σ} {rest : Source}
    {sink : Sink} {c : Responder σ} {f g : Frame}
    (read : Frame.read .interleaved max s.source = (.ok (some f), rest))
    (answered : Responder.answer r f s.responder = (.ok (.ok g), c))
    (write : g.write .interleaved s.sink = (.ok (), sink)) :
    serve r max s = serve r max ⟨rest, sink, c⟩ := by
  rw [serve_eq, read]
  dsimp only
  rw [answered]
  dsimp only
  rw [write]

/-- A frame that is answered is taken off the stream, and its answer is written. -/
theorem serve_frame {r : Registry σ} {max : Nat} {source : Source} {tail : List UInt8}
    {c c' : Responder σ} {f g : Frame} (written : List UInt8) (steady : source.Steady)
    (bytes_eq : source.bytes = f.bytes ++ tail) (within : f.body.length ≤ max)
    (le : f.body.length ≤ maxLength) (answered : Responder.answer r f c = (.ok (.ok g), c'))
    (le' : g.body.length ≤ maxLength) :
    ∃ rest : Source, rest.Steady ∧ rest.bytes = tail ∧
      serve r max ⟨source, ⟨[], [], written⟩, c⟩
        = serve r max ⟨rest, ⟨[], [], written ++ g.bytes⟩, c'⟩ := by
  obtain ⟨rest, read, steady, bytes_eq⟩ :=
    Frame.read_steady .interleaved steady bytes_eq within le
  exact ⟨rest, steady, bytes_eq,
    serve_eq_of_read read answered (Frame.write_faultless .interleaved le' written)⟩

end Service

/-! ## Answers in frames -/

namespace Answer

/-- An answer fits a caller that accepts `max` bytes if its message can be made, and both the
caller and the header of a frame have room for it. -/
def Fits (max : Nat) : Answer → Prop
  | loaded => True
  | replied m => m.size ≤ max ∧ m.size ≤ maxLength
  | failed e => Refusal.Fits max e

instance (max : Nat) (answer : Answer) : Decidable (answer.Fits max) :=
  match answer with
  | loaded => isTrue trivial
  | replied m => inferInstanceAs (Decidable (m.size ≤ max ∧ m.size ≤ maxLength))
  | failed e => inferInstanceAs (Decidable (Refusal.Fits max e))

/-- An answer can be written if the size of its reply has a place in four bytes. -/
def Writable : Answer → Prop
  | replied m => m.size ≤ maxLength
  | _ => True

instance (answer : Answer) : Decidable answer.Writable :=
  match answer with
  | loaded | failed _ => isTrue trivial
  | replied m => inferInstanceAs (Decidable (m.size ≤ maxLength))

/-- How an exchange ends with an answer. -/
def outcome : Answer → Except TransportError (List UInt8)
  | loaded => .ok []
  | replied m => .ok m.bytes
  | failed e => .error e

/-- An answer as it is received. -/
def received : Answer → Answer
  | loaded => loaded
  | replied m => replied m.received
  | failed e => failed e

/-- An answer agrees with the same answers after it was received. -/
theorem Agrees.received_left {a b : Answer} (h : a.Agrees b) : a.received.Agrees b := by
  cases h with
  | loaded => exact .loaded
  | replied replies =>
    exact .replied (replies.congr (Message.received_beq _) (Message.beq_self _))
  | failed e => exact .failed e

theorem Agrees.received_right {a b : Answer} (h : a.Agrees b) : a.Agrees b.received := by
  cases h with
  | loaded => exact .loaded
  | replied replies =>
    exact .replied (replies.congr (Message.beq_self _) (Message.received_beq _))
  | failed e => exact .failed e

end Answer

namespace Responder

/-- What is done for a request ends with the answer to it, if that fits. -/
theorem perform_of_ask {r : Registry σ} {request : Request} {answer : Answer} {max : Nat}
    {c c' : Responder σ} (told : (Transport.direct r).ask request c = (.ok answer, c'))
    (fits : answer.Fits max) : perform r request c = (.ok answer.outcome, c') := by
  cases request with
  | load module version =>
    rw [perform, Serving.bind_apply, Responder.load]
    rcases Transport.ask_load_direct_iff.mp told with
      ⟨session, loaded, rfl, rfl⟩ | ⟨e, failed, rfl, rfl⟩
    · rw [loaded]
      rfl
    · rw [failed]
      rfl
  | call m =>
    obtain ⟨result, state, answered, rfl, rfl⟩ := Transport.ask_call_direct_iff.mp told
    rw [perform, Serving.bind_apply, Responder.dispatch, answered]
    rcases result with e | reply
    · rfl
    · have written : reply.encode = .ok reply.bytes := Message.encode_of_size_le fits.2
      dsimp only
      rw [written]
      rfl

/-- **An answer that fits has a frame**, which the responder answers with. -/
theorem answer_of_ask {r : Registry σ} {f : Frame} {request : Request} {answer : Answer}
    {max : Nat} {c c' : Responder σ} (asked : Request.ofFrame f = .ok request)
    (told : (Transport.direct r).ask request c = (.ok answer, c')) (fits : answer.Fits max) :
    ∃ g : Frame, Responder.answer r f c = (.ok (.ok g), c') ∧ g.Answers ∧
      g.body.length ≤ max ∧ g.body.length ≤ maxLength ∧ g.outcome = answer.outcome := by
  unfold Responder.answer
  rw [asked]
  dsimp only
  rw [perform_of_ask told fits]
  cases answer with
  | loaded => exact ⟨⟨.reply, []⟩, rfl, Or.inl rfl, Nat.zero_le _, Nat.zero_le _, rfl⟩
  | replied m =>
    obtain ⟨within, le⟩ := fits
    exact ⟨⟨.reply, m.bytes⟩, rfl, Or.inl rfl, Message.length_bytes_le within,
      Message.length_bytes_le le, rfl⟩
  | failed e =>
    obtain ⟨g, frame, within, le, kind, outcome⟩ :=
      Refusal.outcome_of_fits fits (Transport.routes_of_ask told)
    refine ⟨g, ?_, Or.inr kind, within, le, outcome⟩
    dsimp only [Answer.outcome]
    rw [frame]

end Responder

/-! ## Exchanges -/

namespace StreamClient

/-- A sink without failures takes a whole frame. -/
theorem send_faultless {f : Frame} (le : f.body.length ≤ maxLength) (source : Source)
    (written : List UInt8) (maxFrame : Nat) :
    send f ⟨source, ⟨[], [], written⟩, maxFrame, false⟩
      = (.ok (), ⟨source, ⟨[], [], written ++ f.bytes⟩, maxFrame, false⟩) := by
  unfold send
  rw [if_neg Bool.false_ne_true]
  dsimp only
  rw [Frame.write_faultless .blocking le]

/-- A caller reads an answer that is there. -/
theorem receive_steady {c : StreamClient} {g : Frame} {tail : List UInt8}
    (steady : c.source.Steady) (bytes_eq : c.source.bytes = g.bytes ++ tail)
    (answers : g.Answers) (within : g.body.length ≤ c.maxFrame) (le : g.body.length ≤ maxLength) :
    ∃ rest : Source, rest.Steady ∧ rest.bytes = tail ∧
      receive c = (g.outcome, { c with source := rest }) := by
  obtain ⟨rest, read, steady, bytes_eq⟩ :=
    Frame.read_steady .blocking steady bytes_eq within le
  refine ⟨rest, steady, bytes_eq, ?_⟩
  unfold receive
  rw [read]
  obtain kind | kind := answers
  · simp only [kind, Frame.outcome]
  · simp only [kind, Frame.outcome]
    cases Refusal.read g.body <;> rfl

end StreamClient

namespace Loopback

/-- Both ends are in place, and no byte is on its way. -/
structure Quiet (l : Loopback σ) (maxFrame : Nat) (c : Responder σ) : Prop where
  client : l.client = ⟨[], Sink.faultless, maxFrame, false⟩
  responder : l.responder = c
  serving : l.serving = true

/-- What the caller wrote is served, and the answer is on its way. -/
theorem deliver_frame {r : Registry σ} {max : Nat} {c c' : Responder σ} {f g : Frame}
    (maxFrame : Nat) (sizes : List Nat) (within : f.body.length ≤ max)
    (le : f.body.length ≤ maxLength) (answered : Responder.answer r f c = (.ok (.ok g), c'))
    (le' : g.body.length ≤ maxLength) :
    ∃ (chunks : Source) (sizes' : List Nat), chunks.Steady ∧ chunks.bytes = g.bytes ∧
      deliver r max ⟨⟨[], ⟨[], [], f.bytes⟩, maxFrame, false⟩, c, true, sizes⟩
        = (.ok (.ok ()), ⟨⟨chunks, Sink.faultless, maxFrame, false⟩, c', true, sizes'⟩) := by
  have bytes_eq : (Source.cut sizes f.bytes).1.bytes = f.bytes ++ [] := by
    rw [Source.bytes_cut, List.append_nil]
  -- The frame is all that there is, so serving ends after it.
  obtain ⟨rest, steady, empty, served⟩ := Service.serve_frame []
    (Source.steady_cut sizes f.bytes) bytes_eq within le answered le'
  rw [Source.eq_nil_of_steady steady empty, Service.serve_nil, List.nil_append] at served
  refine ⟨(Source.cut (Source.cut sizes f.bytes).2 g.bytes).1,
    (Source.cut (Source.cut sizes f.bytes).2 g.bytes).2, Source.steady_cut _ _,
    Source.bytes_cut _ _, ?_⟩
  unfold deliver
  dsimp only
  rw [if_pos rfl, Sink.faultless, served]
  rfl

/-- **A frame that the responder answers gets its answer**, and leaves no byte behind. -/
theorem exchange_quiet {r : Registry σ} {max maxFrame : Nat} {l : Loopback σ}
    {c c' : Responder σ} {f g : Frame} (quiet : l.Quiet maxFrame c)
    (within : f.body.length ≤ max) (le : f.body.length ≤ maxLength)
    (answered : Responder.answer r f c = (.ok (.ok g), c')) (answers : g.Answers)
    (within' : g.body.length ≤ maxFrame) (le' : g.body.length ≤ maxLength) :
    ∃ l' : Loopback σ, exchange r max f l = (.ok g.outcome, l') ∧ l'.Quiet maxFrame c' := by
  obtain ⟨client, responder, serving, sizes⟩ := l
  obtain ⟨rfl, rfl, rfl⟩ := quiet
  obtain ⟨chunks, sizes', steady, bytes_eq, delivered⟩ :=
    deliver_frame maxFrame sizes within le answered le'
  rw [← List.append_nil g.bytes] at bytes_eq
  obtain ⟨rest, steady, empty, received⟩ := StreamClient.receive_steady
    (c := ⟨chunks, Sink.faultless, maxFrame, false⟩) steady bytes_eq answers within' le'
  rw [Source.eq_nil_of_steady steady empty] at received
  refine ⟨⟨⟨[], Sink.faultless, maxFrame, false⟩, c', true, sizes'⟩, ?_, rfl, rfl, rfl⟩
  -- The caller sends, the responder serves what was sent, and the caller receives.
  unfold exchange
  rw [Serving.bind_apply]
  unfold onClient
  rw [Sink.faultless, StreamClient.send_faultless le]
  dsimp only
  rw [List.nil_append, Serving.bind_apply, delivered]
  dsimp only
  rw [received]
  rfl

end Loopback

end KeyedRpc
