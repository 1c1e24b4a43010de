/-
# Whose reply it is

A reply names a method, which should be that of the request. Within one process it always is,
if handlers of messages only edit their replies: the session answers for the method of the
request, and on the way the name is written and read. Over a stream the caller takes the next
reply off the bytes of the peer, whatever it names; it is for the method of the request if it is
what a responder answers the frame of the request with (`Transport.replies_tagged`).
-/
import KeyedRpc.Proofs.Stream.Loopback
import KeyedRpc.Proofs.Stream.Reactions
import KeyedRpc.Proofs.Stream.Refusals
import KeyedRpc.Proofs.Transport.InProcess

namespace KeyedRpc

variable {σ : Type}

/-! ## Names on the way -/

/-- The method of a message is read as it was written, however many entries follow. -/
theorem Message.method_of_decode {m n : Message} {bytes : List UInt8}
    (written : m.encode = .ok bytes) (read : decode bytes = .ok n) : n.method = m.method := by
  obtain ⟨lengths, rfl⟩ := encode_eq_ok_iff.mp written
  obtain ⟨method_le, -⟩ := m.lengths_le_iff.mp lengths
  obtain ⟨l, spelt, -, -⟩ := spelt_of_decode read
  have front := spelt.eq_spelling
  rw [bytes_eq_spelling, spelling, spelling, List.append_assoc, List.append_assoc] at front
  exact (Reader.exact_blob.write_append_inj method_le spelt.method_le front).1.symm

/-- A message arrives with its method. -/
theorem Message.method_of_carried {m arrived : Message} (h : m.carried = .ok arrived) :
    arrived.method = m.method := by
  obtain ⟨bytes, written, read⟩ := exists_of_carried h
  exact method_of_decode written read

/-! ## Replies within one process -/

/-- A reply within one process is what arrives of the reply of the session. -/
theorem Transport.exists_of_send_inProcess {r : Registry σ} {request reply : Message}
    {c c' : Responder σ} (h : (inProcess r).send request c = (.ok (.ok reply), c')) :
    ∃ arrived answer state, request.carried = .ok arrived ∧
      c.session.dispatch r arrived c.state = (.ok (.ok answer), state) ∧
      answer.carried = .ok reply := by
  rcases carried : request.carried with e | arrived
  · rw [send_inProcess_of_uncarried carried] at h
    cases h
  · rcases answered : c.session.dispatch r arrived c.state with ⟨abort | e | answer, state⟩
    · rw [send_inProcess carried answered] at h
      cases h
    · rw [send_inProcess carried answered] at h
      cases h
    · rw [send_inProcess carried answered] at h
      obtain ⟨ended, -⟩ := Prod.mk.inj h
      exact ⟨arrived, answer, state, rfl, answered, Except.ok.inj ended⟩

/-- A reply within one process is for the method of the request, if handlers only edit replies. -/
theorem Transport.method_of_send_inProcess {r : Registry σ} (editing : r.Editing)
    {request reply : Message} {c c' : Responder σ}
    (h : (inProcess r).send request c = (.ok (.ok reply), c')) : reply.method = request.method := by
  obtain ⟨arrived, answer, state, there, answered, back⟩ := exists_of_send_inProcess h
  calc reply.method
    _ = answer.method := Message.method_of_carried back
    _ = arrived.method := (Session.reply_within editing answered).1
    _ = request.method := Message.method_of_carried there

/-! ## Replies over a stream -/

/-- Only a reply ends an exchange well, with its body. -/
theorem Frame.reply_of_outcome {g : Frame} {body : List UInt8} (answers : g.Answers)
    (h : g.outcome = .ok body) : g.kind = .reply ∧ g.body = body := by
  unfold outcome at h
  rcases answers with kind | kind
  · rw [kind] at h
    cases h
    exact ⟨kind, rfl⟩
  · rw [kind] at h
    dsimp only at h
    split at h
    · cases h
    · cases h

namespace StreamClient

/-- A caller that gets the body of a reply is not broken. -/
theorem sound_of_exchange {f : Frame} {c after : StreamClient} {body : List UInt8}
    (h : exchange f c = (.ok body, after)) : after.broken = false := by
  rw [exchange, bind_apply] at h
  rcases sending : send f c with ⟨e | ⟨⟩, sent⟩
  · rw [sending] at h
    cases h
  · rw [sending] at h
    dsimp only at h
    have sound : sent.broken = false := by
      unfold send at sending
      by_cases broken : c.broken = true
      · rw [if_pos broken] at sending
        cases sending
      · rw [if_neg broken] at sending
        rcases written : f.write .blocking c.sink with ⟨e | ⟨⟩, sink⟩
        · rw [written] at sending
          cases sending
        · rw [written] at sending
          cases sending
          exact Bool.eq_false_iff.mpr broken
    -- Only a reply that was read leads to a body, and it leaves the caller as it was.
    unfold receive at h
    repeat' split at h
    all_goals cases h
    exact sound

/-- A caller gets a reply to a request: it wrote the frame of the request, and took the frame of
the reply, and no byte more, off the stream. -/
structure GetsReply (c after : StreamClient) (request reply : Message) (f g : Frame) : Prop where
  asks : (Request.call request).frame = .ok f
  written : after.sink.written = c.sink.written ++ f.bytes
  kind : g.kind = .reply
  read : Message.decode g.body = .ok reply
  taken : c.source.bytes = g.bytes ++ after.source.bytes
  sound : after.broken = false

/-- A caller over a stream that gets a reply has sent the request and taken the reply. -/
theorem exists_of_send {request reply : Message} {c after : StreamClient}
    (h : Transport.stream.send request c = (.ok reply, after)) :
    ∃ f g, GetsReply c after request reply f g := by
  have taken := (Step.send request).take_eq c
  rw [show (Step.send request).take c = (.ok reply, after) from h] at taken
  rcases asks : (Request.call request).frame with e | f
  · rw [Step.frame, asks] at taken
    cases taken
  · rw [Step.frame, asks] at taken
    dsimp only [Except.mapError] at taken
    obtain ⟨ended, rfl⟩ := Prod.mk.inj taken
    rcases exchanged : (exchange f c).1 with e | body
    · rw [exchanged] at ended
      cases ended
    · rw [exchanged] at ended
      have sound := sound_of_exchange (Prod.ext exchanged rfl)
      obtain ⟨-, -, written, g, answers, -, outcome, bytes⟩ :=
        exchange_in_step (Prod.ext exchanged rfl) sound
      obtain ⟨kind, rfl⟩ := Frame.reply_of_outcome answers outcome.symm
      exact ⟨f, g, asks, written, kind, mapError_eq_ok_iff.mp ended.symm, bytes, sound⟩

/-- A reply that is there is taken, whatever method it is for. -/
theorem send_takes_reply {request m : Message} {f : Frame} {source : Source}
    {tail : List UInt8} {maxFrame : Nat} (asks : (Request.call request).frame = .ok f)
    (le : f.body.length ≤ maxLength) (steady : source.Steady)
    (bytes_eq : source.bytes = (Frame.mk .reply m.bytes).bytes ++ tail)
    (within : m.size ≤ maxFrame) (le' : m.size ≤ maxLength) (written : List UInt8) :
    ∃ rest : Source, rest.Steady ∧ rest.bytes = tail ∧
      Transport.stream.send request ⟨source, ⟨[], [], written⟩, maxFrame, false⟩
        = (.ok m.received, ⟨rest, ⟨[], [], written ++ f.bytes⟩, maxFrame, false⟩) := by
  have sent := send_faultless le source written maxFrame
  obtain ⟨rest, steady, empty, received⟩ := receive_steady
    (c := ⟨source, ⟨[], [], written ++ f.bytes⟩, maxFrame, false⟩) steady bytes_eq (Or.inl rfl)
    (Message.length_bytes_le within) (Message.length_bytes_le le')
  have exchanged : exchange f ⟨source, ⟨[], [], written⟩, maxFrame, false⟩
      = (.ok m.bytes, ⟨rest, ⟨[], [], written ++ f.bytes⟩, maxFrame, false⟩) := by
    rw [exchange, bind_apply, sent]
    exact received
  have taken := (Step.send request).take_eq ⟨source, ⟨[], [], written⟩, maxFrame, false⟩
  rw [Step.frame, asks] at taken
  dsimp only [Except.mapError] at taken
  rw [exchanged] at taken
  refine ⟨rest, steady, empty, taken.trans ?_⟩
  show (TransportError.lift (Message.decode m.bytes), _) = _
  rw [Message.decode_bytes le']
  rfl

end StreamClient

/-- What a responder answers the frame of a request with is for the method of the request, if
it is a reply. -/
theorem Responder.method_of_answer {r : Registry σ} (editing : r.Editing)
    {request reply : Message} {f g : Frame} {p p' : Responder σ}
    (asks : (Request.call request).frame = .ok f) (answered : answer r f p = (.ok (.ok g), p'))
    (kind : g.kind = .reply) (read : Message.decode g.body = .ok reply) :
    reply.method = request.method := by
  obtain ⟨body, written, rfl⟩ := map_eq_ok_iff.mp asks
  obtain ⟨reaction, reacts, framed⟩ := exists_reacts answered
  rcases reaction with e | body'
  · -- Errors are answered with refusals.
    obtain ⟨-, refused, -⟩ := Refusal.spec_frame framed.symm
    rw [refused] at kind
    cases kind
  · cases framed
    rcases reacts with _ | _ | ⟨arrives, replied, written'⟩
    calc reply.method
      _ = _ := Message.method_of_decode written' read
      _ = _ := (Session.reply_within editing replied).1
      _ = request.method := Message.method_of_decode written arrives

/-! ## Replies over either transport -/

/-- **Whose reply it is.** Within one process, a reply is for the method of its request. Over a
stream, it is what the next frame of the peer holds; it is for the method of the request if a
responder answers the request with that frame, and if it is for another, it is taken all the
same and the caller is not broken. -/
theorem Transport.replies_tagged (request : Message) :
    (∀ (σ : Type) (r : Registry σ), r.Editing → ∀ reply c c',
      (inProcess r).send request c = (.ok (.ok reply), c') → reply.method = request.method) ∧
    (∀ reply c after, stream.send request c = (.ok reply, after) →
      ∃ f g, StreamClient.GetsReply c after request reply f g ∧
        ∀ (σ : Type) (r : Registry σ), r.Editing → ∀ p p',
          Responder.answer r f p = (.ok (.ok g), p') → reply.method = request.method) ∧
    ∀ (m : Message) (f : Frame) (source : Source) (tail : List UInt8) (maxFrame : Nat),
      (Request.call request).frame = .ok f → f.body.length ≤ maxLength → source.Steady →
      source.bytes = (Frame.mk .reply m.bytes).bytes ++ tail → m.size ≤ maxFrame →
      m.size ≤ maxLength → ∃ after,
        stream.send request ⟨source, Sink.faultless, maxFrame, false⟩ = (.ok m.received, after) ∧
        m.received.method = m.method ∧ after.source.bytes = tail ∧ after.broken = false := by
  refine ⟨fun σ r editing reply c c' => method_of_send_inProcess editing, ?_, ?_⟩
  · intro reply c after sent
    obtain ⟨f, g, gets⟩ := StreamClient.exists_of_send sent
    refine ⟨f, g, gets, fun σ r editing p p' answered => ?_⟩
    exact Responder.method_of_answer editing gets.asks answered gets.kind gets.read
  · intro m f source tail maxFrame asks le steady bytes_eq within le'
    obtain ⟨rest, -, left, sent⟩ :=
      StreamClient.send_takes_reply asks le steady bytes_eq within le' []
    exact ⟨_, sent, rfl, left, rfl⟩

/-- A caller whose peer wrote a reply without entries for `calc.Add`. -/
def misroutedCaller : StreamClient where
  source := [.chunk (Frame.mk .reply (Message.empty "calc.Add").bytes).bytes]
  sink := Sink.faultless
  maxFrame := 64
  broken := false

/-- Within one process a request for `calc.Reset` gets its reply; over a stream a request for
`calc.Div` gets the one for `calc.Add`. -/
theorem replies_tagged_misrouted :
    (∃ reply c', (Transport.inProcess (resetRegistry 19)).send (.empty "calc.Reset")
        ⟨⟨["calc"]⟩, ()⟩ = (.ok (.ok reply), c') ∧ reply.method = "calc.Reset") ∧
    ∃ reply after, Transport.stream.send (.empty "calc.Div") misroutedCaller = (.ok reply, after) ∧
      reply.method = "calc.Add" ∧ after.broken = false := by
  constructor
  · obtain ⟨reply, c', sent⟩ : ∃ reply c', (Transport.inProcess (resetRegistry 19)).send
        (.empty "calc.Reset") ⟨⟨["calc"]⟩, ()⟩ = (.ok (.ok reply), c') := ⟨_, _, rfl⟩
    have tagged := (Transport.replies_tagged _).1 Unit _ (editing_resetRegistry 19) _ _ _ sent
    exact ⟨reply, c', sent, tagged⟩
  · obtain ⟨f, asks, le⟩ : ∃ f, (Request.call (.empty "calc.Div")).frame = .ok f ∧
        f.body.length ≤ maxLength := ⟨_, rfl, by decide⟩
    have steady : misroutedCaller.source.Steady :=
      Source.steady_cons_iff.mpr ⟨⟨_, _, rfl⟩, fun event mem => by cases mem⟩
    obtain ⟨after, sent, method, -, sound⟩ := (Transport.replies_tagged (.empty "calc.Div")).2.2
      (.empty "calc.Add") f misroutedCaller.source [] 64 asks le steady rfl (by decide) (by decide)
    exact ⟨_, after, sent, method, sound⟩

/-- Over a stream, a reply may be for another method than its request. -/
theorem stream_reply_untagged :
    ¬ ∀ (request reply : Message) (c after : StreamClient),
      Transport.stream.send request c = (.ok reply, after) → reply.method = request.method := by
  intro tagged
  obtain ⟨reply, after, sent, method⟩ : ∃ reply after, Transport.stream.send (.empty "calc.Div")
      misroutedCaller = (.ok reply, after) ∧ reply.method = "calc.Add" := ⟨_, _, rfl, rfl⟩
  have other := tagged _ _ _ _ sent
  rw [method] at other
  exact absurd other (by decide)

end KeyedRpc
