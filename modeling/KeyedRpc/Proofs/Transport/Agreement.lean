/-
# Transports agree

A caller cannot tell where its responder is: over a stream within one process, over the
transport to a responder in the same process, and from the session itself, a run of requests
gets answers that agree (`Transport.loopback_agrees`). Each transport is matched with the
session one answer at a time; the runs follow by one induction, and are then set side by side.
-/
import KeyedRpc.Proofs.Stream.Loopback
import KeyedRpc.Proofs.Transport.InProcess

namespace KeyedRpc

variable {σ : Type}

/-! ## Answers within one process -/

namespace Transport

/-- **In the same process**, answers are those of the session as they are received. -/
theorem ask_inProcess {r : Registry σ} {max : Nat} {request : Request} {answer : Answer}
    {c c' : Responder σ} (blind : r.Blind) (request_fits : request.Fits max)
    (writable : answer.Writable)
    (told : (direct r).ask request c = (.ok answer, c')) :
    (inProcess r).ask request c = (.ok answer.received, c') := by
  cases request with
  | load module version =>
    have same : (inProcess r).ask (.load module version) c
        = (direct r).ask (.load module version) c := rfl
    rw [same, told]
    rcases ask_load_direct_iff.mp told with ⟨session, -, rfl, -⟩ | ⟨e, -, rfl, -⟩
    · rfl
    · rfl
  | call m =>
    -- The session answers the request as it is received.
    rw [← ask_received blind, Request.received] at told
    obtain ⟨result, state, answered, rfl, rfl⟩ := ask_call_direct_iff.mp told
    have sent := send_inProcess (Message.carried_eq request_fits.2) answered
    have ask_eq : (inProcess r).ask (.call m) c
        = (((inProcess r).send m c).1.map Answer.ofSend, ((inProcess r).send m c).2) :=
      map_apply _ _ _
    rw [ask_eq, sent]
    rcases result with e | reply
    · rfl
    · show (Except.ok (Answer.ofSend reply.carried), _) = _
      rw [Message.carried_eq writable]
      rfl

/-- What a request makes of the end of its exchange. -/
def heard : Request → Except TransportError (List UInt8) → Answer
  | .load _ _, result => Answer.ofLoad (result.map fun _ => ())
  | .call _, result =>
    Answer.ofSend (result.bind fun body => TransportError.lift (Message.decode body))

/-- A request with a frame is asked by exchanging the frame. -/
theorem ask_ofExchange {τ : Type}
    (exchange : Frame → ExceptT TransportError (Serving τ) (List UInt8)) {request : Request}
    {f : Frame} (frame : request.frame = .ok f) (s : τ) :
    (ofExchange exchange).ask request s
      = ((exchange f s).1.map (heard request), (exchange f s).2) := by
  cases request with
  | load module version =>
    rw [ask, run_load_ofExchange, frame]
    dsimp only
    rw [map_apply, map_apply]
    show (((exchange f s).1.map _).map _, _) = _
    cases (exchange f s).1 <;> rfl
  | call m =>
    rw [ask, run_send_ofExchange, frame]
    dsimp only
    rw [map_apply, map_apply]
    show (((exchange f s).1.map _).map _, _) = _
    cases (exchange f s).1 <;> rfl

/-- A request hears the answer that it was given. -/
theorem heard_outcome {r : Registry σ} {max : Nat} {request : Request} {answer : Answer}
    {c c' : Responder σ} (told : (direct r).ask request c = (.ok answer, c'))
    (fits : answer.Fits max) : heard request answer.outcome = answer.received := by
  cases request with
  | load module version =>
    rcases ask_load_direct_iff.mp told with ⟨session, -, rfl, -⟩ | ⟨e, -, rfl, -⟩
    · rfl
    · rfl
  | call m =>
    obtain ⟨result, state, -, rfl, -⟩ := ask_call_direct_iff.mp told
    rcases result with e | reply
    · rfl
    · have read : Message.decode reply.bytes = .ok reply.received := Message.decode_bytes fits.2
      show Answer.ofSend (TransportError.lift (Message.decode reply.bytes)) = _
      rw [read]
      rfl

/-- **Over a stream**, answers are those of the session as they are received, and the stream
is quiet again. -/
theorem ask_loopback {r : Registry σ} {max maxFrame : Nat} {l : Loopback σ} {request : Request}
    {answer : Answer} {c c' : Responder σ} (blind : r.Blind) (request_fits : request.Fits max)
    (answer_fits : answer.Fits maxFrame) (quiet : l.Quiet maxFrame c)
    (told : (direct r).ask request c = (.ok answer, c')) :
    ∃ l', (loopback r max).ask request l = (.ok answer.received, l') ∧ l'.Quiet maxFrame c' := by
  obtain ⟨f, frame, within, le, asked⟩ := Request.ofFrame_of_fits request_fits
  have told_received : (direct r).ask request.received c = (.ok answer, c') := by
    rw [ask_received blind, told]
  obtain ⟨g, answered, answers, within', le', outcome⟩ :=
    Responder.answer_of_ask asked told_received answer_fits
  obtain ⟨l', exchanged, quiet⟩ :=
    Loopback.exchange_quiet quiet within le answered answers within' le'
  refine ⟨l', ?_, quiet⟩
  rw [loopback, ask_ofExchange _ frame, exchanged, outcome]
  show (Except.ok (heard request answer.outcome), l') = _
  rw [heard_outcome told answer_fits]

/-! ## Whole runs -/

/-- Sessions on registries that are alike give answers that agree. -/
theorem alike_matchedBy {r r' : Registry σ} (alike : r.Alike r') :
    (direct r).MatchedBy (direct r') Eq Answer.Agrees (fun _ => True) (fun _ => True) := by
  rintro request c next _ answer - - rfl told
  obtain ⟨answer', told', agrees⟩ := ask_alike alike told
  exact ⟨answer', next, told', agrees, rfl⟩

/-- A transport within one process gives the answers of the session, as they are received. -/
theorem inProcess_matchedBy {r : Registry σ} (blind : r.Blind) (max : Nat) :
    (direct r).MatchedBy (inProcess r) Eq (fun a b => b = a.received) (Request.Fits max)
      Answer.Writable := by
  rintro request c next _ answer request_fits writable rfl told
  exact ⟨answer.received, next, ask_inProcess blind request_fits writable told, rfl, rfl⟩

/-- A transport over a stream without failures gives the answers of the session, as they are
received. -/
theorem loopback_matchedBy {r : Registry σ} (blind : r.Blind) (max maxFrame : Nat) :
    (direct r).MatchedBy (loopback r max) (fun c l => l.Quiet maxFrame c)
      (fun a b => b = a.received) (Request.Fits max) (Answer.Fits maxFrame) := by
  intro request c next l answer request_fits answer_fits quiet told
  obtain ⟨l', heard, quiet⟩ := ask_loopback blind request_fits answer_fits quiet told
  exact ⟨answer.received, l', heard, rfl, quiet⟩

/-- **A run of requests gets answers that agree**, whether it is made over a stream within one
process, over the transport within one process, or on the session itself. At each step the
three responders are in the same state, and the caller on the stream is not broken. The
responders are set up alike, but each finds its own call stacks. No step stops a responder;
the requests fit the responder on the stream, and its answers fit the caller. -/
theorem loopback_agrees {r r' r'' : Registry σ} (alike : r.Alike r') (alike' : r'.Alike r'')
    (blind : r.Blind) {max maxFrame : Nat} (sizes : List Nat) {requests : List Request}
    {state : σ} {told told' : List (Answer × Responder σ)}
    (run : (direct r).trace requests (Responder.start state) = .ok told)
    (run' : (direct r').trace requests (Responder.start state) = .ok told')
    (requests_fit : ∀ request ∈ requests, request.Fits max)
    (answers_fit : ∀ turn ∈ told, turn.1.Fits maxFrame)
    (writable : ∀ turn ∈ told', turn.1.Writable) :
    ∃ streamed carried plain,
      (loopback r max).trace requests { Loopback.start maxFrame state with sizes }
        = .ok streamed ∧
      (inProcess r').trace requests (Responder.start state) = .ok carried ∧
      (direct r'').trace requests (Responder.start state) = .ok plain ∧
      List.Forall₂ (fun a b => a.1.Agrees b.1 ∧ a.2.responder = b.2) streamed carried ∧
      List.Forall₂ (fun a b => a.1.Agrees b.1 ∧ a.2 = b.2) carried plain ∧
      ∀ turn ∈ streamed, turn.2.client.broken = false := by
  have quiet : Loopback.Quiet { Loopback.start maxFrame state with sizes } maxFrame
      (Responder.start state) := ⟨rfl, rfl, rfl⟩
  -- The given runs are matched by those over the transports, and by each other.
  obtain ⟨streamed, run_streamed, heard⟩ :=
    (loopback_matchedBy blind max maxFrame).trace requests_fit answers_fit quiet run
  obtain ⟨carried, run_carried, heard'⟩ :=
    (inProcess_matchedBy (alike.blind blind) max).trace requests_fit writable rfl run'
  obtain ⟨_, run_told', agree⟩ :=
    (alike_matchedBy alike).trace (by simp) (by simp) rfl run
  obtain ⟨plain, run_plain, agree'⟩ :=
    (alike_matchedBy alike').trace (by simp) (by simp) rfl run'
  rw [run'] at run_told'
  cases run_told'
  -- What was heard over the stream, beside what the session of the second responder says.
  have beside : List.Forall₂
      (fun a b => b.1.Agrees a.1.received ∧ b.2.Quiet maxFrame a.2) told' streamed := by
    refine forall₂_join ?_ agree heard
    rintro ⟨a, c⟩ ⟨b, _⟩ ⟨_, l⟩ ⟨agrees, rfl⟩ ⟨rfl, quiet⟩
    exact ⟨agrees.received_left.received_right, quiet⟩
  refine ⟨streamed, carried, plain, run_streamed, run_carried, run_plain, ?_, ?_, ?_⟩
  -- What is heard over either transport agrees with what the second session says.
  · refine forall₂_join ?_ beside heard'
    rintro ⟨a, c⟩ ⟨b, l⟩ ⟨_, _⟩ ⟨agrees, quiet⟩ ⟨rfl, rfl⟩
    exact ⟨agrees, quiet.responder⟩
  · refine forall₂_join ?_ heard' agree'
    rintro ⟨a, c⟩ ⟨_, _⟩ ⟨b, _⟩ ⟨rfl, rfl⟩ ⟨agrees, rfl⟩
    exact ⟨agrees.received_left, rfl⟩
  · have quiet : List.Forall₂ (fun a _ => a.2.client.broken = false) streamed streamed := by
      refine forall₂_join ?_ beside beside
      rintro ⟨a, c⟩ ⟨b, l⟩ ⟨_, _⟩ ⟨_, quiet⟩ _
      rw [quiet.client]
    exact List.forall₂_same.mp quiet

/-! ## A run -/

/-- A handler that counts its requests and sends back what they hold. -/
def countingEcho : Handler Nat := fun request => do
  Filling.aside (modify (· + 1))
  Filling.change (·.setAll request.entries.entries)

/-- A registry with a method that fails and a handler of messages. -/
def sumsRegistry (stackAt : Nat → Option String) : Registry Nat :=
  (((Registry.empty stackAt).registerModule "sums" "1").register ⟨"sums", "Fail", [], .unit⟩
    fun _ => throw (.fault "no")).registerRaw "sums" "Echo" countingEcho

/-- Requests that are answered by a reply, by a report, and by refusals of two kinds. -/
def sumsRequests : List Request :=
  [.call (Message.empty "sums.Fail"), .load "sums" "1", .call (Message.empty "sums.Fail"),
    .call (Message.empty "sums.Echo"), .load "sums" "2"]

theorem blind_sumsRegistry (stackAt : Nat → Option String) : (sumsRegistry stackAt).Blind := by
  refine (((Registry.blind_withReplyLimit _ stackAt).registerModule "sums" "1").register
    ⟨"sums", "Fail", [], .unit⟩ fun _ => throw (.fault "no")).registerRaw "sums" "Echo" ?_
  intro request request' same
  unfold countingEcho
  rw [(Message.beq_iff.mp same).2]

/-- The responder behind the stream reports a call stack, and the others do not. -/
theorem loopback_agrees_sums :
    ∃ streamed carried plain,
      (loopback (sumsRegistry fun _ => some "0: serve") 64).trace sumsRequests
          { Loopback.start 80 0 with sizes := [0, 6, 2] } = .ok streamed ∧
      (inProcess (sumsRegistry fun _ => none)).trace sumsRequests (Responder.start 0)
        = .ok carried ∧
      (direct (sumsRegistry fun _ => some "")).trace sumsRequests (Responder.start 0)
        = .ok plain ∧
      List.Forall₂ (fun a b => a.1.Agrees b.1 ∧ a.2.responder = b.2) streamed carried ∧
      List.Forall₂ (fun a b => a.1.Agrees b.1 ∧ a.2 = b.2) carried plain ∧
      ∀ turn ∈ streamed, turn.2.client.broken = false := by
  obtain ⟨told, run, fit⟩ : ∃ told, (direct (sumsRegistry fun _ => some "0: serve")).trace
      sumsRequests (Responder.start 0) = .ok told ∧ ∀ turn ∈ told, turn.1.Fits 80 :=
    ⟨_, rfl, by decide⟩
  obtain ⟨told', run', writable⟩ : ∃ told, (direct (sumsRegistry fun _ => none)).trace
      sumsRequests (Responder.start 0) = .ok told ∧ ∀ turn ∈ told, turn.1.Writable :=
    ⟨_, rfl, by decide⟩
  have alike : ∀ f g, (sumsRegistry f).Alike (sumsRegistry g) := fun _ _ => ⟨rfl, rfl, rfl⟩
  exact loopback_agrees (alike _ _) (alike _ _) (blind_sumsRegistry _) [0, 6, 2] run run'
    (by decide) fit writable

end Transport

end KeyedRpc
