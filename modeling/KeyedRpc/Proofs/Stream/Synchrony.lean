/-
# A caller keeps in step with its stream

Whatever a stream does, a caller that is not broken has taken one whole answer off it for
each frame that it wrote, and a caller that is broken leaves it alone (`turns_in_step`).
Each failure in between has to set the mark: that is the case split over the ends of an
exchange, which is made once (`exchange_in_step`).
-/
import KeyedRpc.Proofs.Stream.Frames
import KeyedRpc.Stream.Client

namespace KeyedRpc

/-! ## Answers -/

namespace Frame

/-- Whether a frame answers a caller. -/
def Answers (f : Frame) : Prop :=
  f.kind = .reply ∨ f.kind = .refused

/-- How an exchange ends with an answer: the body of a reply, or the error of a refusal. -/
def outcome (f : Frame) : Except TransportError (List UInt8) :=
  match f.kind with
  | .refused =>
    match Refusal.read f.body with
    | .ok e => .error e
    | .error e => .error (.codec e)
  | _ => .ok f.body

end Frame

namespace StreamClient

/-! ## One exchange -/

/-- A caller that is broken neither writes nor reads. -/
theorem exchange_broken {c : StreamClient} (broken : c.broken = true) (f : Frame) :
    exchange f c = (.error desynchronised, c) := by
  rw [exchange, bind_apply, send, if_pos broken]

/-- A frame is sent whole, or the caller is broken after it. -/
theorem send_in_step {f : Frame} {c after : StreamClient} {result : Except TransportError Unit}
    (h : send f c = (result, after)) (sound : after.broken = false) :
    c.broken = false ∧ result = .ok () ∧ f.body.length ≤ maxLength ∧
      after.source = c.source ∧ after.sink.written = c.sink.written ++ f.bytes := by
  unfold send at h
  by_cases broken : c.broken = true
  · rw [if_pos broken] at h
    cases h
    rw [broken] at sound
    cases sound
  · rw [if_neg broken] at h
    rcases write : f.write .blocking c.sink with ⟨e | _, sink⟩
    · rw [write] at h
      cases h
      cases sound
    · rw [write] at h
      cases h
      exact ⟨sound, rfl, Frame.le_of_write write, rfl, Frame.written_write write⟩

/-- An answer is taken off the stream whole, or the caller is broken after it. -/
theorem receive_in_step {c after : StreamClient} {result : Except TransportError (List UInt8)}
    (h : receive c = (result, after)) (sound : after.broken = false) :
    c.broken = false ∧ after.sink = c.sink ∧
      ∃ g : Frame, g.Answers ∧ g.body.length ≤ maxLength ∧ result = g.outcome ∧
        c.source.bytes = g.bytes ++ after.source.bytes := by
  unfold receive at h
  rcases read : Frame.read .blocking c.maxFrame c.source with ⟨e | _ | g, source⟩
  · rw [read] at h
    cases h
    cases sound
  · rw [read] at h
    cases h
    cases sound
  · rw [read] at h
    dsimp only at h
    obtain ⟨split_bytes, -, le⟩ := Frame.bytes_read read
    cases kind : g.kind with
    | call | load =>
      -- Such a frame is no answer.
      rw [kind] at h
      cases h
      cases sound
    | reply =>
      rw [kind] at h
      cases h
      exact ⟨sound, rfl, g, Or.inl kind, le, by rw [Frame.outcome, kind], split_bytes⟩
    | refused =>
      rw [kind] at h
      dsimp only at h
      -- A refusal that cannot be read is an answer as well: its frame was taken whole.
      rcases described : Refusal.read g.body with e | e
      · rw [described] at h
        cases h
        have outcome : g.outcome = .error (.codec e) := by
          rw [Frame.outcome, kind]
          dsimp only
          rw [described]
        exact ⟨sound, rfl, g, Or.inr kind, le, outcome.symm, split_bytes⟩
      · rw [described] at h
        cases h
        have outcome : g.outcome = .error e := by
          rw [Frame.outcome, kind]
          dsimp only
          rw [described]
        exact ⟨sound, rfl, g, Or.inr kind, le, outcome.symm, split_bytes⟩

/-- **An exchange that does not break the caller** wrote its frame, and took one answer off
the stream, which decides how the exchange ends. -/
theorem exchange_in_step {f : Frame} {c after : StreamClient}
    {result : Except TransportError (List UInt8)} (h : exchange f c = (result, after))
    (sound : after.broken = false) :
    c.broken = false ∧ f.body.length ≤ maxLength ∧
      after.sink.written = c.sink.written ++ f.bytes ∧
      ∃ g : Frame, g.Answers ∧ g.body.length ≤ maxLength ∧ result = g.outcome ∧
        c.source.bytes = g.bytes ++ after.source.bytes := by
  rw [exchange, bind_apply] at h
  rcases send : StreamClient.send f c with ⟨e | _, sent⟩
  · rw [send] at h
    cases h
    obtain ⟨-, ok, -⟩ := send_in_step send sound
    cases ok
  · rw [send] at h
    -- Nothing that is received mends a caller, so it was whole after it had sent.
    obtain ⟨whole, sink, g, answers, le, said, bytes⟩ := receive_in_step h sound
    obtain ⟨sound, -, le', source, written⟩ := send_in_step send whole
    rw [source] at bytes
    rw [← sink] at written
    exact ⟨sound, le', written, g, answers, le, said, bytes⟩

/-! ## Steps of a caller -/

/-- What a caller may do next. -/
inductive Step where
  /-- Load a module under a version. -/
  | load (module version : String)
  /-- Call a method. -/
  | call (m : Method) (args : Args m.args)
  /-- Send a request and wait for its reply. -/
  | send (request : Message)

namespace Step

/-- How a step may end. -/
@[reducible] def Answer : Step → Type
  | load _ _ => Except TransportError Unit
  | call m _ => Except CallError m.output.Carrier
  | send _ => Except TransportError Message

/-- Takes a step. -/
def take : (step : Step) → StreamClient → step.Answer × StreamClient
  | load module version, c => Transport.stream.load module version c
  | call m args, c => Transport.stream.call m args c
  | send request, c => Transport.stream.send request c

/-- The end of a step whose request, or its reply, does not get through. -/
def failed : (step : Step) → TransportError → step.Answer
  | load _ _, e => .error e
  | call _ _, e => .error (.transport e)
  | send _, e => .error e

/-- The end of a step that gets the body of a reply. -/
def accept : (step : Step) → List UInt8 → step.Answer
  | load _ _, _ => .ok ()
  | call m _, body =>
    ((TransportError.lift (Message.decode body)).mapError .transport).bind m.result
  | send _, body => TransportError.lift (Message.decode body)

/-- The end of a step whose exchange has come to an end. -/
def answer (step : Step) : Except TransportError (List UInt8) → step.Answer
  | .ok body => step.accept body
  | .error e => step.failed e

/-- The frame that a step writes. A step whose request cannot be built or encoded has none,
and ends with that failure. -/
def frame : (step : Step) → Except step.Answer Frame
  | load module version =>
    (Request.load module version).frame.mapError fun e => .error (.codec e)
  | call m args =>
    match m.request args with
    | .ok request => (Request.call request).frame.mapError fun e => .error (.transport (.codec e))
    | .error e => .error (.error (.message e))
  | send request => (Request.call request).frame.mapError fun e => .error (.codec e)

/-- A step without a frame is over at once; any other is an exchange. -/
theorem take_eq (step : Step) (c : StreamClient) :
    step.take c = match step.frame with
      | .error answer => (answer, c)
      | .ok f => (step.answer (exchange f c).1, (exchange f c).2) := by
  -- Each kind of step handles the end of its exchange in its own way.
  cases step with
  | load module version =>
    show ((Transport.stream.load module version).run : StreamClient → _) c = _
    rw [Transport.stream, Transport.run_load_ofExchange, frame]
    cases (Request.load module version).frame with
    | error e => rfl
    | ok f =>
      show ((exchange f c).1.map _, _) = (answer (load module version) (exchange f c).1, _)
      cases (exchange f c).1 <;> rfl
  | call m args =>
    show ((Transport.stream.call m args).run : StreamClient → _) c = _
    rw [Transport.run_call, frame]
    cases m.request args with
    | error e => rfl
    | ok request =>
      dsimp only
      rw [Transport.stream, Transport.run_send_ofExchange]
      cases (Request.call request).frame with
      | error e => rfl
      | ok f =>
        show ((((exchange f c).1.bind _).mapError _).bind _, _)
          = (answer (call m args) (exchange f c).1, _)
        cases (exchange f c).1 <;> rfl
  | send request =>
    show ((Transport.stream.send request).run : StreamClient → _) c = _
    rw [Transport.stream, Transport.run_send_ofExchange, frame]
    cases (Request.call request).frame with
    | error e => rfl
    | ok f =>
      show ((exchange f c).1.bind _, _) = (answer (send request) (exchange f c).1, _)
      cases (exchange f c).1 <;> rfl

end Step

/-- A step that was taken: the caller before and after it, and how it ended. -/
structure Turn where
  step : Step
  before : StreamClient
  answer : step.Answer
  after : StreamClient

namespace Turn

/-- A turn is idle if its step has no frame: it ends with the failure to make its request,
and the stream is not touched. -/
def Idle (t : Turn) : Prop :=
  t.step.frame = .error t.answer ∧ t.after = t.before

/-- A turn exchanges a frame for an answer if it writes the whole frame of its step, takes
the answer and no byte more off the stream, and ends as the answer says. -/
structure Exchanges (t : Turn) (f g : Frame) : Prop where
  asks : t.step.frame = .ok f
  written : t.after.sink.written = t.before.sink.written ++ f.bytes
  answers : g.Answers
  taken : t.before.source.bytes = g.bytes ++ t.after.source.bytes
  ends : t.answer = t.step.answer g.outcome
  fit : f.body.length ≤ maxLength ∧ g.body.length ≤ maxLength

/-- A turn is barred if the stream is not touched, and the connection counts as lost unless
the request cannot be made. -/
def Barred (t : Turn) : Prop :=
  t.after = t.before ∧
    (t.step.frame = .error t.answer ∨ t.answer = t.step.failed desynchronised)

end Turn

/-- A caller takes a step. -/
def turn (c : StreamClient) (step : Step) : Turn :=
  ⟨step, c, (step.take c).1, (step.take c).2⟩

/-- A caller takes steps one after another. -/
def turns (c : StreamClient) : List Step → List Turn
  | [] => []
  | step :: steps => c.turn step :: turns (c.turn step).after steps

/-- The caller that has taken steps. -/
def after (c : StreamClient) : List Step → StreamClient
  | [] => c
  | step :: steps => after (c.turn step).after steps

/-- Turns are in step with the frames sent and received if each turn exchanges the next
frame of the one list for the next of the other, or is idle. -/
inductive InStep : List Turn → (sent received : List Frame) → Prop where
  | nil : InStep [] [] []
  | idle {t : Turn} {turns : List Turn} {sent received : List Frame} (idle : t.Idle)
      (rest : InStep turns sent received) : InStep (t :: turns) sent received
  | exchange {t : Turn} {f g : Frame} {turns : List Turn} {sent received : List Frame}
      (exchanges : t.Exchanges f g) (rest : InStep turns sent received) :
      InStep (t :: turns) (f :: sent) (g :: received)

/-! ## One step -/

/-- **A step that leaves the caller whole** is idle, or exchanges its frame for an answer. -/
theorem turn_sound {c : StreamClient} {step : Step}
    (sound : (c.turn step).after.broken = false) :
    c.broken = false ∧ ((c.turn step).Idle ∨ ∃ f g, (c.turn step).Exchanges f g) := by
  have taken := step.take_eq c
  unfold turn at sound ⊢
  cases asked : step.frame with
  | error answer =>
    rw [asked] at taken
    rw [taken] at sound ⊢
    exact ⟨sound, Or.inl ⟨asked, rfl⟩⟩
  | ok f =>
    rw [asked] at taken
    rw [taken] at sound ⊢
    obtain ⟨whole, fit, written, g, answers, fit', ends, bytes⟩ := exchange_in_step rfl sound
    exact ⟨whole, Or.inr ⟨f, g, asked, written, answers, bytes, congrArg step.answer ends,
      fit, fit'⟩⟩

/-- A step of a broken caller is barred. -/
theorem turn_broken {c : StreamClient} (broken : c.broken = true) (step : Step) :
    (c.turn step).Barred := by
  have taken := step.take_eq c
  unfold turn
  rw [taken]
  cases asked : step.frame with
  | error answer => exact ⟨rfl, Or.inl asked⟩
  | ok f =>
    dsimp only
    rw [exchange_broken broken]
    exact ⟨rfl, Or.inr rfl⟩

/-! ## Whole runs -/

/-- A run that leaves the caller whole is in step with what it wrote and what it took off
the stream. -/
theorem exists_in_step {c : StreamClient} {steps : List Step}
    (sound : (c.after steps).broken = false) :
    c.broken = false ∧ ∃ sent received, InStep (c.turns steps) sent received ∧
      (c.after steps).sink.written = c.sink.written ++ sent.flatMap Frame.bytes ∧
      c.source.bytes = received.flatMap Frame.bytes ++ (c.after steps).source.bytes := by
  induction steps generalizing c with
  | nil => exact ⟨sound, [], [], InStep.nil, (List.append_nil _).symm, rfl⟩
  | cons step steps ih =>
    obtain ⟨whole, sent, received, rest, written, bytes⟩ := ih (c := (c.turn step).after) sound
    rcases turn_sound whole with ⟨whole, first | ⟨f, g, first⟩⟩
    · -- An idle turn adds nothing to what was written or taken.
      have same : (c.turn step).after = c := first.2
      refine ⟨whole, sent, received, InStep.idle first rest, ?_, ?_⟩
      · rw [after, written, same]
      · rw [after, ← bytes, same]
    · -- Any other adds a frame to either.
      refine ⟨whole, f :: sent, g :: received, InStep.exchange first rest, ?_, ?_⟩
      · rw [after, written, first.written, List.flatMap_cons, List.append_assoc]
        rfl
      · rw [List.flatMap_cons, List.append_assoc, after, ← bytes]
        exact first.taken

/-- The answers that a run got are the first frames of its input. -/
theorem InStep.received_fit {turns : List Turn} {sent received : List Frame}
    (h : InStep turns sent received) : ∀ g ∈ received, g.body.length ≤ maxLength := by
  induction h with
  | nil => simp
  | idle _ _ ih => exact ih
  | exchange exchanges _ ih => exact List.forall_mem_cons.mpr ⟨exchanges.fit.2, ih⟩

/-- A broken caller stays as it is, and each of its steps is barred. -/
theorem turns_broken {c : StreamClient} (broken : c.broken = true) (steps : List Step) :
    c.after steps = c ∧ ∀ t ∈ c.turns steps, t.before = c ∧ t.Barred := by
  induction steps with
  | nil => exact ⟨rfl, fun t mem => by cases mem⟩
  | cons step steps ih =>
    have barred := turn_broken broken step
    have same : (c.turn step).after = c := barred.1
    rw [after, turns, same]
    exact ⟨ih.1, List.forall_mem_cons.mpr ⟨⟨rfl, barred⟩, ih.2⟩⟩

/-- **A caller that is not broken is in step with its stream.** Each step so far was idle,
or wrote its frame whole and took the next frame of the input, whole, as its answer; where
these frames end is told by the bytes of the input alone. **A caller that is broken** stays
so, and leaves the stream alone. -/
theorem turns_in_step (c : StreamClient) (steps : List Step) :
    ((c.after steps).broken = false →
      ∃ sent received, InStep (c.turns steps) sent received ∧
        (c.after steps).sink.written = c.sink.written ++ sent.flatMap Frame.bytes ∧
        c.source.bytes = received.flatMap Frame.bytes ++ (c.after steps).source.bytes ∧
        ∀ frames rest, frames.length = received.length →
          (∀ f ∈ frames, f.body.length ≤ maxLength) →
          c.source.bytes = frames.flatMap Frame.bytes ++ rest → frames = received) ∧
    ((c.after steps).broken = true → ∀ later,
      (c.after steps).after later = c.after steps ∧
        ∀ t ∈ (c.after steps).turns later, t.before = c.after steps ∧ t.Barred) := by
  constructor
  · intro sound
    -- Two lists of frames that lead the input, equally many, are the same.
    obtain ⟨-, sent, received, inStep, written, bytes⟩ := exists_in_step sound
    refine ⟨sent, received, inStep, written, bytes, ?_⟩
    intro frames rest length fit same
    exact (Frame.flatMap_bytes_append_inj fit inStep.received_fit length
      (same.symm.trans bytes)).1
  · intro broken later
    exact turns_broken broken later

/-- A caller whose input is an empty reply, cut up and interrupted, and then a byte that
announces no frame. -/
def interruptedCaller : StreamClient where
  source := [.chunk [0x81, 0, 0], .fault ⟨.interrupted, "interrupted"⟩, .chunk [0, 0, 7]]
  sink := ⟨[.accept 1, .accept 3], [], []⟩
  maxFrame := 64
  broken := false

/-- The first load is answered by the reply. The second is not answered, and what comes after
it leaves the stream alone. -/
theorem turns_in_step_interrupted :
    (∃ sent received, InStep (interruptedCaller.turns [.load "sums" "1"]) sent received ∧
      [0x81, 0, 0, 0, 0, 7]
        = received.flatMap Frame.bytes
          ++ (interruptedCaller.after [.load "sums" "1"]).source.bytes) ∧
    ∀ t ∈ (interruptedCaller.after [.load "sums" "1", .load "sums" "2"]).turns
        [.load "sums" "3", .send (Message.empty "sums.Add")],
      t.before = interruptedCaller.after [.load "sums" "1", .load "sums" "2"] ∧ t.Barred := by
  constructor
  · obtain ⟨sent, received, inStep, -, bytes, -⟩ :=
      (turns_in_step interruptedCaller [.load "sums" "1"]).1 (by decide)
    exact ⟨sent, received, inStep, bytes⟩
  · exact ((turns_in_step interruptedCaller [.load "sums" "1", .load "sums" "2"]).2
      (by decide) _).2

end StreamClient

end KeyedRpc
