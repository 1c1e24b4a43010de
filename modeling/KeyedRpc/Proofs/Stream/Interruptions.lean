/-
# Interruptions are not noticed

A caller that waits for its stream goes on after an interruption where it was, with the bytes
that it had read or written until then. So interruptions of reading and writing, wherever they
come, change nothing that can be seen of the caller's steps (`StreamClient.turns_interrupted`).
Both runs are compared with the one on the stream without any interruption, where each
operation does what it did before (`Source.readExact_calm`, `WriteEvent.offer_calm`). A flush
is not tried again, so interruptions of flushes are none of these.
-/
import KeyedRpc.Proofs.Stream.Omissions
import KeyedRpc.Proofs.Stream.Synchrony

namespace KeyedRpc

/-! ## Streams without interruptions -/

/-- Whether a read is interrupted. -/
def ReadEvent.isInterruption : ReadEvent → Bool
  | chunk _ => false
  | fault f => f.isInterruption

/-- Whether a write is interrupted. -/
def WriteEvent.isInterruption : WriteEvent → Bool
  | accept _ => false
  | fault f => f.isInterruption

/-- Lists that differ in members with a property are the same without all of these. -/
theorem Omits.filter_eq {α : Type} {p : α → Bool} {l k : List α}
    (h : Omits (fun a => p a = true) l k) :
    l.filter (fun a => !p a) = k.filter (fun a => !p a) := by
  induction h with
  | nil => rfl
  | keep _ ih => rw [List.filter_cons, List.filter_cons, ih]
  | leaveOut property _ ih => rw [List.filter_cons_of_neg (by simp [property]), ih]

namespace Source

/-- A stream without the interruptions of its reads. -/
def calm (source : Source) : Source :=
  source.filter (!·.isInterruption)

/-- A chunk is no interruption. -/
@[simp] theorem calm_chunk (bytes : List UInt8) (rest : Source) :
    calm (.chunk bytes :: rest) = .chunk bytes :: calm rest := rfl

/-- An interruption of a read is left out. -/
theorem calm_interruption {f : StreamFault} (interruption : f.isInterruption = true)
    (rest : Source) : calm (.fault f :: rest) = calm rest :=
  List.filter_cons_of_neg (by simp [ReadEvent.isInterruption, interruption])

/-- Any other failure of a read stays. -/
theorem calm_fault {f : StreamFault} (lasting : f.isInterruption = false) (rest : Source) :
    calm (.fault f :: rest) = .fault f :: calm rest :=
  List.filter_cons_of_pos (by simp [ReadEvent.isInterruption, lasting])

/-- The rest of a chunk is put back in front of the stream without interruptions. -/
theorem calm_leave (bytes : List UInt8) (rest : Source) :
    (leave bytes rest).calm = leave bytes rest.calm := by
  cases bytes with
  | nil => rfl
  | cons b bytes => rfl

/-- A style that tries the read of a byte again reads the same byte without interruptions. -/
theorem readByte_calm {style : StreamStyle} (retries : style.retriesByte = true)
    (source : Source) :
    source.calm.readByte style
      = ((source.readByte style).1, (source.readByte style).2.calm) := by
  fun_induction readByte style source with
  | case1 => rfl
  | case2 rest => rfl
  | case3 b bytes rest =>
    rw [calm_chunk, readByte, calm_leave]
  | case4 f rest retry ih =>
    rw [calm_interruption (Bool.and_eq_true_iff.mp retry).2, ih]
  | case5 f rest noRetry =>
    have lasting : f.isInterruption = false := by simpa [retries] using noRetry
    rw [calm_fault lasting, readByte, if_neg (by simp [lasting])]

/-- All styles read the same bytes without interruptions. -/
theorem readExact_calm (style : StreamStyle) (source : Source) (n : Nat) :
    source.calm.readExact style n
      = ((source.readExact style n).1, (source.readExact style n).2.calm) := by
  fun_induction readExact style source n with
  | case1 source => rw [readExact]
  | case2 n => rfl
  | case3 n rest => rfl
  | case4 n b bytes rest taken short more rest' read ih =>
    rw [read] at ih
    rw [calm_chunk, readExact, if_pos short, ih]
  | case5 n b bytes rest taken short f rest' read ih =>
    rw [read] at ih
    rw [calm_chunk, readExact, if_pos short, ih]
  | case6 n b bytes rest taken long =>
    rw [calm_chunk, readExact, if_neg long, calm_leave]
  | case7 n f rest interruption ih =>
    rw [calm_interruption interruption, ih]
  | case8 n f rest lasting =>
    have lasting : f.isInterruption = false := by simpa using lasting
    rw [calm_fault lasting, readExact, if_neg (by simp [lasting])]

end Source

/-- Frames are read the same without interruptions, if the read of a byte is tried again. -/
theorem Frame.read_calm {style : StreamStyle} (retries : style.retriesByte = true) (max : Nat)
    (source : Source) :
    Frame.read style max source.calm
      = ((Frame.read style max source).1, (Frame.read style max source).2.calm) := by
  unfold Frame.read
  rw [Source.readByte_calm retries]
  rcases source.readByte style with ⟨e | _ | code, rest⟩
  · rfl
  · rfl
  · dsimp only
    rcases FrameKind.ofCode? code with _ | kind
    · rfl
    · dsimp only
      rw [Source.readExact_calm]
      rcases rest.readExact style 4 with ⟨e | bytes, rest⟩
      · rfl
      · dsimp only
        by_cases exceeds : max < ofLittleEndian bytes
        · rw [if_pos exceeds, if_pos exceeds]
        · rw [if_neg exceeds, if_neg exceeds, Source.readExact_calm]
          rcases rest.readExact style (ofLittleEndian bytes) with ⟨e | body, rest⟩ <;> rfl

/-! ## Writing without interruptions -/

namespace WriteEvent

/-- The events of a stream without the interruptions of its writes. -/
def calm (events : List WriteEvent) : List WriteEvent :=
  events.filter (!·.isInterruption)

/-- A write that takes bytes is no interruption. -/
@[simp] theorem calm_accept (n : Nat) (rest : List WriteEvent) :
    calm (.accept n :: rest) = .accept n :: calm rest := rfl

/-- An interruption of a write is left out. -/
theorem calm_interruption {f : StreamFault} (interruption : f.isInterruption = true)
    (rest : List WriteEvent) : calm (.fault f :: rest) = calm rest :=
  List.filter_cons_of_neg (by simp [isInterruption, interruption])

/-- Any other failure of a write stays. -/
theorem calm_fault {f : StreamFault} (lasting : f.isInterruption = false)
    (rest : List WriteEvent) : calm (.fault f :: rest) = .fault f :: calm rest :=
  List.filter_cons_of_pos (by simp [isInterruption, lasting])

/-- The same bytes are taken without interruptions. -/
theorem offer_calm (style : StreamStyle) (events : List WriteEvent) (bytes : List UInt8) :
    offer style (calm events) bytes = ((offer style events bytes).1,
      (offer style events bytes).2.1, calm (offer style events bytes).2.2) := by
  induction events generalizing bytes with
  | nil => cases bytes <;> rfl
  | cons event rest ih =>
    rcases bytes with _ | ⟨b, bytes⟩
    · rw [offer, offer]
    · rcases event with (_ | n) | f
      · rfl
      · rw [calm_accept, offer, offer, ih]
      · rcases retry : f.isInterruption with _ | _
        · rw [calm_fault retry, offer_fault, offer_fault, retry]
          rfl
        · rw [calm_interruption retry, ih, offer_fault, if_pos retry]

end WriteEvent

namespace Sink

/-- A writing end without the interruptions of its writes. -/
def calm (sink : Sink) : Sink :=
  { sink with writes := WriteEvent.calm sink.writes }

/-- The same is written without interruptions. -/
theorem writeAll_calm (style : StreamStyle) (bytes : List UInt8) (sink : Sink) :
    sink.calm.writeAll style bytes
      = ((sink.writeAll style bytes).1, (sink.writeAll style bytes).2.calm) := by
  unfold writeAll calm
  rw [WriteEvent.offer_calm]

/-- Interruptions of writes do not matter to a flush. -/
theorem flush_calm (sink : Sink) : sink.calm.flush = (sink.flush.1, sink.flush.2.calm) := by
  unfold flush
  rcases sink with ⟨writes, _ | ⟨_ | f, flushes⟩, written⟩ <;> rfl

end Sink

/-- Frames are written the same without interruptions. -/
theorem Frame.write_calm (style : StreamStyle) (f : Frame) (sink : Sink) :
    f.write style sink.calm = ((f.write style sink).1, (f.write style sink).2.calm) := by
  unfold Frame.write
  by_cases exceeds : maxLength < f.body.length
  · rw [if_pos exceeds, if_pos exceeds]
  · rw [if_neg exceeds, if_neg exceeds, Sink.writeAll_calm]
    rcases sink.writeAll style f.header with ⟨e | _, sink⟩
    · rfl
    · dsimp only
      rw [Sink.writeAll_calm]
      rcases sink.writeAll style f.body with ⟨e | _, sink⟩
      · rfl
      · dsimp only
        rw [Sink.flush_calm]
        rcases sink.flush with ⟨e | _, sink⟩ <;> rfl

/-! ## Callers -/

namespace StreamClient

/-- A caller on a stream without interruptions. -/
def calm (c : StreamClient) : StreamClient :=
  { c with source := c.source.calm, sink := c.sink.calm }

/-- A frame is sent the same without interruptions. -/
theorem send_calm (f : Frame) (c : StreamClient) :
    send f c.calm = ((send f c).1, (send f c).2.calm) := by
  unfold send
  rw [show c.calm.broken = c.broken from rfl]
  by_cases broken : c.broken = true
  · rw [if_pos broken, if_pos broken]
  · rw [if_neg broken, if_neg broken, show c.calm.sink = c.sink.calm from rfl, Frame.write_calm]
    rcases f.write .blocking c.sink with ⟨e | _, sink⟩ <;> rfl

/-- An answer is received the same without interruptions. -/
theorem receive_calm (c : StreamClient) :
    receive c.calm = ((receive c).1, (receive c).2.calm) := by
  unfold receive
  rw [show Frame.read .blocking c.calm.maxFrame c.calm.source
    = Frame.read .blocking c.maxFrame c.source.calm from rfl, Frame.read_calm rfl]
  rcases Frame.read .blocking c.maxFrame c.source with ⟨e | _ | ⟨kind, body⟩, source⟩
  · rfl
  · rfl
  · cases kind with
    | refused =>
      dsimp only
      cases Refusal.read body <;> rfl
    | _ => rfl

/-- An exchange is the same without interruptions. -/
theorem exchange_calm (f : Frame) (c : StreamClient) :
    exchange f c.calm = ((exchange f c).1, (exchange f c).2.calm) := by
  rw [exchange, bind_apply, bind_apply, send_calm]
  rcases send f c with ⟨e | _, c⟩
  · rfl
  · exact receive_calm c

/-- A step is the same without interruptions. -/
theorem Step.take_calm (step : Step) (c : StreamClient) :
    step.take c.calm = ((step.take c).1, (step.take c).2.calm) := by
  rw [step.take_eq, step.take_eq]
  cases step.frame with
  | error answer => rfl
  | ok f =>
    dsimp only
    rw [exchange_calm]

namespace Turn

/-- A turn on a stream without interruptions. -/
def calm (t : Turn) : Turn :=
  { t with before := t.before.calm, after := t.after.calm }

/-- What can be seen of a turn: the step and how it ended, the bytes that were written, and
whether the caller is broken afterwards. -/
structure Seen where
  step : Step
  answer : step.Answer
  written : List UInt8
  broken : Bool

/-- What is seen of a turn. -/
def seen (t : Turn) : Seen where
  step := t.step
  answer := t.answer
  written := t.after.sink.written.drop t.before.sink.written.length
  broken := t.after.broken

/-- What is seen of a turn is the same without interruptions. -/
theorem seen_calm (t : Turn) : t.calm.seen = t.seen := rfl

end Turn

/-- A turn is the same without interruptions. -/
theorem turn_calm (c : StreamClient) (step : Step) : c.calm.turn step = (c.turn step).calm := by
  rw [turn, Step.take_calm]
  rfl

/-- **A run does without interruptions what it does with them.** -/
theorem turns_calm (c : StreamClient) (steps : List Step) :
    c.calm.turns steps = (c.turns steps).map Turn.calm := by
  induction steps generalizing c with
  | nil => rfl
  | cons step steps ih =>
    rw [turns, turns, List.map_cons, turn_calm, ← ih]
    rfl

/-- What is seen of a run is the same without interruptions. -/
theorem seen_turns_calm (c : StreamClient) (steps : List Step) :
    (c.calm.turns steps).map Turn.seen = (c.turns steps).map Turn.seen := by
  rw [turns_calm, List.map_map]
  exact List.map_congr_left fun t _ => t.seen_calm

/-! ## Interrupted callers -/

/-- A caller is another one whose reads and writes are interrupted more often. -/
structure Interrupts (c c' : StreamClient) : Prop where
  reads : Omits (fun event => event.isInterruption = true) c'.source c.source
  writes : Omits (fun event => event.isInterruption = true) c'.sink.writes c.sink.writes
  flushes : c'.sink.flushes = c.sink.flushes
  written : c'.sink.written = c.sink.written
  maxFrame : c'.maxFrame = c.maxFrame
  broken : c'.broken = c.broken

/-- Callers of which one is interrupted more often are the same without interruptions. -/
theorem Interrupts.calm_eq {c c' : StreamClient} (h : Interrupts c c') : c'.calm = c.calm := by
  obtain ⟨source, ⟨writes, flushes, written⟩, maxFrame, broken⟩ := c
  obtain ⟨source', ⟨writes', flushes', written'⟩, maxFrame', broken'⟩ := c'
  obtain ⟨reads, writes, rfl, rfl, rfl, rfl⟩ := h
  simp only [calm, Sink.calm, Source.calm, WriteEvent.calm, reads.filter_eq, writes.filter_eq]

/-- **Interruptions are not noticed.** However often and wherever the reads and the writes of a
caller are interrupted, all its steps end as they do without that, write the same bytes, and
leave the caller broken or whole as before. -/
theorem turns_interrupted {c c' : StreamClient} (interrupts : Interrupts c c')
    (steps : List Step) : (c'.turns steps).map Turn.seen = (c.turns steps).map Turn.seen := by
  rw [← seen_turns_calm c', ← seen_turns_calm c, interrupts.calm_eq]

/-- A caller whose stream takes a request by parts and answers with an empty reply, and then
with a frame that is cut off. -/
def calmCaller : StreamClient where
  source := [.chunk [0x81, 0, 0], .chunk [0, 0, 0x82]]
  sink := ⟨[.accept 1, .accept 6], [], []⟩
  maxFrame := 64
  broken := false

/-- The same caller, interrupted before and after each read and each write. -/
def restlessCaller : StreamClient where
  source := [.fault ⟨.interrupted, "a"⟩, .chunk [0x81, 0, 0], .fault ⟨.interrupted, "b"⟩,
    .fault ⟨.interrupted, "c"⟩, .chunk [0, 0, 0x82], .fault ⟨.interrupted, "d"⟩]
  sink := ⟨[.fault ⟨.interrupted, "e"⟩, .accept 1, .fault ⟨.interrupted, "f"⟩, .accept 6,
    .fault ⟨.interrupted, "g"⟩], [], []⟩
  maxFrame := 64
  broken := false

/-- The first load is answered and the second breaks the caller, as without interruptions. -/
theorem turns_interrupted_twice :
    Interrupts calmCaller restlessCaller ∧
    (restlessCaller.turns [.load "sums" "1", .load "sums" "2"]).map Turn.seen
      = (calmCaller.turns [.load "sums" "1", .load "sums" "2"]).map Turn.seen ∧
    (restlessCaller.turns [.load "sums" "1", .load "sums" "2"]).map (·.seen.broken)
      = [false, true] := by
  have interrupts : Interrupts calmCaller restlessCaller :=
    ⟨.leaveOut rfl (.keep (.leaveOut rfl (.leaveOut rfl (.keep (.leaveOut rfl .nil))))),
      .leaveOut rfl (.keep (.leaveOut rfl (.keep (.leaveOut rfl .nil)))), rfl, rfl, rfl, rfl⟩
  have same := turns_interrupted interrupts [.load "sums" "1", .load "sums" "2"]
  refine ⟨interrupts, same, ?_⟩
  have broken := congrArg (List.map Turn.Seen.broken) same
  rw [List.map_map, List.map_map] at broken
  exact broken.trans (by decide)

end StreamClient

end KeyedRpc
