/-
# What ends a connection

A responder leaves a connection at a frame that it cannot read or when the stream fails, and
otherwise answers each frame and goes on to the next. There is one gap: the refusal of a frame
repeats what came with it, and if that is too long for a refusal, the responder leaves with the
error that says so, and the frame has no answer (`Service.serve_stays`). A call with a long tag
is such a frame (`Service.serve_leaves_long_call`).
-/
import KeyedRpc.Proofs.Stream.Failures
import KeyedRpc.Proofs.Stream.Service

namespace KeyedRpc

variable {σ : Type}

namespace Service

/-! ## Leaving -/

/-- What ends serving with an error: after some frames that are answered, one that cannot be
read, one whose error is too long for a refusal, or one whose answer is not written. -/
inductive Leaves (r : Registry σ) (max : Nat) : Service σ → TransportError → Prop where
  /-- A frame is answered, and what comes after it ends serving. -/
  | answered {s : Service σ} {rest : Source} {sink : Sink} {c : Responder σ} {f g : Frame}
      {e : TransportError} (read : Frame.read .interleaved max s.source = (.ok (some f), rest))
      (answer : Responder.answer r f s.responder = (.ok (.ok g), c))
      (written : g.write .interleaved s.sink = (.ok (), sink))
      (others : Leaves r max ⟨rest, sink, c⟩ e) : Leaves r max s e
  /-- The next frame cannot be read. -/
  | unreadable {s : Service σ} {e : TransportError} (why : Frame.Unreadable max s.source e) :
      Leaves r max s e
  /-- The error of a frame is too long for a refusal. -/
  | unrefused {s : Service σ} {rest : Source} {c : Responder σ} {f : Frame} {e : TransportError}
      (read : Frame.read .interleaved max s.source = (.ok (some f), rest))
      (reacts : Responder.Reacts r s.responder f (.error e) c)
      (full : defaultLimit < Refusal.size e) :
      Leaves r max s (.codec (.bufferTooSmall (Refusal.size e) defaultLimit))
  /-- A reply is too long for a frame, as a handler of messages does not only edit it. -/
  | unframed {s : Service σ} {rest : Source} {c : Responder σ} {f : Frame} {body : List UInt8}
      (not_editing : ¬ r.Editing)
      (read : Frame.read .interleaved max s.source = (.ok (some f), rest))
      (reacts : Responder.Reacts r s.responder f (.ok body) c)
      (exceeds : maxLength < body.length) :
      Leaves r max s (.frameTooLarge body.length maxLength)
  /-- The stream fails as the answer is written. -/
  | unwritten {s : Service σ} {rest : Source} {c : Responder σ} {f g : Frame} {fault : StreamFault}
      (read : Frame.read .interleaved max s.source = (.ok (some f), rest))
      (answer : Responder.answer r f s.responder = (.ok (.ok g), c))
      (fails : s.sink.Fails .interleaved fault) : Leaves r max s (.ofStreamFault fault)

/-- Serving ends with an error in one of these ways only. -/
theorem leaves_of_serve {r : Registry σ} (limit : r.replyLimit ≤ maxLength) {max : Nat}
    {s s' : Service σ} {e : TransportError} (h : serve r max s = (.ok (.error e), s')) :
    Leaves r max s e := by
  fun_induction serve r max s with
  | case1 s e' source failed =>
    cases h
    exact .unreadable (Frame.unreadable_of_read failed)
  | case2 => cases h
  | case3 => cases h
  | case4 s f source read e' c answered =>
    cases h
    obtain ⟨e' | body, reacts, framed⟩ := Responder.exists_reacts answered
    · obtain ⟨full, rfl⟩ := Refusal.frame_eq_error_iff.mp framed.symm
      exact .unrefused read reacts full
    · cases framed
  | case5 s f source read g c answered e' sink unwritten =>
    cases h
    rcases Frame.failed_of_write unwritten with ⟨exceeds, rfl⟩ | ⟨fault, fails, rfl⟩
    · -- A refusal has a place in a frame, and so has the reply of a handler that only edits it.
      obtain ⟨e' | body, reacts, framed⟩ := Responder.exists_reacts answered
      · have le := (Refusal.spec_frame framed.symm).2.2
        omega
      · cases framed
        refine .unframed (fun editing => ?_) read reacts exceeds
        have le := reacts.length_le limit editing (Frame.bytes_read read).2.2
        exact Nat.not_lt.mpr le exceeds
    · exact .unwritten read answered fails
  | case6 s f source read g c answered sink written ih =>
    exact .answered read answered written (ih h)

/-! ## Going on -/

/-- **A frame that can be read is answered, and the responder goes on to the next**, if its
error has room in a refusal; otherwise it has no answer, and the responder leaves with the
error of that. Nothing else ends serving with an error but a frame that cannot be read, a stream
that fails, or a reply too long for a frame. -/
theorem serve_stays {r : Registry σ} (limit : r.replyLimit ≤ maxLength) (max : Nat) :
    (∀ (source next : Source) (tail written : List UInt8) (c c' : Responder σ) (f : Frame)
        (answered : Except TransportError Frame),
      source.Steady → source.bytes = f.bytes ++ tail → f.body.length ≤ max →
      f.body.length ≤ maxLength → Responder.answer r f c = (.ok answered, c') →
      ∃ reaction rest, Responder.Reacts r c f reaction c' ∧ rest.Steady ∧ rest.bytes = tail ∧
        (∀ body, reaction = .ok body → body.length ≤ maxLength →
          serve r max ⟨source ++ next, ⟨[], [], written⟩, c⟩ = serve r max
            ⟨rest ++ next, ⟨[], [], written ++ (Frame.mk .reply body).bytes⟩, c'⟩) ∧
        (r.Editing → ∀ body, reaction = .ok body → body.length ≤ maxLength) ∧
        (∀ e, reaction = .error e → Refusal.size e ≤ defaultLimit →
          ∃ g, Refusal.frame e = .ok g ∧ g.kind = .refused ∧
            serve r max ⟨source ++ next, ⟨[], [], written⟩, c⟩
              = serve r max ⟨rest ++ next, ⟨[], [], written ++ g.bytes⟩, c'⟩) ∧
        ∀ e, reaction = .error e → defaultLimit < Refusal.size e →
          serve r max ⟨source ++ next, ⟨[], [], written⟩, c⟩
            = (.ok (.error (.codec (.bufferTooSmall (Refusal.size e) defaultLimit))),
                ⟨rest ++ next, ⟨[], [], written⟩, c'⟩)) ∧
    ∀ (s s' : Service σ) (e : TransportError), serve r max s = (.ok (.error e), s') →
      Leaves r max s e := by
  refine ⟨?_, fun s s' e failed => leaves_of_serve limit failed⟩
  intro source next tail written c c' f answered steady bytes_eq within le told
  -- What comes of the frame decides: a reply, an error with a refusal, or one without.
  obtain ⟨reaction, reacts, -⟩ := Responder.exists_reacts told
  obtain ⟨rest, steady, bytes_eq, reads⟩ := exists_read steady bytes_eq ⟨within, le⟩
  have read := reads next
  refine ⟨reaction, rest, reacts, steady, bytes_eq, ?_, ?_, ?_, ?_⟩
  · rintro body rfl fits
    exact serve_replied read reacts fits
  · rintro editing body rfl
    exact reacts.length_le limit editing le
  · rintro e rfl room
    obtain ⟨m, -, framed⟩ := Refusal.frame_of_room room
    exact ⟨_, framed, rfl, serve_refused read reacts framed⟩
  · rintro e rfl full
    exact serve_unrefused read reacts (Refusal.frame_of_full full)

/-- A call whose body is no message is refused, and the responder goes on to what follows. -/
theorem serve_stays_ping :
    ∃ (g : Frame) (rest : Source), g.kind = .refused ∧ rest.bytes = [2] ∧
      serve pingRegistry 64 ⟨[.chunk [1, 1, 0], .chunk [0, 0, 0, 2]] ++ [], ⟨[], [], []⟩,
          Responder.start 0⟩
        = serve pingRegistry 64 ⟨rest ++ [], ⟨[], [], [] ++ g.bytes⟩, Responder.start 0⟩ := by
  have limit : pingRegistry.replyLimit ≤ maxLength := by decide
  have steady : Source.Steady [.chunk [1, 1, 0], .chunk [0, 0, 0, 2]] :=
    Source.steady_cons_iff.mpr ⟨⟨_, _, rfl⟩, Source.steady_singleton rfl⟩
  have invalid : Message.decode [0] = .error (.invalidTag 0) := rfl
  obtain ⟨reaction, rest, reacts, -, bytes_eq, -, -, goesOn, -⟩ :=
    (serve_stays limit 64).1 _ [] [2] [] (Responder.start 0) (Responder.start 0) ⟨.call, [0]⟩ _
      steady rfl (by decide) (by decide) rfl
  -- A call that cannot be read has one reaction.
  have unread : reaction = .error (.codec (.invalidTag 0)) := by
    rcases reacts with read | ⟨read, -⟩ | ⟨read, -⟩ | ⟨read, -⟩ | - | - | - | answers
    · rw [invalid] at read
      cases read
      rfl
    · rw [invalid] at read
      cases read
    · rw [invalid] at read
      cases read
    · rw [invalid] at read
      cases read
    · rcases answers with eq | eq
      · cases eq
      · cases eq
  obtain ⟨g, -, kind, served⟩ := goesOn _ unread (by decide)
  exact ⟨g, rest, kind, bytes_eq, served⟩

/-! ## Long tags -/

/-- A long tag has no dot in it, and so it names no module. -/
theorem moduleOf?_longTag (n : Nat) : moduleOf? (longTag n) = none := by
  unfold moduleOf?
  apply if_neg
  rw [longTag, String.toList_ofList, List.mem_replicate]
  rintro ⟨-, same⟩
  exact absurd same (by decide)

/-- The call of a method with a long tag, without arguments. -/
def longCall (n : Nat) : Frame :=
  ⟨.call, (Message.empty (longTag n)).bytes⟩

/-- The call is longer than its tag by the nine bytes that a message has besides. -/
theorem length_longCall (n : Nat) : (longCall n).body.length = n + 9 :=
  length_bytes_longTag n

/-- The refusal of a long tag repeats it, and is longer than the call. -/
theorem size_unknownMethod (n : Nat) : Refusal.size (.unknownMethod (longTag n)) = n + 58 := by
  show headerSize "" + entrySize Refusal.kindKey (.string "unknown-method")
    + ((5 + 6) + (5 + ((5 + (longTag n).utf8ByteSize) + 0))) = n + 58
  have others : headerSize "" + entrySize Refusal.kindKey (.string "unknown-method") = 37 := by
    decide
  rw [utf8ByteSize_longTag]
  omega

/-- A session that has loaded nothing refuses the call, as it would with any tag that names no
module. -/
theorem reacts_longCall (r : Registry σ) (state : σ) {n : Nat} (le : n + 9 ≤ maxLength) :
    Responder.Reacts r (Responder.start state) (longCall n) (.error (.unknownMethod (longTag n)))
      (Responder.start state) := by
  have size : (Message.empty (longTag n)).size ≤ maxLength := by
    rw [← Message.length_bytes]
    exact Nat.le_trans (Nat.le_of_eq (length_longCall n)) le
  apply Responder.Reacts.refusedCall (Message.decode_bytes size)
  exact Session.dispatch_eq_ok_iff.mpr (Or.inl ⟨moduleOf?_longTag n, rfl, rfl⟩)

/-- The tag leaves just enough room for the call in a message of the default limit, and too
little in the refusal. -/
theorem serve_leaves_long_call :
    (longCall 16777207).body.length ≤ defaultLimit ∧
      ∃ rest, serve (Registry.empty fun _ => none) defaultLimit
          ⟨[.chunk (longCall 16777207).bytes], Sink.faultless, Responder.start ()⟩
        = (.ok (.error (.codec (.bufferTooSmall 16777265 defaultLimit))),
            ⟨rest, Sink.faultless, Responder.start ()⟩) := by
  have within : (longCall 16777207).body.length ≤ defaultLimit := by
    rw [length_longCall]
    decide
  have le := Nat.le_trans within defaultLimit_le_maxLength
  have steady : Source.Steady [.chunk (longCall 16777207).bytes] := Source.steady_singleton rfl
  have bytes_eq : Source.bytes [.chunk (longCall 16777207).bytes]
      = (longCall 16777207).bytes ++ [] := rfl
  obtain ⟨rest, -, -, read⟩ := exists_read steady bytes_eq ⟨within, le⟩
  have reacts : Responder.Reacts (Registry.empty fun _ => none) (Responder.start ())
      (longCall 16777207) (.error (.unknownMethod (longTag 16777207))) (Responder.start ()) :=
    reacts_longCall _ () (by decide)
  have unframed : Refusal.frame (.unknownMethod (longTag 16777207))
      = .error (.codec (.bufferTooSmall 16777265 defaultLimit)) := by
    rw [Refusal.frame_eq_error_iff, size_unknownMethod]
    exact ⟨by decide, rfl⟩
  exact ⟨within, rest ++ [], serve_unrefused (read []) reacts unframed⟩

end Service

end KeyedRpc
