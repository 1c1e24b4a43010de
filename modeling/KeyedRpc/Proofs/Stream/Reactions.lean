/-
# What a responder makes of a frame

The answer to a frame is the reply of the session to the call that the body holds, nothing for
a load that is accepted, or the error that came up: the body cannot be read, the session
refuses, the reply cannot be written, or the frame is not one for a responder. Each that does
not stop the responder has exactly one of these (`Responder.exists_reacts`,
`Responder.answer_of_reacts`). A reply has a frame if the limit on replies does and handlers
of messages only edit them (`Responder.Reacts.length_le`).
-/
import KeyedRpc.Proofs.Message.RoundTrip
import KeyedRpc.Proofs.Serving.Bounds
import KeyedRpc.Stream.Service

namespace KeyedRpc

variable {σ : Type}

/-! ## What frames ask for -/

namespace Request

theorem ofFrame_call (body : List UInt8) :
    ofFrame ⟨.call, body⟩ = TransportError.lift ((Message.decode body).map call) := rfl

theorem ofFrame_load (body : List UInt8) :
    ofFrame ⟨.load, body⟩ = TransportError.lift (readLoad body) := rfl

/-- What is read off a load is a load. -/
theorem eq_load_of_readLoad {body : List UInt8} {request : Request}
    (read : readLoad body = .ok request) : ∃ module version, request = .load module version := by
  unfold readLoad at read
  rw [bind_eq_ok_iff] at read
  obtain ⟨m, -, read⟩ := read
  rw [bind_eq_ok_iff] at read
  obtain ⟨version, -, read⟩ := read
  cases read
  exact ⟨m.method, version, rfl⟩

end Request

/-! ## Reactions -/

namespace Responder

/-- What comes of a frame at a responder: the body of a reply or an error, and the responder
that goes on. -/
inductive Reacts (r : Registry σ) (c : Responder σ) :
    Frame → Except TransportError (List UInt8) → Responder σ → Prop where
  /-- The body of a call is no message. -/
  | unreadCall {body : List UInt8} {e : MessageError} (read : Message.decode body = .error e) :
      Reacts r c ⟨.call, body⟩ (.error (.codec e)) c
  /-- The session refuses a call. -/
  | refusedCall {body : List UInt8} {request : Message} {e : TransportError} {state : σ}
      (read : Message.decode body = .ok request)
      (refused : c.session.dispatch r request c.state = (.ok (.error e), state)) :
      Reacts r c ⟨.call, body⟩ (.error e) { c with state }
  /-- The session replies to a call. -/
  | replied {body bytes : List UInt8} {request reply : Message} {state : σ}
      (read : Message.decode body = .ok request)
      (replied : c.session.dispatch r request c.state = (.ok (.ok reply), state))
      (written : reply.encode = .ok bytes) : Reacts r c ⟨.call, body⟩ (.ok bytes) { c with state }
  /-- The session replies to a call by a message that has no bytes. -/
  | unwritten {body : List UInt8} {request reply : Message} {e : MessageError} {state : σ}
      (read : Message.decode body = .ok request)
      (replied : c.session.dispatch r request c.state = (.ok (.ok reply), state))
      (unwritten : reply.encode = .error e) :
      Reacts r c ⟨.call, body⟩ (.error (.codec e)) { c with state }
  /-- The body of a load is no message, or one that holds no version. -/
  | unreadLoad {body : List UInt8} {e : MessageError} (read : Request.readLoad body = .error e) :
      Reacts r c ⟨.load, body⟩ (.error (.codec e)) c
  /-- The session refuses a load. -/
  | refusedLoad {body : List UInt8} {module version : String} {e : TransportError}
      (read : Request.readLoad body = .ok (.load module version))
      (refused : c.session.load r module version = .error e) :
      Reacts r c ⟨.load, body⟩ (.error e) c
  /-- The session accepts a load. -/
  | loaded {body : List UInt8} {module version : String} {session : Session}
      (read : Request.readLoad body = .ok (.load module version))
      (loaded : c.session.load r module version = .ok session) :
      Reacts r c ⟨.load, body⟩ (.ok []) { c with session }
  /-- Replies and refusals do not come from a caller. -/
  | notTaken {kind : FrameKind} {body : List UInt8} (answers : kind = .reply ∨ kind = .refused) :
      Reacts r c ⟨kind, body⟩
        (.error (.refused ("unexpected " ++ kind.name ++ " frame from client"))) c

/-- The frame that says what came of a frame; an error may have none. -/
def frameOf : Except TransportError (List UInt8) → Except TransportError Frame
  | .ok body => .ok ⟨.reply, body⟩
  | .error e => Refusal.frame e

/-- A call is answered by the session. -/
theorem answer_call {r : Registry σ} {c : Responder σ} {body : List UInt8} {request : Message}
    (read : Message.decode body = .ok request) :
    answer r ⟨.call, body⟩ c = match c.session.dispatch r request c.state with
      | (.ok (.ok reply), state) =>
        (.ok (frameOf (TransportError.lift reply.encode)), { c with state })
      | (.ok (.error e), state) => (.ok (Refusal.frame e), { c with state })
      | (.error abort, state) => (.error abort, { c with state }) := by
  have asked : Request.ofFrame ⟨.call, body⟩ = .ok (.call request) := by
    rw [Request.ofFrame_call, read]
    rfl
  unfold answer
  rw [asked]
  dsimp only
  rw [perform, Serving.bind_apply, dispatch]
  rcases c.session.dispatch r request c.state with ⟨abort | e | reply, state⟩
  · rfl
  · rfl
  · dsimp only
    cases reply.encode <;> rfl

/-- A load is answered by the session. -/
theorem answer_load {r : Registry σ} {c : Responder σ} {body : List UInt8}
    {module version : String} (read : Request.readLoad body = .ok (.load module version)) :
    answer r ⟨.load, body⟩ c = match c.session.load r module version with
      | .ok session => (.ok (frameOf (.ok [])), { c with session })
      | .error e => (.ok (Refusal.frame e), c) := by
  have asked : Request.ofFrame ⟨.load, body⟩ = .ok (.load module version) := by
    rw [Request.ofFrame_load, read]
    rfl
  unfold answer
  rw [asked]
  dsimp only
  rw [perform, Serving.bind_apply, load]
  cases c.session.load r module version <;> rfl

/-- A frame without a request is refused, and changes nothing. -/
theorem answer_of_unread {r : Registry σ} {c : Responder σ} {f : Frame} {e : TransportError}
    (unread : Request.ofFrame f = .error e) : answer r f c = (.ok (frameOf (.error e)), c) := by
  unfold answer
  rw [unread]
  rfl

/-- **What came of a frame is what it is answered with.** -/
theorem answer_of_reacts {r : Registry σ} {c c' : Responder σ} {f : Frame}
    {reaction : Except TransportError (List UInt8)} (h : Reacts r c f reaction c') :
    answer r f c = (.ok (frameOf reaction), c') := by
  rcases h with read | ⟨read, refused⟩ | ⟨read, replied, written⟩ | ⟨read, replied, unwritten⟩ |
    read | ⟨read, refused⟩ | ⟨read, loaded⟩ | answers
  · apply answer_of_unread
    rw [Request.ofFrame_call, read]
    rfl
  · rw [answer_call read, refused]
    rfl
  · rw [answer_call read, replied]
    dsimp only
    rw [written]
    rfl
  · rw [answer_call read, replied]
    dsimp only
    rw [unwritten]
    rfl
  · apply answer_of_unread
    rw [Request.ofFrame_load, read]
    rfl
  · rw [answer_load read, refused]
    rfl
  · rw [answer_load read, loaded]
  · apply answer_of_unread
    rcases answers with rfl | rfl
    · rfl
    · rfl

/-- **Something comes of every frame**, unless it stops the responder. -/
theorem exists_reacts {r : Registry σ} {c c' : Responder σ} {f : Frame}
    {answered : Except TransportError Frame} (h : answer r f c = (.ok answered, c')) :
    ∃ reaction, Reacts r c f reaction c' ∧ answered = frameOf reaction := by
  -- It suffices to find some reaction: it tells the answer.
  suffices some : ∃ reaction c'', Reacts r c f reaction c'' by
    obtain ⟨reaction, c'', reacts⟩ := some
    rw [answer_of_reacts reacts] at h
    cases h
    exact ⟨reaction, reacts, rfl⟩
  obtain ⟨kind, body⟩ := f
  cases kind with
  | call =>
    rcases read : Message.decode body with e | request
    · exact ⟨_, _, .unreadCall read⟩
    · rw [answer_call read] at h
      rcases dispatched : c.session.dispatch r request c.state with ⟨abort | e | reply, state⟩
      · rw [dispatched] at h
        cases h
      · exact ⟨_, _, .refusedCall read dispatched⟩
      · rcases written : reply.encode with e | bytes
        · exact ⟨_, _, .unwritten read dispatched written⟩
        · exact ⟨_, _, .replied read dispatched written⟩
  | load =>
    rcases read : Request.readLoad body with e | request
    · exact ⟨_, _, .unreadLoad read⟩
    · obtain ⟨module, version, rfl⟩ := Request.eq_load_of_readLoad read
      rcases loaded : c.session.load r module version with e | session
      · exact ⟨_, _, .refusedLoad read loaded⟩
      · exact ⟨_, _, .loaded read loaded⟩
  | reply => exact ⟨_, _, .notTaken (Or.inl rfl)⟩
  | refused => exact ⟨_, _, .notTaken (Or.inr rfl)⟩

end Responder

/-! ## Sizes of replies -/

/-- The method of a message that was read takes no more bytes than there were. -/
theorem Message.headerSize_le_of_decode {bytes : List UInt8} {m : Message}
    (h : decode bytes = .ok m) : headerSize m.method ≤ bytes.length := by
  rw [← (encode_of_decode h).1]
  exact m.headerSize_le_size

/-- A reply has a place in a frame, if the limit on replies has one and handlers of messages
only edit them. -/
theorem Responder.Reacts.length_le {r : Registry σ} {c c' : Responder σ} {f : Frame}
    {body : List UInt8} (h : Reacts r c f (.ok body) c') (limit : r.replyLimit ≤ maxLength)
    (editing : r.Editing) (le : f.body.length ≤ maxLength) : body.length ≤ maxLength := by
  rcases h with _ | _ | ⟨read, replied, written⟩ | _ | _ | _ | _ | _
  · have header := Nat.le_trans (Message.headerSize_le_of_decode read) le
    obtain ⟨-, rfl⟩ := Message.encode_eq_ok_iff.mp written
    exact Message.length_bytes_le (Session.reply_size_le editing limit header replied)
  · exact Nat.zero_le _

end KeyedRpc
