/-
# Requests within one process

A request to a responder in the same process is answered by the session once it has arrived,
and its reply is what arrives of the session's reply (`Transport.send_inProcess`). A message
arrives as it was sent if its size has a place in four bytes.
-/
import KeyedRpc.Proofs.Message.RoundTrip
import KeyedRpc.Proofs.Serving.Dispatch
import KeyedRpc.Transport.InProcess

namespace KeyedRpc

variable {σ : Type}

theorem Message.carried_eq {m : Message} (le : m.size ≤ maxLength) :
    m.carried = .ok m.received := by
  rw [carried, encode_of_size_le le]
  show TransportError.lift (decode m.bytes) = _
  rw [decode_bytes le]
  rfl

/-- What arrives was read off the bytes that were written. -/
theorem Message.exists_of_carried {m arrived : Message} (h : m.carried = .ok arrived) :
    ∃ bytes, m.encode = .ok bytes ∧ decode bytes = .ok arrived := by
  unfold carried at h
  exact bind_eq_ok_iff.mp (mapError_eq_ok_iff.mp h)

/-- A message that can be written arrives with its method and its entries, if its entries can be
counted in four bytes. -/
theorem Message.carried_cases {m : Message} (count : m.entries.size ≤ maxLength) :
    (∃ e, m.encode = .error e ∧ m.carried = .error (.codec e)) ∨
      ∃ bytes arrived, m.encode = .ok bytes ∧ m.carried = .ok arrived ∧
        arrived.method = m.method ∧ arrived.entries = m.entries := by
  rcases written : m.encode with e | bytes
  · refine Or.inl ⟨e, rfl, ?_⟩
    rw [carried, written]
    rfl
  · obtain ⟨lengths, rfl⟩ := encode_eq_ok_iff.mp written
    obtain ⟨method_le, entries_fit⟩ := m.lengths_le_iff.mp lengths
    have spelt : Spelt m.bytes m.method m.entries.entries :=
      ⟨m.bytes_eq_spelling, m.entries.nodup_keys, method_le, count, entries_fit⟩
    obtain ⟨arrived, read, method, perm⟩ := decode_of_spelt spelt
    refine Or.inr ⟨_, arrived, rfl, ?_, method, KeyMap.eq_of_perm perm⟩
    rw [carried, written]
    show TransportError.lift (decode m.bytes) = _
    rw [read]
    rfl

/-- A request with an endpoint for its tag is answered by that endpoint. -/
theorem Registry.dispatch_of_registered {r : Registry σ} {request : Message}
    {endpoint : Endpoint σ} (registered : r.endpoints.get? request.method = some endpoint) (s : σ) :
    r.dispatch request s
      = ((endpoint.handler.invoke r.stackAt request
            (Message.withLimit request.method r.replyLimit) s).1.map Except.ok,
          (endpoint.handler.invoke r.stackAt request
            (Message.withLimit request.method r.replyLimit) s).2) := by
  rw [dispatch, registered]
  exact lift_apply _ s

/-- A request of a loaded module is left to the registry. -/
theorem Session.dispatch_of_loaded {session : Session} {request : Message} {module : String}
    (named : moduleOf? request.method = some module) (loaded : session.isLoaded module = true)
    (r : Registry σ) : session.dispatch r request = r.dispatch request := by
  rw [dispatch, named]
  exact if_pos loaded

/-- A request that arrives is answered by the session, and of the reply the caller gets what
arrives. -/
theorem Transport.send_inProcess {r : Registry σ} {request arrived : Message}
    (carried : request.carried = .ok arrived) {c : Responder σ} {state : σ}
    {answer : Except Abort (Except TransportError Message)}
    (answered : c.session.dispatch r arrived c.state = (answer, state)) :
    (inProcess r).send request c
      = (answer.map (·.bind Message.carried), { c with state }) := by
  unfold inProcess
  dsimp only
  rw [Serving.bind_apply, carried]
  show (Responder.dispatch r arrived >>= _) c = _
  rw [Serving.bind_apply, Responder.dispatch, answered]
  rcases answer with abort | e | reply
  · rfl
  · rfl
  · rfl

/-- A request that does not arrive is not answered. -/
theorem Transport.send_inProcess_of_uncarried {r : Registry σ} {request : Message}
    {e : TransportError} (uncarried : request.carried = .error e) (c : Responder σ) :
    (inProcess r).send request c = (.ok (.error e), c) := by
  unfold inProcess
  dsimp only
  rw [Serving.bind_apply, uncarried]
  rfl

end KeyedRpc
