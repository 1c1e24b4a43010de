/-
# How loads and requests end

Every way in which a session ends a load or a request, with the condition for it. What is
proved about answers goes by these cases, and does not open the definitions again.
-/
import KeyedRpc.Proofs.Transport.Runs

namespace KeyedRpc

variable {σ : Type}

/-! ## Handlers of messages -/

namespace Registry

variable {P : Handler σ → Prop}

/-- What is asked of all handlers of messages is kept by a handler of a method. -/
theorem raw_register {r : Registry σ}
    (all : ∀ tag raw, r.endpoints.get? tag = some (.raw raw) → P raw) (m : Method)
    (handle : MethodHandler σ m) :
    ∀ tag raw, (r.register m handle).endpoints.get? tag = some (.raw raw) → P raw := by
  intro tag raw registered
  rw [register, KeyMap.get?_insert] at registered
  split at registered
  · cases registered
  · exact all tag raw registered

/-- What all handlers of messages have in common, they have with one more that has it. -/
theorem raw_registerRaw {r : Registry σ}
    (all : ∀ tag raw, r.endpoints.get? tag = some (.raw raw) → P raw) (module name : String)
    {handle : Handler σ} (this : P handle) :
    ∀ tag raw, (r.registerRaw module name handle).endpoints.get? tag = some (.raw raw) → P raw := by
  intro tag raw registered
  rw [registerRaw, KeyMap.get?_insert] at registered
  split at registered
  · cases registered
    exact this
  · exact all tag raw registered

end Registry

/-! ## Loads -/

namespace Session

/-- A load is accepted just under the version that is registered. -/
theorem load_eq_ok_iff {session session' : Session} {r : Registry σ} {module version : String} :
    session.load r module version = .ok session' ↔
      r.modules.get? module = some version ∧ session' = session.insert module := by
  unfold load Registry.checkLoad
  rcases registered : r.modules.get? module with _ | expected
  · simp [Except.map]
  · by_cases same : expected = version
    · simp [Except.map, same, eq_comm]
    · simp [Except.map, same]

/-- A load is refused for its module, or for its version. -/
theorem load_eq_error_iff {session : Session} {r : Registry σ} {module version : String}
    {e : TransportError} :
    session.load r module version = .error e ↔
      (r.modules.get? module = none ∧ .unknownModule module = e) ∨
        ∃ expected, r.modules.get? module = some expected ∧ expected ≠ version ∧
          .versionMismatch module expected version = e := by
  unfold load Registry.checkLoad
  rcases registered : r.modules.get? module with _ | expected
  · simp [Except.map]
  · by_cases same : expected = version
    · simp [Except.map, same]
    · simp [Except.map, same]

end Session

/-! ## Requests -/

/-- A request that its registry ends has no endpoint, or is answered by its endpoint. -/
theorem Registry.dispatch_eq_ok_iff {r : Registry σ} {request : Message} {s s' : σ}
    {result : Except TransportError Message} :
    r.dispatch request s = (.ok result, s') ↔
      (r.endpoints.get? request.method = none ∧
        result = .error (.unknownMethod request.method) ∧ s' = s) ∨
      ∃ endpoint reply, r.endpoints.get? request.method = some endpoint ∧
        endpoint.handler.invoke r.stackAt request (Message.withLimit request.method r.replyLimit) s
          = (.ok reply, s') ∧ result = .ok reply := by
  unfold dispatch
  rcases registered : r.endpoints.get? request.method with _ | endpoint
  · constructor
    · intro h
      cases h
      exact Or.inl ⟨rfl, rfl, rfl⟩
    · rintro (⟨-, rfl, rfl⟩ | ⟨endpoint, reply, found, -⟩)
      · rfl
      · cases found
  · dsimp only
    rw [lift_apply]
    rcases invoked : endpoint.handler.invoke r.stackAt request
      (Message.withLimit request.method r.replyLimit) s with ⟨abort | reply, after⟩
    · -- A handler that stops the responder ends no request.
      constructor
      · intro h
        cases h
      · rintro (⟨none, -⟩ | ⟨endpoint', reply, found, answered, -⟩)
        · cases none
        · cases found
          rw [invoked] at answered
          cases answered
    · constructor
      · intro h
        cases h
        exact Or.inr ⟨endpoint, reply, rfl, invoked, rfl⟩
      · rintro (⟨none, -⟩ | ⟨endpoint', reply', found, answered, rfl⟩)
        · cases none
        · cases found
          rw [invoked] at answered
          cases answered
          rfl

/-- A request that its session ends names no module, or one that is not loaded, or is left
to the registry. -/
theorem Session.dispatch_eq_ok_iff {session : Session} {r : Registry σ} {request : Message}
    {s s' : σ} {result : Except TransportError Message} :
    session.dispatch r request s = (.ok result, s') ↔
      (moduleOf? request.method = none ∧
        result = .error (.unknownMethod request.method) ∧ s' = s) ∨
      ∃ module, moduleOf? request.method = some module ∧
        ((session.isLoaded module = false ∧ result = .error (.moduleNotLoaded module) ∧ s' = s) ∨
          session.isLoaded module = true ∧ r.dispatch request s = (.ok result, s')) := by
  unfold dispatch
  rcases named : moduleOf? request.method with _ | module
  · constructor
    · intro h
      cases h
      exact Or.inl ⟨rfl, rfl, rfl⟩
    · rintro (⟨-, rfl, rfl⟩ | ⟨module, found, -⟩)
      · rfl
      · cases found
  · dsimp only
    rcases loaded : session.isLoaded module with _ | _
    · constructor
      · intro h
        cases h
        exact Or.inr ⟨module, rfl, Or.inl ⟨loaded, rfl, rfl⟩⟩
      · rintro (⟨none, -⟩ | ⟨module', found, ⟨-, rfl, rfl⟩ | ⟨loaded', -⟩⟩)
        · cases none
        · cases found
          rfl
        · cases found
          rw [loaded] at loaded'
          cases loaded'
    · constructor
      · intro h
        exact Or.inr ⟨module, rfl, Or.inr ⟨loaded, h⟩⟩
      · rintro (⟨none, -⟩ | ⟨module', found, ⟨loaded', -⟩ | ⟨-, answered⟩⟩)
        · cases none
        · cases found
          rw [loaded] at loaded'
          cases loaded'
        · exact answered

/-- **A session that refuses a request** does so in every state, and leaves it as it is. -/
theorem Session.dispatch_of_refused {session : Session} {r : Registry σ} {request : Message}
    {s t : σ} {e : TransportError} (h : session.dispatch r request s = (.ok (.error e), t))
    (s' : σ) : session.dispatch r request s' = (.ok (.error e), s') := by
  rw [Session.dispatch_eq_ok_iff] at h ⊢
  rcases h with ⟨none, eq, -⟩ | ⟨module, named, ⟨absent, eq, -⟩ | ⟨loaded, answered⟩⟩
  · exact Or.inl ⟨none, eq, rfl⟩
  · exact Or.inr ⟨module, named, Or.inl ⟨absent, eq, rfl⟩⟩
  · -- An endpoint does not refuse: the failure of a method is a reply.
    rw [Registry.dispatch_eq_ok_iff] at answered
    rcases answered with ⟨none, eq, -⟩ | ⟨endpoint, reply, -, -, eq⟩
    · exact Or.inr ⟨module, named, Or.inr ⟨loaded,
        Registry.dispatch_eq_ok_iff.mpr (Or.inl ⟨none, eq, rfl⟩)⟩⟩
    · simp at eq

/-- A session that refuses a request leaves the state of the handlers as it was. -/
theorem Session.state_of_refused {session : Session} {r : Registry σ} {request : Message}
    {s s' : σ} {e : TransportError}
    (h : session.dispatch r request s = (.ok (.error e), s')) : s' = s := by
  have same := Session.dispatch_of_refused h s
  rw [h] at same
  exact congrArg Prod.snd same

/-! ## Answers without a stream -/

namespace Transport

/-- A load that is asked of a session is loaded, or fails and changes nothing. -/
theorem ask_load_direct_iff {r : Registry σ} {module version : String} {c c' : Responder σ}
    {answer : Answer} :
    (direct r).ask (.load module version) c = (.ok answer, c') ↔
      (∃ session, c.session.load r module version = .ok session ∧
        answer = .loaded ∧ c' = { c with session }) ∨
      ∃ e, c.session.load r module version = .error e ∧ answer = .failed e ∧ c' = c := by
  have ask_eq : (direct r).ask (.load module version) c
      = ((Responder.load r module version c).1.map Answer.ofLoad,
          (Responder.load r module version c).2) := map_apply _ _ _
  rw [ask_eq]
  unfold Responder.load
  rcases ended : c.session.load r module version with e | session
  · constructor
    · intro h
      cases h
      exact Or.inr ⟨e, rfl, rfl, rfl⟩
    · rintro (⟨session, loaded, -⟩ | ⟨_, failed, rfl, rfl⟩)
      · cases loaded
      · cases failed
        rfl
  · constructor
    · intro h
      cases h
      exact Or.inl ⟨session, rfl, rfl, rfl⟩
    · rintro (⟨_, loaded, rfl, rfl⟩ | ⟨e, failed, -⟩)
      · cases loaded
        rfl
      · cases failed

/-- A call that is asked of a session is dispatched. -/
theorem ask_call_direct_iff {r : Registry σ} {m : Message} {c c' : Responder σ}
    {answer : Answer} :
    (direct r).ask (.call m) c = (.ok answer, c') ↔
      ∃ result state, c.session.dispatch r m c.state = (.ok result, state) ∧
        answer = Answer.ofSend result ∧ c' = { c with state } := by
  have ask_eq : (direct r).ask (.call m) c
      = ((Responder.dispatch r m c).1.map Answer.ofSend, (Responder.dispatch r m c).2) :=
    map_apply _ _ _
  rw [ask_eq]
  unfold Responder.dispatch
  rcases ended : c.session.dispatch r m c.state with ⟨abort | result, state⟩
  · -- No answer comes from a responder that is stopped.
    constructor
    · intro h
      cases h
    · rintro ⟨result, state, answered, -⟩
      cases answered
  · constructor
    · intro h
      cases h
      exact ⟨result, state, rfl, rfl, rfl⟩
    · rintro ⟨_, _, answered, rfl, rfl⟩
      cases answered
      rfl

end Transport

end KeyedRpc
