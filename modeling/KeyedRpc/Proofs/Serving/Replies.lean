/-
# What a reply depends on

A request is answered by its method and its entries: the limit on it does not matter, if
handlers of messages do not look at it (`Transport.ask_received`). Responders that are set
up alike give answers that agree, whichever call stacks they find (`Transport.ask_alike`).
-/
import KeyedRpc.Proofs.Serving.Dispatch
import KeyedRpc.Proofs.Stream.Carriage

namespace KeyedRpc

variable {σ : Type}

/-! ## Reading arguments -/

/-- Cursors are alike if they stand at the same key of the same entries. -/
def Cursor.Alike (c c' : Cursor) : Prop :=
  c.message.entries = c'.message.entries ∧ c.next = c'.next

/-- Work on a cursor is blind if only the entries and the next key matter to it. -/
def Positional.Blind {α : Type} (x : Positional α) : Prop :=
  ∀ {c c' : Cursor}, c.Alike c' → (x c).1 = (x c').1 ∧ (x c).2.Alike (x c').2

namespace Positional.Blind

theorem pure {α : Type} (a : α) : Blind (pure a) :=
  fun alike => ⟨rfl, alike⟩

theorem bind {α β : Type} {x : Positional α} {f : α → Positional β} (first : Blind x)
    (second : ∀ a, Blind (f a)) : Blind (x >>= f) := by
  intro c c' alike
  obtain ⟨same, alike⟩ := first alike
  rw [bind_apply, bind_apply]
  cases eq : x c with
  | mk result after =>
    cases eq' : x c' with
    | mk result' after' =>
      rw [eq, eq'] at same alike
      cases same
      cases result with
      | error e => exact ⟨rfl, alike⟩
      | ok a => exact second a alike

/-- A value is pulled by its key, which the next position names. -/
theorem pull (kind : Kind) : Blind (Cursor.pull kind) := by
  intro c c' alike
  obtain ⟨entries, next⟩ := alike
  have same : c.message.get kind c.key = c'.message.get kind c'.key := by
    rw [Message.get, Message.get, Message.get?, Message.get?, entries, Cursor.key, next]
    rfl
  unfold Cursor.pull
  rw [same]
  cases c'.message.get kind c'.key with
  | error e => exact ⟨rfl, entries, next⟩
  | ok x => exact ⟨rfl, entries, congrArg (· + 1) next⟩

/-- Arguments are read by their keys, one after another. -/
theorem read (ts : List WireType) : Blind (Args.read ts) := by
  induction ts with
  | nil => exact pure ()
  | cons t ts ih =>
    -- An argument is read, and then the others, whatever it was.
    apply bind
    · cases t with
      | unit => exact pure ()
      | keyed kind => exact pull kind
    · intro x
      exact bind ih fun xs => pure (x, xs)

end Positional.Blind

/-- Requests that say the same have the same arguments. -/
theorem Method.argsOf_congr (m : Method) {request request' : Message}
    (same : (request == request') = true) : m.argsOf request = m.argsOf request' := by
  have alike : (Cursor.start request).Alike (Cursor.start request') :=
    ⟨(Message.beq_iff.mp same).2, rfl⟩
  exact (Positional.Blind.read m.args alike).1

/-! ## Requests that say the same -/

/-- A handler of messages is blind if only the method and the entries of a request matter to
it. -/
def Handler.Blind (handle : Handler σ) : Prop :=
  ∀ request request', (request == request') = true → handle request = handle request'

/-- A handler of a method is blind, whatever it does. -/
theorem MethodHandler.blind_onMessages {m : Method} (handle : MethodHandler σ m) :
    Handler.Blind handle.onMessages := by
  intro request request' same
  unfold onMessages
  rw [m.argsOf_congr same]

namespace Registry

/-- A registry is blind if its handlers of messages are. -/
def Blind (r : Registry σ) : Prop :=
  ∀ tag handle, r.endpoints.get? tag = some (.raw handle) → handle.Blind

theorem blind_withReplyLimit (limit : Nat) (stackAt : σ → Option String) :
    (withReplyLimit limit stackAt).Blind := by
  intro tag handle registered
  cases registered

theorem Blind.registerModule {r : Registry σ} (blind : r.Blind) (module version : String) :
    (r.registerModule module version).Blind :=
  blind

/-- A handler of a method may be registered in any case. -/
theorem Blind.register {r : Registry σ} (blind : r.Blind) (m : Method)
    (handle : MethodHandler σ m) : (r.register m handle).Blind :=
  raw_register blind m handle

/-- A handler of messages may be registered if it is blind. -/
theorem Blind.registerRaw {r : Registry σ} (blind : r.Blind) (module name : String)
    {handle : Handler σ} (handle_blind : handle.Blind) :
    (r.registerRaw module name handle).Blind :=
  raw_registerRaw blind module name handle_blind

/-- What is registered treats requests that say the same in the same way. -/
theorem handler_congr {r : Registry σ} (blind : r.Blind) {tag : String} {endpoint : Endpoint σ}
    (registered : r.endpoints.get? tag = some endpoint) {request request' : Message}
    (same : (request == request') = true) :
    endpoint.handler request = endpoint.handler request' := by
  cases endpoint with
  | raw handle => exact blind tag handle registered request request' same
  | typed m handle => exact handle.blind_onMessages request request' same

/-- Requests that say the same are dispatched in the same way. -/
theorem dispatch_congr {r : Registry σ} (blind : r.Blind) {request request' : Message}
    (same : (request == request') = true) : r.dispatch request = r.dispatch request' := by
  have method : request.method = request'.method := (Message.beq_iff.mp same).1
  unfold dispatch
  rw [method]
  cases registered : r.endpoints.get? request'.method with
  | none => rfl
  | some endpoint =>
    dsimp only
    congr 1
    funext s
    unfold Handler.invoke
    rw [handler_congr blind registered same]

end Registry

/-- A session answers requests that say the same in the same way. -/
theorem Session.dispatch_congr {r : Registry σ} (blind : r.Blind) (session : Session)
    {request request' : Message} (same : (request == request') = true) :
    session.dispatch r request = session.dispatch r request' := by
  unfold dispatch
  rw [(Message.beq_iff.mp same).1, r.dispatch_congr blind same]

/-- **A request is answered as it is received**: the limit that it gets on its way does not
matter. -/
theorem Transport.ask_received {r : Registry σ} (blind : r.Blind) (request : Request) :
    (Transport.direct r).ask request.received = (Transport.direct r).ask request := by
  cases request with
  | load module version => rfl
  | call m =>
    have same : Responder.dispatch r m.received = Responder.dispatch r m := by
      funext c
      unfold Responder.dispatch
      rw [c.session.dispatch_congr blind m.received_beq]
    show Answer.ofSend <$> (Responder.dispatch r m.received).run = _
    rw [same]
    rfl

/-! ## Replies that agree -/

namespace Message

/-- Replies agree if they say the same, or if they report the same failure, each with the
call stack that was found, if any. -/
inductive Agrees (m n : Message) : Prop where
  | same (same : (m == n) = true)
  | reports {reply report report' : Message} {text : String} {stack stack' : Option String}
      (first : reply.report text stack = (.ok (), report)) (is_first : (m == report) = true)
      (second : reply.report text stack' = (.ok (), report')) (is_second : (n == report') = true)

/-- Whether a failure can be reported does not hang on the call stack. -/
theorem exists_report {reply report : Message} {text : String} {stack : Option String}
    (h : reply.report text stack = (.ok (), report)) (stack' : Option String) :
    ∃ report', reply.report text stack' = (.ok (), report') := by
  -- Only the text has to fit: a call stack that does not is left out.
  unfold Message.report at h ⊢
  cases set : reply.clear.set errorKey (.string text) with
  | error e =>
    rw [set] at h
    cases h
  | ok base =>
    dsimp only
    split
    · exact ⟨_, rfl⟩
    · split
      · exact ⟨_, rfl⟩
      · exact ⟨_, rfl⟩

theorem beq_trans {m n k : Message} (first : (m == n) = true) (second : (n == k) = true) :
    (m == k) = true := by
  rw [beq_iff] at first second ⊢
  exact ⟨first.1.trans second.1, first.2.trans second.2⟩

/-- What says the same as replies that agree does so as well. -/
theorem Agrees.congr {m n m' n' : Message} (h : m.Agrees n) (left : (m' == m) = true)
    (right : (n' == n) = true) : m'.Agrees n' := by
  cases h with
  | same same =>
    rw [beq_iff] at left same right
    exact .same (beq_iff.mpr ⟨left.1.trans (same.1.trans right.1.symm),
      left.2.trans (same.2.trans right.2.symm)⟩)
  | reports first is_first second is_second =>
    exact .reports first (beq_trans left is_first) second (beq_trans right is_second)

end Message

/-- Answers agree if they are the same failure, or replies that agree. -/
inductive Answer.Agrees : Answer → Answer → Prop where
  | loaded : Agrees loaded loaded
  | replied {m n : Message} (replies : m.Agrees n) : Agrees (replied m) (replied n)
  | failed (e : TransportError) : Agrees (failed e) (failed e)

/-! ## Responders that are set up alike -/

/-- Registries are alike if they are set up in the same way; the call stacks that they find
may differ. -/
structure Registry.Alike (r r' : Registry σ) : Prop where
  modules : r.modules = r'.modules
  endpoints : r.endpoints = r'.endpoints
  replyLimit : r.replyLimit = r'.replyLimit

/-- An invocation fills in replies that agree, whichever call stacks are found. -/
theorem Handler.invoke_alike {handle : Handler σ} {stackAt : σ → Option String}
    {request reply filled : Message} {s s' : σ}
    (h : handle.invoke stackAt request reply s = (.ok filled, s')) (stackAt' : σ → Option String) :
    ∃ filled', handle.invoke stackAt' request reply s = (.ok filled', s') ∧
      filled.Agrees filled' := by
  unfold invoke at h ⊢
  rcases handled : handle request (reply, s) with ⟨failure | ⟨⟩, left, after⟩
  · rw [handled] at h
    dsimp only at h ⊢
    rcases reported : left.report failure.text (stackAt after) with ⟨e | ⟨⟩, report⟩
    · rw [reported] at h
      cases h
    · rw [reported] at h
      cases h
      -- The work is done by then: the stacks differ only in what the reports hold.
      obtain ⟨report', reported'⟩ := Message.exists_report reported (stackAt' s')
      refine ⟨report', ?_, .reports reported ?_ reported' ?_⟩
      · rw [reported']
      · exact Message.beq_self _
      · exact Message.beq_self _
  · rw [handled] at h
    cases h
    exact ⟨filled, rfl, .same (Message.beq_self _)⟩

namespace Registry.Alike

variable {r r' : Registry σ}

/-- What is registered is the same, and so it is blind as well. -/
theorem blind (alike : r.Alike r') (blind : r.Blind) : r'.Blind := by
  unfold Registry.Blind at blind ⊢
  rw [← alike.endpoints]
  exact blind

/-- Loads look at the modules only. -/
theorem load (alike : r.Alike r') (session : Session) (module version : String) :
    session.load r module version = session.load r' module version := by
  rw [Session.load, Session.load, Registry.checkLoad, Registry.checkLoad, alike.modules]

/-- Registries that are alike give answers that agree, and leave the same state. -/
theorem dispatch (alike : r.Alike r') {request : Message} {s s' : σ}
    {result : Except TransportError Message} (h : r.dispatch request s = (.ok result, s')) :
    ∃ result', r'.dispatch request s = (.ok result', s') ∧
      (Answer.ofSend result).Agrees (Answer.ofSend result') := by
  rcases Registry.dispatch_eq_ok_iff.mp h with ⟨none, rfl, rfl⟩ | ⟨endpoint, reply, found, ran, rfl⟩
  · rw [alike.endpoints] at none
    exact ⟨_, Registry.dispatch_eq_ok_iff.mpr (Or.inl ⟨none, rfl, rfl⟩), .failed _⟩
  · rw [alike.endpoints] at found
    rw [alike.replyLimit] at ran
    obtain ⟨reply', ran', agrees⟩ := Handler.invoke_alike ran r'.stackAt
    have answered := Registry.dispatch_eq_ok_iff.mpr (Or.inr ⟨endpoint, reply', found, ran', rfl⟩)
    exact ⟨.ok reply', answered, .replied agrees⟩

/-- A session on registries that are alike gives answers that agree. -/
theorem session_dispatch (alike : r.Alike r') (session : Session) {request : Message} {s s' : σ}
    {result : Except TransportError Message} (h : session.dispatch r request s = (.ok result, s')) :
    ∃ result', session.dispatch r' request s = (.ok result', s') ∧
      (Answer.ofSend result).Agrees (Answer.ofSend result') := by
  rcases Session.dispatch_eq_ok_iff.mp h with
    ⟨none, rfl, rfl⟩ | ⟨module, named, ⟨absent, rfl, rfl⟩ | ⟨loaded, answered⟩⟩
  · exact ⟨_, Session.dispatch_eq_ok_iff.mpr (Or.inl ⟨none, rfl, rfl⟩), .failed _⟩
  · exact ⟨_, Session.dispatch_eq_ok_iff.mpr
      (Or.inr ⟨module, named, Or.inl ⟨absent, rfl, rfl⟩⟩), .failed _⟩
  · obtain ⟨result', answered', agrees⟩ := alike.dispatch answered
    exact ⟨result', Session.dispatch_eq_ok_iff.mpr
      (Or.inr ⟨module, named, Or.inr ⟨loaded, answered'⟩⟩), agrees⟩

end Registry.Alike

namespace Transport

/-- **Responders that are set up alike give answers that agree**, and go on from the same
state. -/
theorem ask_alike {r r' : Registry σ} (alike : r.Alike r') {request : Request}
    {c c' : Responder σ} {answer : Answer} (h : (direct r).ask request c = (.ok answer, c')) :
    ∃ answer', (direct r').ask request c = (.ok answer', c') ∧ answer.Agrees answer' := by
  cases request with
  | load module version =>
    rcases ask_load_direct_iff.mp h with ⟨session, loaded, rfl, rfl⟩ | ⟨e, failed, rfl, rfl⟩
    · rw [alike.load] at loaded
      exact ⟨_, ask_load_direct_iff.mpr (Or.inl ⟨session, loaded, rfl, rfl⟩), .loaded⟩
    · rw [alike.load] at failed
      exact ⟨_, ask_load_direct_iff.mpr (Or.inr ⟨e, failed, rfl, rfl⟩), .failed e⟩
  | call m =>
    obtain ⟨result, state, answered, rfl, rfl⟩ := ask_call_direct_iff.mp h
    obtain ⟨result', answered', agrees⟩ := alike.session_dispatch c.session answered
    exact ⟨_, ask_call_direct_iff.mpr ⟨result', state, answered', rfl, rfl⟩, agrees⟩

/-! ## Failures -/

/-- A request that is not dispatched has nowhere to go. -/
theorem routes_of_dispatch {session : Session} {r : Registry σ} {request : Message} {s s' : σ}
    {e : TransportError} (h : session.dispatch r request s = (.ok (.error e), s')) :
    Refusal.Routes e := by
  rcases Session.dispatch_eq_ok_iff.mp h with
    ⟨-, eq, -⟩ | ⟨module, -, ⟨-, eq, -⟩ | ⟨-, answered⟩⟩
  · cases eq
    trivial
  · cases eq
    trivial
  · rcases Registry.dispatch_eq_ok_iff.mp answered with ⟨-, eq, -⟩ | ⟨endpoint, reply, -, -, eq⟩
    · cases eq
      trivial
    · -- The failure of a method is a reply.
      cases eq

/-- A failure says where its request could not go. -/
theorem routes_of_ask {r : Registry σ} {request : Request} {c c' : Responder σ}
    {e : TransportError} (h : (direct r).ask request c = (.ok (.failed e), c')) :
    Refusal.Routes e := by
  cases request with
  | load module version =>
    rcases ask_load_direct_iff.mp h with ⟨session, -, eq, -⟩ | ⟨e', failed, eq, -⟩
    · cases eq
    · cases eq
      rcases Session.load_eq_error_iff.mp failed with ⟨-, rfl⟩ | ⟨expected, -, -, rfl⟩
      · trivial
      · trivial
  | call m =>
    obtain ⟨result, state, answered, eq, -⟩ := ask_call_direct_iff.mp h
    rcases result with e' | reply
    · cases eq
      exact routes_of_dispatch answered
    · cases eq

end Transport

end KeyedRpc
