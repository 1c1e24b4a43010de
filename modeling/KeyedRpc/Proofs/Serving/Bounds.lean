/-
# How large replies are

Handlers of messages that only edit their reply keep its method and its limit, and no edit takes
a message beyond its limit. So a reply keeps within the limit on replies if its method alone
does. If not, every failure stops the responder for good and nothing can be put into a reply:
what is answered then is the reply without entries, which is larger than the limit, and it is
the answer of every handler that succeeds with nothing to say (`Registry.dispatch_bounded`).
-/
import KeyedRpc.Proofs.Serving.Dispatch
import KeyedRpc.Proofs.Serving.Invocations

namespace KeyedRpc

variable {σ : Type}

/-! ## Sizes -/

namespace Message

/-- A message is not shorter than its header. -/
theorem headerSize_le_size (m : Message) : headerSize m.method ≤ m.size := by
  have size := m.size_eq
  omega

/-- A message whose method alone is beyond its limit has no entries. -/
theorem eq_withLimit_of_full {m : Message} (full : m.limit < headerSize m.method) :
    m = withLimit m.method m.limit := by
  have least := m.headerSize_le_size
  rcases m.within with none | within
  · exact ext rfl none rfl
  · omega

/-- A report is not shorter than the header. -/
theorem headerSize_le_reportSize (method text : String) :
    headerSize method ≤ reportSize method text := by
  rw [reportSize, length_spelling]
  omega

end Message

/-! ## Editing handlers -/

/-- A registry is editing if its handlers of messages are. -/
def Registry.Editing (r : Registry σ) : Prop :=
  ∀ tag handle, r.endpoints.get? tag = some (.raw handle) → handle.Editing

/-- What is registered only edits replies, be it for methods or for messages. -/
theorem Registry.Editing.handler {r : Registry σ} (editing : r.Editing) {tag : String}
    {endpoint : Endpoint σ} (registered : r.endpoints.get? tag = some endpoint) :
    endpoint.handler.Editing := by
  cases endpoint with
  | typed m handle => exact handle.editing_onMessages
  | raw handle => exact editing tag handle registered

/-- An editing handler is invoked on a reply, and the method and the limit stay. -/
theorem Handler.Editing.invoke_keeps {handle : Handler σ} (editing : handle.Editing)
    {stackAt : σ → Option String} {request reply final : Message} {s s' : σ}
    (h : handle.invoke stackAt request reply s = (.ok final, s')) :
    final.method = reply.method ∧ final.limit = reply.limit := by
  obtain ⟨attempt, left, after, tried⟩ := handle.exists_attempt request reply s
  obtain ⟨settled, invoked, settles⟩ := tried.settles stackAt
  obtain ⟨result, ran, told⟩ := tried.ran
  obtain ⟨method, limit⟩ := editing.keeps ran
  rw [h] at invoked
  cases invoked
  rcases settles with _ | ⟨-, reports⟩ | _
  · -- What was filled in is what the handler left.
    rcases result with failure | ⟨⟩
    · cases told
    · cases told
      exact ⟨method, limit⟩
  · exact ⟨reports.method.trans method, reports.limit.trans limit⟩

/-- Where the method of a reply alone is beyond the limit, no failure can be reported: an
invocation gives a reply if and only if the handler gives it. -/
theorem Handler.Editing.invoke_of_full {handle : Handler σ} (editing : handle.Editing)
    (stackAt : σ → Option String) {request reply final : Message} {s s' : σ}
    (full : reply.limit < headerSize reply.method) :
    handle.invoke stackAt request reply s = (.ok final, s') ↔
      handle request (reply, s) = (.ok (), final, s') := by
  constructor
  · intro h
    obtain ⟨attempt, left, after, tried⟩ := handle.exists_attempt request reply s
    obtain ⟨settled, invoked, settles⟩ := tried.settles stackAt
    obtain ⟨result, ran, told⟩ := tried.ran
    obtain ⟨method, limit⟩ := editing.keeps ran
    rw [h] at invoked
    cases invoked
    rcases settles with _ | @⟨text, _, room, -⟩ | _
    · rcases result with failure | ⟨⟩
      · cases told
      · cases told
        exact ran
    · have le := Message.headerSize_le_reportSize left.method text
      rw [method] at le room
      omega
  · intro ran
    unfold Handler.invoke
    rw [ran]

/-! ## Replies of a registry -/

/-- A reply of a registry has the method of its request and the limit on replies. -/
theorem Registry.dispatch_keeps {r : Registry σ} {request reply : Message} {s s' : σ}
    (editing : r.Editing) (h : r.dispatch request s = (.ok (.ok reply), s')) :
    reply.method = request.method ∧ reply.limit = r.replyLimit := by
  rcases Registry.dispatch_eq_ok_iff.mp h with
    ⟨-, eq, -⟩ | ⟨endpoint, final, registered, invoked, eq⟩
  · cases eq
  · cases eq
    exact (editing.handler registered).invoke_keeps invoked

/-- **Replies keep within the limit on replies if the method of the request does.** If it does
not, a request is answered only by a handler that succeeds without an entry to leave, and the
reply is larger than the limit. -/
theorem Registry.dispatch_bounded {r : Registry σ} (editing : r.Editing) (request : Message)
    (s : σ) :
    (headerSize request.method ≤ r.replyLimit → ∀ reply s',
      r.dispatch request s = (.ok (.ok reply), s') →
        reply.method = request.method ∧ reply.size ≤ r.replyLimit) ∧
    (r.replyLimit < headerSize request.method → ∀ reply s',
      r.dispatch request s = (.ok (.ok reply), s') ↔
        reply = Message.withLimit request.method r.replyLimit ∧ r.replyLimit < reply.size ∧
          ∃ endpoint, r.endpoints.get? request.method = some endpoint ∧
            endpoint.handler request (reply, s) = (.ok (), reply, s')) := by
  refine ⟨fun header reply s' h => ?_, fun full reply s' => ⟨fun h => ?_, ?_⟩⟩
  · obtain ⟨method, limit⟩ := Registry.dispatch_keeps editing h
    -- A reply that is empty may be larger than its limit, but not than its header.
    rcases reply.within with none | within
    · have size := reply.size_eq
      rw [none, method] at size
      exact ⟨method, size ▸ header⟩
    · exact ⟨method, limit ▸ within⟩
  · obtain ⟨method, limit⟩ := Registry.dispatch_keeps editing h
    have empty : reply = Message.withLimit reply.method reply.limit := by
      apply Message.eq_withLimit_of_full
      rw [method, limit]
      exact full
    rw [method, limit] at empty
    rcases Registry.dispatch_eq_ok_iff.mp h with
      ⟨-, eq, -⟩ | ⟨endpoint, final, registered, invoked, eq⟩
    · cases eq
    · cases eq
      rw [(editing.handler registered).invoke_of_full r.stackAt full, ← empty] at invoked
      have least := reply.headerSize_le_size
      rw [method] at least
      exact ⟨empty, Nat.lt_of_lt_of_le full least, endpoint, registered, invoked⟩
  · rintro ⟨rfl, -, endpoint, registered, ran⟩
    rw [Registry.dispatch_eq_ok_iff]
    refine Or.inr ⟨endpoint, _, registered, ?_, rfl⟩
    exact ((editing.handler registered).invoke_of_full r.stackAt full).mpr ran

/-- A reply of a session is for the method of its request, and keeps within the limit on replies
unless it has no entries. -/
theorem Session.reply_within {session : Session} {r : Registry σ} {request reply : Message}
    {s s' : σ} (editing : r.Editing)
    (h : session.dispatch r request s = (.ok (.ok reply), s')) :
    reply.method = request.method ∧
      (reply.entries = KeyMap.empty ∨ reply.size ≤ r.replyLimit) := by
  -- The reply comes from an endpoint, to which the session leaves the request.
  rcases Session.dispatch_eq_ok_iff.mp h with
    ⟨-, eq, -⟩ | ⟨module, -, ⟨-, eq, -⟩ | ⟨-, answered⟩⟩
  · cases eq
  · cases eq
  · obtain ⟨method, limit⟩ := Registry.dispatch_keeps editing answered
    have within := reply.within
    rw [limit] at within
    exact ⟨method, within⟩

/-- The reply to a request whose method has a place in a frame has one as well. -/
theorem Session.reply_size_le {session : Session} {r : Registry σ} {request reply : Message}
    {s s' : σ} (editing : r.Editing) (limit : r.replyLimit ≤ maxLength)
    (header : headerSize request.method ≤ maxLength)
    (h : session.dispatch r request s = (.ok (.ok reply), s')) : reply.size ≤ maxLength := by
  obtain ⟨method, none | within⟩ := Session.reply_within editing h
  · -- Without entries it is as long as its method.
    have size : reply.size = headerSize request.method := by
      rw [reply.size_eq, none, method]
      rfl
    omega
  · omega

/-! ## A limit below the method -/

/-- The method `calc.Reset`, without arguments and result. -/
def resetMethod : Method :=
  ⟨"calc", "Reset", [], .unit⟩

/-- A registry with the method `calc.Reset` and a limit on the size of replies. -/
def resetRegistry (limit : Nat) : Registry Unit :=
  (Registry.withReplyLimit limit fun _ => none).register resetMethod fun _ => pure ()

theorem editing_resetRegistry (limit : Nat) : (resetRegistry limit).Editing :=
  Registry.raw_register (fun _ _ none => by cases none) _ _

/-- A reply of 19 bytes is within a limit of 19 bytes, and beyond one of 5 bytes. -/
theorem dispatch_bounded_reset :
    (∃ reply, (resetRegistry 19).dispatch (.empty "calc.Reset") () = (.ok (.ok reply), ()) ∧
      reply.method = "calc.Reset" ∧ reply.size ≤ 19) ∧
    ∃ reply, (resetRegistry 5).dispatch (.empty "calc.Reset") () = (.ok (.ok reply), ()) ∧
      reply = Message.withLimit "calc.Reset" 5 ∧ 5 < reply.size := by
  obtain ⟨within, -⟩ :=
    Registry.dispatch_bounded (editing_resetRegistry 19) (.empty "calc.Reset") ()
  obtain ⟨-, beyond⟩ := Registry.dispatch_bounded (editing_resetRegistry 5) (.empty "calc.Reset") ()
  have answered : (resetRegistry 5).dispatch (.empty "calc.Reset") ()
      = (.ok (.ok (Message.withLimit "calc.Reset" 5)), ()) := rfl
  obtain ⟨empty, larger, -⟩ := (beyond (by decide) _ _).mp answered
  exact ⟨⟨_, rfl, within (by decide) _ _ rfl⟩, _, answered, empty, larger⟩

/-- The limit on replies does not bound every reply: with a limit of 5 bytes, a request for
`calc.Reset` is answered by 19 bytes. -/
theorem dispatch_exceeds_limit :
    ¬ ∀ (limit : Nat) (r : Registry Unit) (request reply : Message) (s s' : Unit),
      r.Editing → r.replyLimit = limit → r.dispatch request s = (.ok (.ok reply), s') →
        reply.size ≤ limit := by
  intro bounded
  have answered : (resetRegistry 5).dispatch (.empty "calc.Reset") ()
      = (.ok (.ok (Message.withLimit "calc.Reset" 5)), ()) := rfl
  have le := bounded 5 _ _ _ _ _ (editing_resetRegistry 5) rfl answered
  exact absurd le (by decide)

end KeyedRpc
