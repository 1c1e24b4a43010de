/-
# Calls over any transport

Whatever a transport does, a call delivers one request, which holds the arguments and nothing
else, and the answer to it decides what the caller gets. A call whose arguments have no room in
a request delivers nothing. So a run of calls comes to the deliveries of their requests, one
after another, and each call gets what its own answer gives (`Transport.call_faithful`).
-/
import KeyedRpc.Proofs.Message.Layout
import KeyedRpc.Proofs.Transport.Calls
import KeyedRpc.Transport.Scripted

namespace KeyedRpc

/-! ## Failures that replies report -/

namespace RemoteError

/-- The text of a reported failure, by the value that the reply has for it. -/
def wording : Value → String
  | .string text => text
  | v => "malformed error reply: RPC type error: key error holds " ++ v.kind.name
      ++ ", expected string"

/-- The frames of a reported failure, by what the reply has for them. -/
def shownFrames : Option Value → Option (List String)
  | some (.strings frames) => some frames
  | _ => none

theorem toOption_get_strings (reply : Message) (key : String) :
    (reply.get .strings key).toOption = shownFrames (reply.get? key) := by
  rw [Message.get]
  rcases reply.get? key with _ | v
  · rfl
  · cases v <;> rfl

/-- A reply with an error is read as one, with its text and its frames. -/
theorem ofReply?_of_held {reply : Message} {v : Value} (held : reply.get? errorKey = some v) :
    ofReply? reply = some ⟨wording v, shownFrames (reply.get? backtraceKey)⟩ := by
  have contains : reply.contains errorKey = true := congrArg Option.isSome held
  rw [ofReply?, if_pos contains, toOption_get_strings, Message.get, held]
  cases v <;> rfl

/-- A reply without an error is no error. -/
theorem ofReply?_of_absent {reply : Message} (absent : reply.get? errorKey = none) :
    ofReply? reply = none := by
  have lacks : reply.contains errorKey = false := congrArg Option.isSome absent
  rw [ofReply?, lacks]
  rfl

end RemoteError

namespace Method

variable {m : Method}

/-! ## Results -/

/-- A result that is not read off a reply lies at the first position, which does not fit. -/
theorem outputOf_eq_error_iff {reply : Message} {e : MessageError} :
    m.outputOf reply = .error e ↔ ∃ kind, m.output.kind? = some kind ∧ reply.Misfit "0" kind e := by
  obtain ⟨module, name, args, _ | kind⟩ := m
  · constructor
    · intro h
      cases h
    · rintro ⟨kind, none, -⟩
      cases none
  · have first : (Cursor.start reply).key = "0" := show Numeral.decimal 0 = "0" by decide
    have read : outputOf ⟨module, name, args, .keyed kind⟩ reply = reply.get kind "0" := by
      show (Cursor.pull kind (Cursor.start reply)).1 = _
      rw [Cursor.pull, first, show (Cursor.start reply).message = reply from rfl]
      cases reply.get kind "0" <;> rfl
    rw [read, Message.get_eq_error_iff]
    simp [WireType.kind?]

/-- A result is read only off a reply that holds it. -/
theorem outputOf_eq_ok_iff {reply : Message} {x : m.output.Carrier} :
    m.outputOf reply = .ok x ↔ reply.Holds (m.outputEntries x) := by
  constructor
  · intro read
    exact (WireType.holds_of_read (c := Cursor.start reply) (Prod.ext read rfl)).1
  · exact outputOf_of_holds

/-- What a call gets by the answer to its request. -/
inductive Receives (m : Method) :
    Except TransportError Message → Except CallError m.output.Carrier → Prop where
  /-- There is no reply. -/
  | undelivered (e : TransportError) : Receives m (.error e) (.error (.transport e))
  /-- The reply is for another method, whatever it holds. -/
  | misrouted {reply : Message} (other : reply.method ≠ m.tag) :
      Receives m (.ok reply) (.error (.transport (.replyMismatch m.tag reply.method)))
  /-- The reply reports a failure, whatever else it holds. -/
  | reported {reply : Message} {v : Value} (same : reply.method = m.tag)
      (held : reply.get? errorKey = some v) :
      Receives m (.ok reply) (.error (.remote
        ⟨RemoteError.wording v, RemoteError.shownFrames (reply.get? backtraceKey)⟩))
  /-- The reply has the result at the first position; the unit type needs no position. -/
  | result {reply : Message} {x : m.output.Carrier} (same : reply.method = m.tag)
      (clean : reply.get? errorKey = none) (holds : reply.Holds (m.outputEntries x)) :
      Receives m (.ok reply) (.ok x)
  /-- The first position does not have a value of the kind of the result. -/
  | unfit {reply : Message} {kind : Kind} {e : MessageError} (same : reply.method = m.tag)
      (clean : reply.get? errorKey = none) (keyed : m.output.kind? = some kind)
      (misfit : reply.Misfit "0" kind e) : Receives m (.ok reply) (.error (.message e))

/-- What a call makes of the answer to its request. -/
def received (m : Method) (answer : Except TransportError Message) :
    Except CallError m.output.Carrier :=
  (answer.mapError CallError.transport).bind m.result

/-- A reply to the method that was called is an error, or is read for the result. -/
theorem result_of_same {reply : Message} (same : reply.method = m.tag) :
    m.result reply = match RemoteError.ofReply? reply with
      | some e => .error (.remote e)
      | none => (m.outputOf reply).mapError .message :=
  if_neg (not_not_intro same)

/-- What a call comes to is told by the answer to it. -/
theorem received_eq_iff {answer : Except TransportError Message}
    {outcome : Except CallError m.output.Carrier} :
    m.received answer = outcome ↔ m.Receives answer outcome := by
  constructor
  · rintro rfl
    rcases answer with e | reply
    · exact .undelivered e
    show m.Receives (.ok reply) (m.result reply)
    by_cases same : reply.method = m.tag
    · rw [result_of_same same]
      rcases held : reply.get? errorKey with _ | v
      · rw [RemoteError.ofReply?_of_absent held]
        rcases read : m.outputOf reply with e | x
        · obtain ⟨kind, keyed, misfit⟩ := outputOf_eq_error_iff.mp read
          exact .unfit same held keyed misfit
        · exact .result same held (outputOf_eq_ok_iff.mp read)
      · rw [RemoteError.ofReply?_of_held held]
        exact .reported same held
    · rw [result, if_pos same]
      exact .misrouted same
  · rintro (_ | other | ⟨same, held⟩ | ⟨same, clean, holds⟩ | ⟨same, clean, keyed, misfit⟩)
    · rfl
    · exact if_pos other
    · show m.result _ = _
      rw [result_of_same same, RemoteError.ofReply?_of_held held]
    · show m.result _ = _
      rw [result_of_same same, RemoteError.ofReply?_of_absent clean]
      dsimp only
      rw [outputOf_eq_ok_iff.mpr holds]
      rfl
    · show m.result _ = _
      rw [result_of_same same, RemoteError.ofReply?_of_absent clean]
      dsimp only
      rw [outputOf_eq_error_iff.mpr ⟨_, keyed, misfit⟩]
      rfl

/-! ## Requests -/

/-- A request asks for a call if it names the method, and its entries are the arguments, each at
its position, and nothing else. -/
structure Asks (m : Method) (args : Args m.args) (request : Message) : Prop where
  method_eq : request.method = m.tag
  entries_perm : request.entries.entries.Perm (m.argEntries args)
  limit_eq : request.limit = defaultLimit

/-- Arguments have room in a request, as they do if they take up no entry. -/
def HasRoom (m : Method) (args : Args m.args) : Prop :=
  m.argEntries args = [] ∨ m.requestSize args ≤ defaultLimit

/-- The size of a request up to the first argument that has no room in it. -/
def Overfills (m : Method) (args : Args m.args) (size : Nat) : Prop :=
  ∃ before entry after, m.argEntries args = before ++ entry :: after ∧
    (before = [] ∨ (Message.spelling m.tag before).length ≤ defaultLimit) ∧
    size = (Message.spelling m.tag (before ++ [entry])).length ∧ defaultLimit < size

/-- Arguments with room make a request that asks with them. -/
theorem exists_request_of_hasRoom {args : Args m.args} (room : m.HasRoom args) :
    ∃ request, m.request args = .ok request ∧ m.Asks args request := by
  have made : ∃ request, m.request args = .ok request := by
    rcases room with none | fits
    · rw [request_eq_setAll, none]
      exact ⟨_, rfl⟩
    · obtain ⟨request, made, -⟩ := exists_request fits
      exact ⟨request, made⟩
  obtain ⟨request, made⟩ := made
  have set := (request_eq_setAll args).symm.trans made
  obtain ⟨method, limit, perm⟩ := Message.setAll_fresh (m.fresh_argEntries args) set
  rw [show (Message.empty m.tag).entries.entries = [] from rfl, List.append_nil] at perm
  exact ⟨request, made, method, perm, limit⟩

/-- Arguments without room make no request, and the error says how many bytes they need. -/
theorem exists_overfills {args : Args m.args} (full : ¬ m.HasRoom args) :
    ∃ size, m.Overfills args size ∧
      m.request args = .error (.bufferTooSmall size defaultLimit) := by
  rw [HasRoom, not_or, Nat.not_le] at full
  obtain ⟨before, entry, after, parts, room, exceeds, refused⟩ := request_of_full full.1 full.2
  exact ⟨_, ⟨before, entry, after, parts, room, rfl, exceeds⟩, refused⟩

end Method

/-! ## Runs of calls -/

/-- A method with arguments for it. -/
structure Call where
  method : Method
  args : Args method.args

/-- A method with what a call of it came to. -/
structure Call.Ended where
  method : Method
  outcome : Except CallError method.output.Carrier

namespace Call

/-- The request of a call, if its arguments have room. -/
def request (c : Call) : Except MessageError Message :=
  c.method.request c.args

/-- The requests of calls, without those that are not made. -/
def requests (calls : List Call) : List Message :=
  calls.filterMap fun c => c.request.toOption

/-- What calls come to, by the answers to those requests of theirs that are made. -/
def ends : List Call → List (Except TransportError Message) → List Ended
  | [], _ => []
  | c :: calls, answers =>
    match c.request, answers with
    | .error e, answers => ⟨c.method, .error (.message e)⟩ :: ends calls answers
    | .ok _, answer :: answers => ⟨c.method, c.method.received answer⟩ :: ends calls answers
    | .ok _, [] => []

/-- Each call ends by an answer of its own, or without one if its request is not made. -/
inductive Answered : List Call → List (Except TransportError Message) → List Ended → Prop where
  | none : Answered [] [] []
  | made {c : Call} {request : Message} {answer : Except TransportError Message}
      {outcome : Except CallError c.method.output.Carrier} {calls : List Call}
      {answers : List (Except TransportError Message)} {ends : List Ended}
      (made : c.request = .ok request) (receives : c.method.Receives answer outcome)
      (others : Answered calls answers ends) :
      Answered (c :: calls) (answer :: answers) (⟨c.method, outcome⟩ :: ends)
  | unmade {c : Call} {e : MessageError} {calls : List Call}
      {answers : List (Except TransportError Message)} {ends : List Ended}
      (refused : c.request = .error e) (others : Answered calls answers ends) :
      Answered (c :: calls) answers (⟨c.method, .error (.message e)⟩ :: ends)

/-- Calls end as their answers say. -/
theorem answered_ends {calls : List Call} {answers : List (Except TransportError Message)}
    (length : answers.length = (requests calls).length) :
    Answered calls answers (ends calls answers) := by
  induction calls generalizing answers with
  | nil =>
    rw [List.eq_nil_of_length_eq_zero length]
    exact .none
  | cons c calls ih =>
    cases asked : c.request with
    | error e =>
      simp only [requests, List.filterMap_cons, asked, Except.toOption] at length
      simp only [ends, asked]
      exact .unmade asked (ih length)
    | ok request =>
      simp only [requests, List.filterMap_cons, asked, Except.toOption, List.length_cons] at length
      cases answers with
      | nil => simp at length
      | cons answer answers =>
        simp only [ends, asked]
        exact .made asked (Method.received_eq_iff.mp rfl) (ih (Nat.succ.inj length))

end Call

namespace Transport

variable {μ : Type → Type} [Monad μ] (t : Transport μ)

/-- Calls methods one after another. -/
def callEach (calls : List Call) : μ (List Call.Ended) :=
  calls.mapM fun c => Call.Ended.mk c.method <$> (t.call c.method c.args).run

variable [LawfulMonad μ]

/-- A call sends its request, and comes to what it receives. -/
theorem run_call_of_made {m : Method} {args : Args m.args} {request : Message}
    (made : m.request args = .ok request) :
    (t.call m args).run = m.received <$> (t.send request).run := by
  rw [run_call, made]
  rfl

/-- A call without a request sends nothing. -/
theorem run_call_of_refused {m : Method} {args : Args m.args} {e : MessageError}
    (refused : m.request args = .error e) :
    (t.call m args).run = pure (.error (.message e)) := by
  rw [run_call, refused]

/-- A run of calls delivers the requests that are made, in order, and nothing else. -/
theorem callEach_eq (calls : List Call) :
    t.callEach calls
      = Call.ends calls <$> (Call.requests calls).mapM fun request => (t.send request).run := by
  induction calls with
  | nil => simp [callEach, Call.requests, Call.ends]
  | cons c calls ih =>
    rw [callEach] at ih
    rw [callEach, List.mapM_cons, ih]
    cases asked : c.request with
    | error e =>
      rw [t.run_call_of_refused asked]
      simp [Call.requests, Call.ends, asked, Except.toOption]
    | ok request =>
      rw [t.run_call_of_made asked]
      simp [Call.requests, Call.ends, asked, Except.toOption]

/-- **Over any transport, a call delivers its request once, and gets what the answer gives.** If
an argument has no room in the request, it delivers nothing and says up to which size it came. So
a run of calls comes to the deliveries of their requests, one after another, and each call gets
what the answer to its own request gives. -/
theorem call_faithful :
    (∀ (m : Method) (args : Args m.args),
      (m.HasRoom args → ∃ request outcome, m.Asks args request ∧
        (∀ answer result, outcome answer = result ↔ m.Receives answer result) ∧
        (t.call m args).run = outcome <$> (t.send request).run) ∧
      (¬ m.HasRoom args → ∃ size, m.Overfills args size ∧
        (t.call m args).run = pure (.error (.message (.bufferTooSmall size defaultLimit))))) ∧
    ∀ calls,
      t.callEach calls
        = Call.ends calls <$> (Call.requests calls).mapM (fun request => (t.send request).run) ∧
      ∀ answers, answers.length = (Call.requests calls).length →
        Call.Answered calls answers (Call.ends calls answers) := by
  refine ⟨fun m args => ⟨fun room => ?_, fun full => ?_⟩, fun calls => ?_⟩
  · obtain ⟨request, made, asks⟩ := Method.exists_request_of_hasRoom room
    refine ⟨request, m.received, asks, ?_, t.run_call_of_made made⟩
    intro answer result
    exact Method.received_eq_iff
  · obtain ⟨size, overfills, refused⟩ := Method.exists_overfills full
    exact ⟨size, overfills, t.run_call_of_refused refused⟩
  · exact ⟨t.callEach_eq calls, fun answers length => Call.answered_ends length⟩

/-- A transport that answers with a reply for another method, which reports a failure. -/
def misrouting : Script where
  replies := [.ok ((Message.empty "calc.Add").edit (.set errorKey (.word 7)))]
  loads := []
  delivered := []

/-- The request is delivered once, and the caller hears of the other method and not of the
failure. -/
theorem call_faithful_misrouted :
    fillMethod.HasRoom ((2, ()) : Args fillMethod.args) ∧
      ∃ after, (scripted.call fillMethod (2, ())).run misrouting
        = (.error (.transport (.replyMismatch "calc.Fill" "calc.Add")), after) ∧
        after.delivered.length = 1 := by
  have room : fillMethod.HasRoom ((2, ()) : Args fillMethod.args) := Or.inr (by decide)
  obtain ⟨request, outcome, asks, receives, called⟩ :=
    ((call_faithful scripted).1 fillMethod (2, ())).1 room
  have sent : (scripted.send request).run misrouting
      = (.ok ((Message.empty "calc.Add").edit (.set errorKey (.word 7))),
          ⟨[], [], [.request request]⟩) := rfl
  have other : outcome (.ok ((Message.empty "calc.Add").edit (.set errorKey (.word 7))))
      = .error (.transport (.replyMismatch "calc.Fill" "calc.Add")) := by
    rw [receives]
    exact .misrouted (by decide)
  refine ⟨room, ⟨[], [], [.request request]⟩, ?_, rfl⟩
  rw [called, ← other]
  show (fun result => (outcome result.1, result.2)) ((scripted.send request).run misrouting) = _
  rw [sent]

end Transport

end KeyedRpc
