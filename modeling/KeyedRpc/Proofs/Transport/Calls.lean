/-
# Calls within one process

Over the transport to a responder in the same process, a call of a method is a call of its
handler. The handler runs once, on exactly the arguments of the caller, and what it comes to is
what the caller gets; only a result that has no room in a reply turns into the report of that,
and only a report that has none stops the responder. Arguments that have no room in a request
are not delivered at all (`Transport.call_runs_handler`).
-/
import KeyedRpc.Proofs.Message.Positions
import KeyedRpc.Proofs.Serving.Invocations
import KeyedRpc.Proofs.Stream.Carriage
import KeyedRpc.Proofs.Transport.InProcess

namespace KeyedRpc

variable {σ : Type}

namespace Method

variable (m : Method)

/-! ## Sizes -/

/-- The entries of the request for arguments. -/
def argEntries (args : Args m.args) : List (String × Value) :=
  positioned 0 (Args.values m.args args)

/-- The number of bytes of the request for arguments. -/
def requestSize (args : Args m.args) : Nat :=
  (Message.spelling m.tag (m.argEntries args)).length

/-- The entries of the reply with a result. -/
def outputEntries (output : m.output.Carrier) : List (String × Value) :=
  positioned 0 (m.output.values output)

/-- The number of bytes of the reply with a result. -/
def replySize (output : m.output.Carrier) : Nat :=
  (Message.spelling m.tag (m.outputEntries output)).length

/-! ## What a call comes to -/

/-- What a call comes to by what its handler came to, if replies have a limit: the result, or
the text of a failure. A result of the unit type takes up no entry and always has room. -/
def outcome (limit : Nat) : Except Failure m.output.Carrier → Except String m.output.Carrier
  | .ok output =>
    if m.outputEntries output = [] ∨ m.replySize output ≤ limit then .ok output
    else .error (MessageError.bufferTooSmall (m.replySize output) limit).text
  | .error (.fault text) => .error text
  | .error (.crash (some text)) => .error text
  | .error (.crash none) => .error Failure.unknown

/-- What the caller gets by what a call comes to: the result, or the report of the failure, which
may have frames of a call stack with it. If the report has no room the responder stops. -/
inductive Gets (limit : Nat) : Except String m.output.Carrier →
    Except Abort (Except CallError m.output.Carrier) → Prop where
  | result (output : m.output.Carrier) : Gets limit (.ok output) (.ok (.ok output))
  | reported {text : String} (backtrace : Option (List String))
      (room : Message.reportSize m.tag text ≤ limit) :
      Gets limit (.error text) (.ok (.error (.remote ⟨text, backtrace⟩)))
  | stopped {text : String} (full : limit < Message.reportSize m.tag text) :
      Gets limit (.error text) (.error ⟨m.tag, text,
        .bufferTooSmall (Message.reportSize m.tag text) limit⟩)

variable {m}

/-- A responder that has room for every report does not stop. -/
theorem Gets.of_room {limit : Nat} {outcome : Except String m.output.Carrier}
    {ended : Except Abort (Except CallError m.output.Carrier)} (h : m.Gets limit outcome ended)
    (room : ∀ text, outcome = .error text → Message.reportSize m.tag text ≤ limit) :
    (∃ output, outcome = .ok output ∧ ended = .ok (.ok output)) ∨
      ∃ text backtrace, outcome = .error text ∧
        ended = .ok (.error (.remote ⟨text, backtrace⟩)) := by
  rcases h with output | ⟨backtrace, _⟩ | full
  · exact Or.inl ⟨output, rfl, rfl⟩
  · exact Or.inr ⟨_, backtrace, rfl, rfl⟩
  · exact absurd (room _ rfl) (Nat.not_le_of_lt full)

/-! ## Requests -/

theorem request_eq_setAll (args : Args m.args) :
    m.request args = (Message.empty m.tag).setAll (m.argEntries args) :=
  m.withArgs_eq_setAll args (Message.empty m.tag)

/-- The arguments go to keys that no other argument has. -/
theorem fresh_argEntries (args : Args m.args) :
    (Message.empty m.tag).Fresh (m.argEntries args) :=
  (Message.fresh_withLimit _ _ _).mpr (nodup_positioned 0 _)

/-- A message to a method is as long as its header and its entries. -/
theorem length_spelling_tag (l : List (String × Value)) :
    (Message.spelling m.tag l).length
      = (Message.empty m.tag).size + sumOf (fun entry => entrySize entry.1 entry.2) l :=
  Message.length_spelling m.tag l

/-- A request that keeps within the default limit is made. -/
theorem exists_request {args : Args m.args} (fits : m.requestSize args ≤ defaultLimit) :
    ∃ request, m.request args = .ok request ∧ request.size = m.requestSize args := by
  have fresh := m.fresh_argEntries args
  have size := m.length_spelling_tag (m.argEntries args)
  obtain ⟨request, set⟩ := Message.exists_setAll fresh (size ▸ fits)
  refine ⟨request, (request_eq_setAll args).trans set, ?_⟩
  rw [Message.size_setAll fresh set, ← size]
  rfl

/-- Otherwise it is refused with the first argument that has no room in it. -/
theorem request_of_full {args : Args m.args} (some : m.argEntries args ≠ [])
    (full : defaultLimit < m.requestSize args) :
    ∃ before entry after, m.argEntries args = before ++ entry :: after ∧
      (before = [] ∨ (Message.spelling m.tag before).length ≤ defaultLimit) ∧
      defaultLimit < (Message.spelling m.tag (before ++ [entry])).length ∧
      m.request args = .error (.bufferTooSmall
        (Message.spelling m.tag (before ++ [entry])).length defaultLimit) := by
  rw [requestSize, length_spelling_tag] at full
  simp only [length_spelling_tag, request_eq_setAll]
  exact Message.setAll_of_full (m.fresh_argEntries args) some full

/-! ## Replies -/

theorem placed_eq_setAll (output : m.output.Carrier) (reply : Message) :
    m.output.placed output reply = reply.setAll (m.outputEntries output) := by
  rw [← withOutput_eq_placed, withOutput_eq_setAll]
  rfl

/-- No position is the key of a failure. -/
theorem errorKey_notMem_outputEntries (output : m.output.Carrier) :
    errorKey ∉ (m.outputEntries output).map Prod.fst := by
  intro mem
  obtain ⟨entry, mem, key⟩ := List.mem_map.mp mem
  obtain ⟨i, -, position⟩ := key_of_mem_positioned mem
  have numeral := Numeral.readDecimal?_decimal i
  rw [← position, key] at numeral
  cases numeral

theorem fresh_outputEntries (output : m.output.Carrier) (limit : Nat) :
    (Message.withLimit m.tag limit).Fresh (m.outputEntries output) :=
  (Message.fresh_withLimit _ _ _).mpr (nodup_positioned 0 _)

/-- A result takes up one entry at most. -/
theorem length_outputEntries_le (output : m.output.Carrier) :
    (m.outputEntries output).length ≤ 1 := by
  unfold outputEntries
  obtain ⟨module, name, args, _ | kind⟩ := m
  · exact Nat.zero_le 1
  · exact Nat.le_refl 1

/-- A result with room is written. -/
theorem placed_of_room {output : m.output.Carrier} {limit : Nat}
    (room : m.outputEntries output = [] ∨ m.replySize output ≤ limit) :
    ∃ filled, m.output.placed output (Message.withLimit m.tag limit) = .ok filled := by
  rw [placed_eq_setAll]
  rcases room with none | le
  · exact ⟨_, by rw [none]; rfl⟩
  · rw [replySize, Message.length_spelling] at le
    exact Message.exists_setAll (m.fresh_outputEntries output limit) le

/-- A result without room is not written, and the failure says how many bytes it needs. -/
theorem placed_of_full {output : m.output.Carrier} {limit : Nat}
    (full : ¬ (m.outputEntries output = [] ∨ m.replySize output ≤ limit)) :
    m.output.placed output (Message.withLimit m.tag limit)
      = .error (.bufferTooSmall (m.replySize output) limit) := by
  rw [not_or, Nat.not_le] at full
  obtain ⟨some, exceeds⟩ := full
  rw [replySize, Message.length_spelling] at exceeds ⊢
  obtain ⟨before, entry, after, parts, -, -, refused⟩ :=
    Message.setAll_of_full (m.fresh_outputEntries output limit) some exceeds
  -- The entry that has no room is the only one.
  have few := m.length_outputEntries_le output
  rw [parts, List.length_append, List.length_cons] at few
  have alone : before = [] ∧ after = [] :=
    ⟨List.length_eq_zero_iff.mp (by omega), List.length_eq_zero_iff.mp (by omega)⟩
  obtain ⟨rfl, rfl⟩ := alone
  rw [placed_eq_setAll, refused, parts]
  rfl

/-- A reply with a result can be written if the limit on replies can, and the tag. -/
theorem size_placed_le {output : m.output.Carrier} {limit : Nat} {filled : Message}
    (placed : m.output.placed output (Message.withLimit m.tag limit) = .ok filled)
    (tag_le : headerSize m.tag ≤ maxLength) (limit_le : limit ≤ maxLength) :
    filled.size ≤ maxLength := by
  rw [placed_eq_setAll] at placed
  by_cases none : m.outputEntries output = []
  · rw [none] at placed
    cases placed
    exact tag_le
  · have le := Message.size_setAll_le_limit none placed
    have limit_eq : filled.limit = limit :=
      (Message.setAll_fresh (m.fresh_outputEntries output limit) placed).2.1
    omega

/-- A result that has room in a reply is taken out of it again. -/
theorem result_of_placed {output : m.output.Carrier} {limit : Nat} {filled : Message}
    (placed : m.output.placed output (Message.withLimit m.tag limit) = .ok filled) :
    m.result filled.received = .ok output := by
  rw [placed_eq_setAll] at placed
  have fresh := m.fresh_outputEntries output limit
  have method : filled.method = m.tag := (Message.setAll_fresh fresh placed).1
  have holds : filled.Holds (m.outputEntries output) := Message.get?_setAll fresh.1 placed
  have clean : RemoteError.ofReply? filled.received = none := by
    have absent : filled.get? errorKey = none :=
      Message.get?_setAll_of_absent placed (m.errorKey_notMem_outputEntries output)
    have lacks : filled.received.contains errorKey = false := congrArg Option.isSome absent
    unfold RemoteError.ofReply?
    rw [lacks]
    rfl
  have read : m.outputOf filled.received = .ok output := outputOf_of_holds holds
  have same : filled.received.method = m.tag := method
  rw [result, if_neg (not_not_intro same), clean]
  dsimp only
  rw [read]
  rfl

/-- A failure that is reported is read off the report. -/
theorem result_of_reports {reply report : Message} {text : String}
    (reports : report.Reports reply text) (method : reply.method = m.tag) :
    ∃ backtrace, m.result report.received = .error (.remote ⟨text, backtrace⟩) := by
  have held : report.received.get? errorKey = some (.string text) := reports.get?_errorKey
  have contains : report.received.contains errorKey = true := congrArg Option.isSome held
  have read : report.received.get .string errorKey = .ok text := Message.get_of_get? held
  refine ⟨(report.received.get .strings backtraceKey).toOption, ?_⟩
  have same : report.received.method = m.tag := reports.method.trans method
  rw [result, if_neg (not_not_intro same), RemoteError.ofReply?, if_pos contains, read]

/-! ## What the caller gets of an invocation -/

/-- What the caller gets of how an invocation settled. -/
def answered (settled : Except Abort Message) :
    Except Abort (Except CallError m.output.Carrier) :=
  settled.map fun reply => (reply.carried.mapError CallError.transport).bind m.result

/-- A reply with a place in a frame is read for the result as it was sent. -/
theorem answered_of_le {reply : Message} (le : reply.size ≤ maxLength) :
    m.answered (.ok reply) = .ok (m.result reply.received) := by
  rw [answered, Except.map, Message.carried_eq le]
  rfl

/-- A result that is put into a reply is what the caller gets. -/
theorem gets_of_placed {output : m.output.Carrier} {limit : Nat} {filled : Message}
    (placed : m.output.placed output (Message.withLimit m.tag limit) = .ok filled)
    (tag_le : headerSize m.tag ≤ maxLength) (limit_le : limit ≤ maxLength) :
    m.Gets limit (.ok output) (m.answered (.ok filled)) := by
  rw [answered_of_le (size_placed_le placed tag_le limit_le), result_of_placed placed]
  exact .result output

/-- A failure is what the caller gets, as its report or as the end of the responder. -/
theorem gets_of_settles {text : String} {limit : Nat} {settled : Except Abort Message}
    (settles : (Message.withLimit m.tag limit).Settles (.error text) settled)
    (limit_le : limit ≤ maxLength) : m.Gets limit (.error text) (m.answered settled) := by
  rcases settles with _ | ⟨room, reports⟩ | full
  · have within := reports.within
    rw [reports.limit] at within
    obtain ⟨backtrace, reported⟩ := result_of_reports reports rfl
    rw [answered_of_le (Nat.le_trans within limit_le), reported]
    exact .reported backtrace room
  · exact .stopped full

end Method

/-! ## Runs of the handler -/

/-- A handler that ran on the arguments of a request has attempted what the call comes to. -/
theorem MethodHandler.attempt_of_ran {m : Method} {handle : MethodHandler σ m} {request : Message}
    {args : Args m.args} (read : m.argsOf request = .ok args) {s s' : σ}
    {result : Except Failure m.output.Carrier} (ran : handle args s = (result, s'))
    (limit : Nat) :
    (∃ output filled, m.outcome limit result = .ok output ∧
      m.output.placed output (Message.withLimit m.tag limit) = .ok filled ∧
      handle.Attempt request (Message.withLimit m.tag limit) s (.ok filled) s') ∨
    ∃ text, m.outcome limit result = .error text ∧
      handle.Attempt request (Message.withLimit m.tag limit) s (.error text) s' := by
  rcases result with (text | (_ | text)) | output
  · exact Or.inr ⟨text, rfl, .faulted read ran⟩
  · exact Or.inr ⟨_, rfl, .silent read ran⟩
  · exact Or.inr ⟨text, rfl, .crashed read ran⟩
  · by_cases room : m.outputEntries output = [] ∨ m.replySize output ≤ limit
    · obtain ⟨filled, placed⟩ := Method.placed_of_room room
      exact Or.inl ⟨output, filled, if_pos room, placed, .placed read ran placed⟩
    · exact Or.inr ⟨_, if_neg room, .unplaced read ran (Method.placed_of_full room)⟩

namespace Transport

variable {r : Registry σ} {m : Method} {args : Args m.args}

/-- A call whose request is made is its delivery, and what its reply gives. -/
theorem call_of_made {request : Message} (made : m.request args = .ok request)
    (c : Responder σ) : (inProcess r).call m args c
      = (((inProcess r).send request c).1.map
            fun answer => (answer.mapError CallError.transport).bind m.result,
          ((inProcess r).send request c).2) := by
  have run := (inProcess r).run_call m args
  rw [made] at run
  exact (congrFun run c).trans (map_apply _ _ c)

/-- A call whose request is not made is not delivered. -/
theorem call_of_unmade {e : MessageError} (unmade : m.request args = .error e)
    (c : Responder σ) : (inProcess r).call m args c = (.ok (.error (.message e)), c) := by
  have run := (inProcess r).run_call m args
  rw [unmade] at run
  exact congrFun run c

/-- A call whose request is made and can be written is an attempt of the handler to answer, and
the caller gets what that settles on. -/
theorem call_of_attempt {handle : MethodHandler σ m} (dotless : '.' ∉ m.module.toList)
    (registered : r.endpoints.get? m.tag = some (.typed m handle)) {c : Responder σ}
    (loaded : c.session.isLoaded m.module = true) {request : Message}
    (made : m.request args = .ok request) (le : request.size ≤ maxLength)
    {attempt : Except String Message} {state : σ}
    (tried : handle.Attempt request.received (Message.withLimit m.tag r.replyLimit) c.state attempt
      state) :
    ∃ settled, (Message.withLimit m.tag r.replyLimit).Settles attempt settled ∧
      (inProcess r).call m args c = (m.answered settled, { c with state }) := by
  obtain ⟨settled, invoked, settles⟩ := tried.settles r.stackAt
  have method : request.received.method = m.tag :=
    (Message.setAll_fresh (m.fresh_argEntries args)
      ((Method.request_eq_setAll args).symm.trans made)).1
  have named : moduleOf? request.received.method = some m.module := by
    rw [method]
    exact moduleOf?_methodTag m.name dotless
  have dispatched := Registry.dispatch_of_registered (method ▸ registered) c.state
  rw [← Session.dispatch_of_loaded named loaded] at dispatched
  rw [method, show (Endpoint.typed m handle).handler = handle.onMessages from rfl, invoked]
    at dispatched
  refine ⟨settled, settles, ?_⟩
  rw [call_of_made made, send_inProcess (Message.carried_eq le) dispatched]
  cases settled <;> rfl

/-- A call whose request is made and can be written runs the handler, and gets what that comes
to. -/
theorem call_of_request {handle : MethodHandler σ m} (dotless : '.' ∉ m.module.toList)
    (registered : r.endpoints.get? m.tag = some (.typed m handle))
    (limit_le : r.replyLimit ≤ maxLength) {c : Responder σ}
    (loaded : c.session.isLoaded m.module = true) {request : Message}
    (made : m.request args = .ok request) (le : request.size ≤ maxLength) :
    ∃ ended, (inProcess r).call m args c
        = (ended, { c with state := (handle args c.state).2 }) ∧
      m.Gets r.replyLimit (m.outcome r.replyLimit (handle args c.state).1) ended := by
  have set := (Method.request_eq_setAll args).symm.trans made
  have fresh := m.fresh_argEntries args
  have holds : request.Holds (m.argEntries args) := Message.get?_setAll fresh.1 set
  have read : m.argsOf request.received = .ok args :=
    Method.argsOf_eq_ok_iff.mpr (show request.received.Holds _ from holds)
  rcases ran : handle args c.state with ⟨result, state⟩
  rcases handle.attempt_of_ran read ran r.replyLimit with
    ⟨output, filled, outcome, placed, tried⟩ | ⟨text, outcome, tried⟩
  · obtain ⟨settled, settles, call_eq⟩ :=
      call_of_attempt dotless registered loaded made le tried
    cases settles
    have tag_le : headerSize m.tag ≤ maxLength := by
      rw [← show request.method = m.tag from (Message.setAll_fresh fresh set).1]
      exact Nat.le_trans (request.size_eq ▸ Nat.le_add_right _ _) le
    exact ⟨_, call_eq, outcome ▸ Method.gets_of_placed placed tag_le limit_le⟩
  · obtain ⟨settled, settles, call_eq⟩ :=
      call_of_attempt dotless registered loaded made le tried
    exact ⟨_, call_eq, outcome ▸ Method.gets_of_settles settles limit_le⟩

/-- A call whose request has room runs the handler. -/
theorem call_of_fits {handle : MethodHandler σ m} (dotless : '.' ∉ m.module.toList)
    (registered : r.endpoints.get? m.tag = some (.typed m handle))
    (limit_le : r.replyLimit ≤ maxLength) {c : Responder σ}
    (loaded : c.session.isLoaded m.module = true) (fits : m.requestSize args ≤ defaultLimit) :
    ∃ ended, (inProcess r).call m args c
        = (ended, { c with state := (handle args c.state).2 }) ∧
      m.Gets r.replyLimit (m.outcome r.replyLimit (handle args c.state).1) ended := by
  obtain ⟨request, made, size⟩ := Method.exists_request fits
  have le : request.size ≤ maxLength := Nat.le_trans (size ▸ fits) defaultLimit_le_maxLength
  exact call_of_request dotless registered limit_le loaded made le

/-- A call whose request has no room runs nothing. -/
theorem call_of_full (some : m.argEntries args ≠ []) (full : defaultLimit < m.requestSize args)
    (c : Responder σ) : ∃ before entry after, m.argEntries args = before ++ entry :: after ∧
      (before = [] ∨ (Message.spelling m.tag before).length ≤ defaultLimit) ∧
      defaultLimit < (Message.spelling m.tag (before ++ [entry])).length ∧
      (inProcess r).call m args c = (.ok (.error (.message (.bufferTooSmall
        (Message.spelling m.tag (before ++ [entry])).length defaultLimit))), c) := by
  obtain ⟨before, entry, after, parts, room, exceeds, unmade⟩ := Method.request_of_full some full
  exact ⟨before, entry, after, parts, room, exceeds, call_of_unmade unmade c⟩

/-- **A call is the call of its handler.** If the request has room, the handler runs once, on the
arguments of the caller, in the state that handlers share; the caller gets what that comes to.
If an argument has no room in the request, the caller is told with the size up to the first one
that has none, and nothing runs. -/
theorem call_runs_handler {handle : MethodHandler σ m} (dotless : '.' ∉ m.module.toList)
    (registered : r.endpoints.get? m.tag = some (.typed m handle))
    (limit_le : r.replyLimit ≤ maxLength) {c : Responder σ}
    (loaded : c.session.isLoaded m.module = true) (args : Args m.args) :
    (m.requestSize args ≤ defaultLimit →
      ∃ ended, (inProcess r).call m args c
          = (ended, { c with state := (handle args c.state).2 }) ∧
        m.Gets r.replyLimit (m.outcome r.replyLimit (handle args c.state).1) ended) ∧
    (defaultLimit < m.requestSize args → m.argEntries args ≠ [] →
      ∃ before entry after, m.argEntries args = before ++ entry :: after ∧
        (before = [] ∨ (Message.spelling m.tag before).length ≤ defaultLimit) ∧
        defaultLimit < (Message.spelling m.tag (before ++ [entry])).length ∧
        (inProcess r).call m args c = (.ok (.error (.message (.bufferTooSmall
          (Message.spelling m.tag (before ++ [entry])).length defaultLimit))), c)) := by
  constructor
  · intro fits
    exact call_of_fits dotless registered limit_le loaded fits
  · intro full some
    exact call_of_full some full c

/-- A method that fills words. -/
def fillMethod : Method where
  module := "calc"
  name := "Fill"
  args := [Kind.word]
  output := Kind.words

/-- A handler that counts its runs. -/
def fill : MethodHandler Nat fillMethod := fun (n, ()) => do
  modify (· + 1)
  pure (List.replicate n.toNat 0xAB)

/-- A registry with room for few words in a reply. -/
def fillRegistry : Registry Nat :=
  (Registry.withReplyLimit 90 fun _ => none).register fillMethod fill

/-- The handler has run, but its result is too long, and that is what the caller hears. -/
theorem call_runs_handler_overfull :
    fillMethod.requestSize ((20, ()) : Args fillMethod.args) ≤ defaultLimit ∧
      ∃ ended, (inProcess fillRegistry).call fillMethod (20, ()) ⟨⟨["calc"]⟩, 5⟩
          = (ended, ⟨⟨["calc"]⟩, 6⟩) ∧
        fillMethod.Gets 90
          (.error "RPC buffer too small: 109 bytes needed, limit is 90") ended := by
  have fits : fillMethod.requestSize ((20, ()) : Args fillMethod.args) ≤ defaultLimit := by decide
  have registered : fillRegistry.endpoints.get? fillMethod.tag = some (.typed fillMethod fill) :=
    rfl
  obtain ⟨ended, called, gets⟩ := (call_runs_handler (c := ⟨⟨["calc"]⟩, 5⟩) (by decide)
    registered (by decide) (by decide) (20, ())).1 fits
  exact ⟨fits, ended, called, gets⟩

end Transport

end KeyedRpc
