/-
# How invocations end

An invocation has three ends. A handler that succeeds leaves its reply as it filled it in. A
failure, wherever it came up, is reported in the place of all that the reply held; if not even
its text has room there, the responder stops for good. Which of the three it is hangs on the
attempt of the handler and on the method and the limit of the reply, and on nothing that was
written into it before (`Handler.invoke_settles`).
-/
import KeyedRpc.Proofs.Message.Histories
import KeyedRpc.Proofs.Remote.Frames
import KeyedRpc.Serving.Invocation

namespace KeyedRpc

variable {σ : Type}

/-! ## Reports -/

namespace Message

/-- The number of bytes of a message that has the text of a failure as its only entry. -/
def reportSize (method text : String) : Nat :=
  (spelling method [(errorKey, .string text)]).length

/-- A message reports a failure in the place of another: it holds the text, perhaps the frames
of a call stack, and nothing else, and keeps within the limit. -/
structure Reports (report reply : Message) (text : String) : Prop where
  method : report.method = reply.method
  limit : report.limit = reply.limit
  within : report.size ≤ report.limit
  holds : report.entries.entries = [(errorKey, .string text)] ∨
    ∃ frames, 1 ≤ frames.length ∧ frames.length ≤ Backtrace.depth ∧
      report.entries.entries = [(backtraceKey, .strings frames), (errorKey, .string text)]

/-- A report holds the text of the failure. -/
theorem Reports.get?_errorKey {report reply : Message} {text : String}
    (h : report.Reports reply text) : report.get? errorKey = some (.string text) := by
  rw [get?, KeyMap.get?]
  rcases h.holds with alone | ⟨frames, -, -, both⟩
  · rw [alone]
    rfl
  · rw [both, List.lookup_cons]
    rfl

theorem needed_clear (reply : Message) (text : String) :
    reply.clear.needed errorKey (.string text) = reportSize reply.method text :=
  needed_eq_length _ _ _

/-- The text of a failure is reported if it has room in a reply that is empty otherwise. -/
theorem reports_of_room {reply : Message} {text : String}
    (room : reportSize reply.method text ≤ reply.limit) (stack : Option String) :
    ∃ report, reply.report text stack = (.ok (), report) ∧ report.Reports reply text := by
  have fits : reply.clear.needed errorKey (.string text) ≤ reply.clear.limit := by
    rw [needed_clear]
    exact room
  obtain ⟨base, set⟩ := exists_set fits
  obtain ⟨-, method, entries, limit⟩ := set_eq_ok_iff.mp set
  have alone : base.entries.entries = [(errorKey, .string text)] := by
    rw [entries]
    rfl
  have plain : base.Reports reply text :=
    ⟨method, limit, size_le_limit_of_set set, Or.inl alone⟩
  unfold Message.report
  rw [set]
  dsimp only
  -- The frames come on top, if there are any and they have room.
  rcases found : stack.bind (Backtrace.render · Backtrace.depth) with _ | frames
  · exact ⟨base, rfl, plain⟩
  · dsimp only
    rcases added : base.set backtraceKey (.strings frames) with e | report
    · exact ⟨base, rfl, plain⟩
    · refine ⟨report, rfl, ?_⟩
      obtain ⟨-, method', entries', limit'⟩ := set_eq_ok_iff.mp added
      obtain ⟨trace, -, rendered⟩ := Option.bind_eq_some_iff.mp found
      obtain ⟨some, few⟩ := Backtrace.length_render rendered
      refine ⟨method'.trans method, limit'.trans limit, size_le_limit_of_set added,
        Or.inr ⟨frames, some, few, ?_⟩⟩
      rw [entries', entries]
      rfl

/-- Otherwise the reply is left empty. -/
theorem report_of_full {reply : Message} {text : String}
    (full : reply.limit < reportSize reply.method text) (stack : Option String) :
    reply.report text stack
      = (.error (.bufferTooSmall (reportSize reply.method text) reply.limit), reply.clear) := by
  have exceeds : reply.clear.limit < reply.clear.needed errorKey (.string text) := by
    rw [needed_clear]
    exact full
  have refused := set_eq_error_iff.mpr ⟨exceeds, rfl⟩
  rw [needed_clear] at refused
  unfold Message.report
  rw [refused]
  rfl

/-! ## Ends -/

/-- How an invocation ends, by what the attempt to answer came to. A reply that was filled in
is left as it is; the text of a failure is reported if it has room, and stops the responder if
it has none. -/
inductive Settles (reply : Message) : Except String Message → Except Abort Message → Prop where
  | filled (filled : Message) : Settles reply (.ok filled) (.ok filled)
  | reported {text : String} {report : Message} (room : reportSize reply.method text ≤ reply.limit)
      (reports : report.Reports reply text) : Settles reply (.error text) (.ok report)
  | stopped {text : String} (full : reply.limit < reportSize reply.method text) :
      Settles reply (.error text) (.error ⟨reply.method, text,
        .bufferTooSmall (reportSize reply.method text) reply.limit⟩)

namespace Settles

variable {reply : Message} {attempt : Except String Message} {settled : Except Abort Message}

/-- The method and the limit of a reply are all that the end hangs on. -/
theorem congr (h : reply.Settles attempt settled) {other : Message}
    (method : reply.method = other.method) (limit : reply.limit = other.limit) :
    other.Settles attempt settled := by
  rcases h with filled | ⟨room, reports⟩ | full
  · exact .filled filled
  · rw [method, limit] at room
    exact .reported room ⟨reports.method.trans method, reports.limit.trans limit, reports.within,
      reports.holds⟩
  · rw [method, limit] at full ⊢
    exact .stopped full

/-- The responder stops for good if and only if there is a failure that has no room. -/
theorem stops_iff (h : reply.Settles attempt settled) :
    (∃ abort, settled = .error abort) ↔
      ∃ text, attempt = .error text ∧ reply.limit < reportSize reply.method text := by
  rcases h with filled | ⟨room, reports⟩ | full
  · constructor
    · rintro ⟨abort, eq⟩
      cases eq
    · rintro ⟨text, eq, -⟩
      cases eq
  · constructor
    · rintro ⟨abort, eq⟩
      cases eq
    · rintro ⟨text, eq, full⟩
      cases eq
      omega
  · constructor
    · intro _
      exact ⟨_, rfl, full⟩
    · intro _
      exact ⟨_, rfl⟩

end Settles

end Message

/-! ## Filling in -/

/-- A message without entries takes up an entry that it has room for. -/
theorem Message.exists_set_withLimit {tag key : String} {value : Value} {limit : Nat}
    (room : headerSize tag + entrySize key value ≤ limit) :
    ∃ filled, (withLimit tag limit).set key value = .ok filled ∧
      filled.entries.entries = [(key, value)] := by
  have needed : (withLimit tag limit).needed key value = headerSize tag + entrySize key value :=
    needed_of_absent rfl value
  obtain ⟨filled, set⟩ : ∃ filled, (withLimit tag limit).set key value = .ok filled :=
    exists_set (needed ▸ room)
  obtain ⟨-, -, entries, -⟩ := set_eq_ok_iff.mp set
  refine ⟨filled, set, ?_⟩
  rw [entries]
  rfl

namespace Filling

/-- An entry is put into an empty reply if it has room there. -/
theorem set_of_room {tag key : String} {value : Value} {limit : Nat}
    (room : headerSize tag + entrySize key value ≤ limit) (s : σ) :
    ∃ filled, Filling.set key value (Message.withLimit tag limit, s) = (.ok (), filled, s) ∧
      filled.size ≤ limit ∧ filled.entries.entries = [(key, value)] := by
  obtain ⟨filled, set, held⟩ := Message.exists_set_withLimit room
  obtain ⟨-, -, -, limit_eq⟩ := Message.set_eq_ok_iff.mp set
  have within : filled.size ≤ limit :=
    Nat.le_trans (Message.size_le_limit_of_set set) (Nat.le_of_eq limit_eq)
  refine ⟨filled, ?_, within, held⟩
  rw [Filling.set_apply, set]

/-- Otherwise the reply stays empty. -/
theorem set_of_full {tag key : String} {value : Value} {limit : Nat}
    (full : limit < headerSize tag + entrySize key value) (s : σ) :
    Filling.set key value (Message.withLimit tag limit, s)
      = (.error (Failure.ofMessage (.bufferTooSmall (headerSize tag + entrySize key value) limit)),
        Message.withLimit tag limit, s) := by
  have needed : (Message.withLimit tag limit).needed key value
      = headerSize tag + entrySize key value := Message.needed_of_absent rfl value
  have refused : (Message.withLimit tag limit).set key value
      = .error (.bufferTooSmall (headerSize tag + entrySize key value) limit) := by
    rw [← needed] at full ⊢
    exact Message.set_eq_error_iff.mpr ⟨full, rfl⟩
  rw [Filling.set_apply, refused]

end Filling

/-! ## Attempts -/

/-- The attempt of a handler of messages to answer a request: the reply that it filled in, or
the text of its failure; and what is left of the reply and of the state by then. -/
inductive Handler.Attempt (handle : Handler σ) (request reply : Message) (s : σ) :
    Except String Message → Message → σ → Prop where
  | filled {filled : Message} {s' : σ}
      (ran : handle request (reply, s) = (.ok (), filled, s')) :
      Attempt handle request reply s (.ok filled) filled s'
  | faulted {text : String} {left : Message} {s' : σ}
      (ran : handle request (reply, s) = (.error (.fault text), left, s')) :
      Attempt handle request reply s (.error text) left s'
  | crashed {text : String} {left : Message} {s' : σ}
      (ran : handle request (reply, s) = (.error (.crash (some text)), left, s')) :
      Attempt handle request reply s (.error text) left s'
  | silent {left : Message} {s' : σ}
      (ran : handle request (reply, s) = (.error (.crash none), left, s')) :
      Attempt handle request reply s (.error Failure.unknown) left s'

namespace Handler

/-- The text of a failure is what the attempt came to. -/
theorem attempt_of_failure {handle : Handler σ} {request reply left : Message} {s s' : σ}
    {failure : Failure} (ran : handle request (reply, s) = (.error failure, left, s')) :
    handle.Attempt request reply s (.error failure.text) left s' := by
  rcases failure with text | (_ | text)
  · exact .faulted ran
  · exact .silent ran
  · exact .crashed ran

/-- Every invocation of a handler is an attempt. -/
theorem exists_attempt (handle : Handler σ) (request reply : Message) (s : σ) :
    ∃ attempt left s', handle.Attempt request reply s attempt left s' := by
  rcases ran : handle request (reply, s) with ⟨failure | ⟨⟩, left, s'⟩
  · exact ⟨_, _, _, attempt_of_failure ran⟩
  · exact ⟨_, _, _, .filled ran⟩

/-- How a handler ran is told by its attempt. -/
theorem Attempt.ran {handle : Handler σ} {request reply left : Message} {s s' : σ}
    {attempt : Except String Message} (h : handle.Attempt request reply s attempt left s') :
    ∃ result, handle request (reply, s) = (result, left, s') ∧
      attempt = (result.map fun _ => left).mapError Failure.text := by
  rcases h with ran | ran | ran | ran
  all_goals exact ⟨_, ran, rfl⟩

/-- An attempt comes to one end. -/
theorem Attempt.unique {handle : Handler σ} {request reply left left' : Message} {s s' s'' : σ}
    {attempt attempt' : Except String Message}
    (h : handle.Attempt request reply s attempt left s')
    (h' : handle.Attempt request reply s attempt' left' s'') :
    attempt' = attempt ∧ left' = left ∧ s'' = s' := by
  obtain ⟨result, ran, rfl⟩ := h.ran
  obtain ⟨result', ran', rfl⟩ := h'.ran
  rw [ran] at ran'
  cases ran'
  exact ⟨rfl, rfl, rfl⟩

/-- **An invocation is settled by the attempt of its handler**, in what is left of the reply. -/
theorem Attempt.settles {handle : Handler σ} {request reply left : Message} {s s' : σ}
    {attempt : Except String Message} (h : handle.Attempt request reply s attempt left s')
    (stackAt : σ → Option String) :
    ∃ settled, handle.invoke stackAt request reply s = (settled, s') ∧
      left.Settles attempt settled := by
  obtain ⟨failure | ⟨⟩, ran, rfl⟩ := h.ran
  · unfold invoke
    rw [ran]
    dsimp only
    by_cases room : Message.reportSize left.method failure.text ≤ left.limit
    · obtain ⟨report, written, reports⟩ := Message.reports_of_room room (stackAt s')
      rw [written]
      exact ⟨_, rfl, .reported room reports⟩
    · have full : left.limit < Message.reportSize left.method failure.text := by omega
      rw [Message.report_of_full full]
      exact ⟨_, rfl, .stopped full⟩
  · refine ⟨.ok left, ?_, .filled left⟩
    unfold invoke
    rw [ran]

/-- A handler of messages is editing if it only sets keys of the reply and clears it. -/
def Editing (handle : Handler σ) : Prop :=
  ∀ request reply s, ∃ l : List Message.Edit, (handle request (reply, s)).2.1 = reply.edits l

/-- A handler that only edits its reply leaves its method and its limit. -/
theorem Editing.keeps {handle : Handler σ} (editing : handle.Editing)
    {request reply left : Message} {s s' : σ} {result : Except Failure Unit}
    (ran : handle request (reply, s) = (result, left, s')) :
    left.method = reply.method ∧ left.limit = reply.limit := by
  obtain ⟨l, edited⟩ := editing request reply s
  rw [ran] at edited
  dsimp only at edited
  rw [edited]
  exact reply.edits_keep l

end Handler

/-! ## Attempts of typed handlers -/

/-- A message with a result in it: under the key `"0"`, or not at all if it is of the unit
type. -/
def WireType.placed : (t : WireType) → t.Carrier → Message → Except MessageError Message
  | .unit, _, m => .ok m
  | .keyed kind, x, m => m.set "0" (Value.of kind x)

/-- A result is put in by one edit at most. -/
theorem WireType.edits_of_placed {t : WireType} {x : t.Carrier} {reply filled : Message}
    (h : t.placed x reply = .ok filled) : ∃ l, filled = reply.edits l := by
  rcases t with _ | kind
  · cases h
    exact ⟨[], rfl⟩
  · exact ⟨[.set "0" (Value.of kind x)], (Message.edit_of_set h).symm⟩

/-- What is pushed first comes under the key `"0"`. -/
theorem Cursor.push_start (m : Message) (value : Value) :
    push value (start m) = match m.set "0" value with
      | .ok n => (.ok (), ⟨n, 1⟩)
      | .error e => (.error e, start m) := by
  have key : (start m).key = "0" := by
    show Numeral.decimal 0 = "0"
    decide
  unfold push
  rw [key]
  rfl

/-- A result is written into a reply at its first place. -/
theorem Method.withOutput_eq_placed (m : Method) (output : m.output.Carrier) (reply : Message) :
    m.withOutput output reply = m.output.placed output reply := by
  obtain ⟨module, name, args, _ | kind⟩ := m
  · rfl
  · have written : ((WireType.keyed kind).write output).run (Cursor.start reply)
        = Cursor.push (Value.of kind output) (Cursor.start reply) := rfl
    rw [withOutput, written, Cursor.push_start, WireType.placed]
    cases reply.set "0" (Value.of kind output) <;> rfl

namespace MethodHandler

variable {m : Method}

/-- The attempt of a handler of a method to answer a request. It runs once if the arguments can
be read, and otherwise not at all; what it gives goes into the reply. -/
inductive Attempt (handle : MethodHandler σ m) (request reply : Message) (s : σ) :
    Except String Message → σ → Prop where
  | unread {e : MessageError} (read : m.argsOf request = .error e) :
      Attempt handle request reply s (.error e.text) s
  | faulted {args : Args m.args} {text : String} {s' : σ} (read : m.argsOf request = .ok args)
      (ran : handle args s = (.error (.fault text), s')) :
      Attempt handle request reply s (.error text) s'
  | crashed {args : Args m.args} {text : String} {s' : σ} (read : m.argsOf request = .ok args)
      (ran : handle args s = (.error (.crash (some text)), s')) :
      Attempt handle request reply s (.error text) s'
  | silent {args : Args m.args} {s' : σ} (read : m.argsOf request = .ok args)
      (ran : handle args s = (.error (.crash none), s')) :
      Attempt handle request reply s (.error Failure.unknown) s'
  | unplaced {args : Args m.args} {output : m.output.Carrier} {s' : σ} {e : MessageError}
      (read : m.argsOf request = .ok args) (ran : handle args s = (.ok output, s'))
      (refused : m.output.placed output reply = .error e) :
      Attempt handle request reply s (.error e.text) s'
  | placed {args : Args m.args} {output : m.output.Carrier} {s' : σ} {filled : Message}
      (read : m.argsOf request = .ok args) (ran : handle args s = (.ok output, s'))
      (placed : m.output.placed output reply = .ok filled) :
      Attempt handle request reply s (.ok filled) s'

/-- A handler of a method, run as a handler of messages. -/
theorem onMessages_apply (handle : MethodHandler σ m) (request reply : Message) (s : σ) :
    handle.onMessages request (reply, s) = match m.argsOf request with
      | .error e => (.error (Failure.ofMessage e), reply, s)
      | .ok args => match handle args s with
        | (.error failure, s') => (.error failure, reply, s')
        | (.ok output, s') => match m.output.placed output reply with
          | .error e => (.error (Failure.ofMessage e), reply, s')
          | .ok filled => (.ok (), filled, s') := by
  unfold onMessages
  rw [bind_apply]
  rcases m.argsOf request with e | args
  · rfl
  · show ((Filling.aside (handle args) >>= fun output => Filling.change (m.withOutput output)) :
      Filling σ Unit) (reply, s) = _
    rw [bind_apply]
    unfold Filling.aside
    dsimp only
    rcases handle args s with ⟨failure | output, s'⟩
    · rfl
    · dsimp only
      unfold Filling.change
      dsimp only
      rw [m.withOutput_eq_placed]
      cases m.output.placed output reply <;> rfl

/-- Every invocation of a handler of a method is an attempt. -/
theorem exists_attempt (handle : MethodHandler σ m) (request reply : Message) (s : σ) :
    ∃ attempt s', handle.Attempt request reply s attempt s' := by
  rcases read : m.argsOf request with e | args
  · exact ⟨_, _, .unread read⟩
  · rcases ran : handle args s with ⟨(text | (_ | text)) | output, s'⟩
    · exact ⟨_, _, .faulted read ran⟩
    · exact ⟨_, _, .silent read ran⟩
    · exact ⟨_, _, .crashed read ran⟩
    · rcases placed : m.output.placed output reply with e | filled
      · exact ⟨_, _, .unplaced read ran placed⟩
      · exact ⟨_, _, .placed read ran placed⟩

/-- The attempt of a handler of a method is that of its handler of messages. -/
theorem Attempt.onMessages {handle : MethodHandler σ m} {request reply : Message} {s s' : σ}
    {attempt : Except String Message} (h : handle.Attempt request reply s attempt s') :
    ∃ left, handle.onMessages.Attempt request reply s attempt left s' := by
  rcases h with read | ⟨read, ran⟩ | ⟨read, ran⟩ | ⟨read, ran⟩ | ⟨read, ran, refused⟩ |
    ⟨read, ran, placed⟩
  · refine ⟨reply, .faulted ?_⟩
    rw [onMessages_apply, read]
    rfl
  · refine ⟨reply, .faulted ?_⟩
    simp only [onMessages_apply, read, ran]
  · refine ⟨reply, .crashed ?_⟩
    simp only [onMessages_apply, read, ran]
  · refine ⟨reply, .silent ?_⟩
    simp only [onMessages_apply, read, ran]
  · refine ⟨reply, .faulted ?_⟩
    simp only [onMessages_apply, read, ran, refused]
    rfl
  · refine ⟨_, .filled ?_⟩
    simp only [onMessages_apply, read, ran, placed]

/-- An attempt of a handler of a method comes to one end. -/
theorem Attempt.unique {handle : MethodHandler σ m} {request reply : Message} {s s' s'' : σ}
    {attempt attempt' : Except String Message} (h : handle.Attempt request reply s attempt s')
    (h' : handle.Attempt request reply s attempt' s'') : attempt' = attempt ∧ s'' = s' := by
  obtain ⟨left, tried⟩ := h.onMessages
  obtain ⟨left', tried'⟩ := h'.onMessages
  obtain ⟨attempts, -, states⟩ := tried.unique tried'
  exact ⟨attempts, states⟩

/-- A handler of a method sets one key at most. -/
theorem editing_onMessages (handle : MethodHandler σ m) :
    Handler.Editing handle.onMessages := by
  intro request reply s
  rw [onMessages_apply]
  rcases m.argsOf request with e | args
  · exact ⟨[], rfl⟩
  · dsimp only
    rcases handle args s with ⟨failure | output, s'⟩
    · exact ⟨[], rfl⟩
    · dsimp only
      rcases placed : m.output.placed output reply with e | filled
      · exact ⟨[], rfl⟩
      · exact WireType.edits_of_placed placed

/-- An invocation is settled by the attempt of the handler, in a reply that may hold anything
before. -/
theorem Attempt.settles {handle : MethodHandler σ m} {request reply : Message} {s s' : σ}
    {attempt : Except String Message} (h : handle.Attempt request reply s attempt s')
    (stackAt : σ → Option String) :
    ∃ settled, handle.onMessages.invoke stackAt request reply s = (settled, s') ∧
      reply.Settles attempt settled := by
  obtain ⟨left, asMessages⟩ := h.onMessages
  obtain ⟨settled, invoked, settles⟩ := asMessages.settles stackAt
  obtain ⟨result, ran, -⟩ := asMessages.ran
  obtain ⟨method, limit⟩ := handle.editing_onMessages.keeps ran
  exact ⟨settled, invoked, settles.congr method limit⟩

end MethodHandler

/-! ## Every invocation -/

/-- **No failure escapes an invocation, and each is reported whole.** The attempt of a handler
of a method is one of six, and settles how the invocation ends, in a reply that may hold
anything before; so does the attempt of a handler of messages, in what it leaves of the reply,
which has the method and the limit that it had if the handler only edits it. -/
theorem Handler.invoke_settles (stackAt : σ → Option String) (request reply : Message) (s : σ) :
    (∀ (m : Method) (handle : MethodHandler σ m), ∃ attempt settled s',
      handle.Attempt request reply s attempt s' ∧
      (∀ attempt' s'', handle.Attempt request reply s attempt' s'' →
        attempt' = attempt ∧ s'' = s') ∧
      handle.onMessages.invoke stackAt request reply s = (settled, s') ∧
      reply.Settles attempt settled ∧
      ((∃ abort, settled = .error abort) ↔ ∃ text, attempt = .error text ∧
        reply.limit < Message.reportSize reply.method text)) ∧
    ∀ handle : Handler σ, ∃ attempt left settled s',
      handle.Attempt request reply s attempt left s' ∧
      (∀ attempt' left' s'', handle.Attempt request reply s attempt' left' s'' →
        attempt' = attempt ∧ left' = left ∧ s'' = s') ∧
      handle.invoke stackAt request reply s = (settled, s') ∧
      left.Settles attempt settled ∧
      ((∃ abort, settled = .error abort) ↔ ∃ text, attempt = .error text ∧
        left.limit < Message.reportSize left.method text) ∧
      (handle.Editing → reply.Settles attempt settled) := by
  constructor
  · intro m handle
    obtain ⟨attempt, s', tried⟩ := handle.exists_attempt request reply s
    obtain ⟨left, asMessages⟩ := tried.onMessages
    obtain ⟨settled, invoked, settles⟩ := asMessages.settles stackAt
    obtain ⟨result, ran, -⟩ := asMessages.ran
    -- What a handler of a method leaves has the method and the limit of what it was given.
    obtain ⟨method, limit⟩ := handle.editing_onMessages.keeps ran
    have settles := settles.congr method limit
    exact ⟨attempt, settled, s', tried, fun _ _ => tried.unique, invoked, settles,
      settles.stops_iff⟩
  · intro handle
    obtain ⟨attempt, left, s', tried⟩ := handle.exists_attempt request reply s
    obtain ⟨settled, invoked, settles⟩ := tried.settles stackAt
    obtain ⟨result, ran, -⟩ := tried.ran
    refine ⟨attempt, left, settled, s', tried, fun _ _ _ => tried.unique, invoked, settles,
      settles.stops_iff, ?_⟩
    intro editing
    obtain ⟨method, limit⟩ := editing.keeps ran
    exact settles.congr method limit

end KeyedRpc
