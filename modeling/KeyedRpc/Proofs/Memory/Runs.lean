/-
# Callers of the memory module

Any number of callers, each with a connection of its own, are connected to one responder in the
same process. They call the methods of the memory module and send requests with named keys,
one at a time and in any order. What they get is what the same operations come to, in the same
order, on one array of words (`Connections.run_onArray`).
-/
import KeyedRpc.Proofs.Memory.Array
import Mathlib.Data.List.Forall2

namespace KeyedRpc.Memory

/-! ## Operations -/

/-- What a caller does. -/
inductive Operation where
  /-- Calls a method. -/
  | call (access : Access)
  /-- Sends a request with named keys. -/
  | send (access : Access) (request : Message)

/-- What a caller gets. -/
inductive Response where
  | read (result : Except CallError (List UInt32))
  | written (result : Except CallError Unit)
  | replied (result : Except TransportError Message)

/-- What a caller gets by what a call gives. -/
def Access.response : (access : Access) → Except CallError access.method.output.Carrier → Response
  | read _ _, result => .read result
  | write _ _, result => .written result

namespace Operation

variable {n : Nat}

/-- A request is well-formed if it has the tag and the entries of its access. It may have others,
as many as four bytes can count. -/
def WellFormed : Operation → Prop
  | call _ => True
  | send access request => request.method = access.namedTag ∧
      request.Holds access.namedEntries ∧ request.entries.size ≤ maxLength

/-- What an operation comes to on an array, if replies have a limit. What has no room in a
request, or cannot be written, does not get there. -/
def onArray (limit : Nat) : Operation → StateM (Words n) Outcome
  | call access =>
    if access.requestSize ≤ defaultLimit then access.onArray .typed limit
    else pure (.unsent (.bufferTooSmall access.requestSize defaultLimit))
  | send access request =>
    match request.encode with
    | .ok _ => access.onArray .named limit
    | .error e => pure (.unsent e)

/-- What operations come to on one array, one after another. -/
def runOnArray (limit : Nat) (ops : List Operation) : StateM (Words n) (List Outcome) :=
  ops.mapM (onArray limit)

theorem runOnArray_cons (limit : Nat) (op : Operation) (ops : List Operation) (w : Words n) :
    runOnArray limit (op :: ops) w
      = ((op.onArray limit w).1 :: (runOnArray limit ops (op.onArray limit w).2).1,
        (runOnArray limit ops (op.onArray limit w).2).2) := by
  rw [runOnArray, List.mapM_cons]
  rfl

/-- An operation over a connection to a responder. -/
def perform (r : Registry Hub) : Operation → Serving (Responder Hub) Response
  | call access =>
    access.response <$> ((Transport.inProcess r).call access.method access.args).run
  | send _ request => Response.replied <$> ((Transport.inProcess r).send request).run

end Operation

/-- A caller is told what an operation came to. A failure may have the frames of a call stack
with it. -/
inductive Outcome.Says : Outcome → Response → Prop where
  | words (data : List UInt32) : Says (.words data) (.read (.ok data))
  | written : Says .written (.written (.ok ()))
  | failedRead (text : String) (backtrace : Option (List String)) :
      Says (.failed text) (.read (.error (.remote ⟨text, backtrace⟩)))
  | failedWrite (text : String) (backtrace : Option (List String)) :
      Says (.failed text) (.written (.error (.remote ⟨text, backtrace⟩)))
  | unsentWrite (e : MessageError) : Says (.unsent e) (.written (.error (.message e)))
  | replied {outcome : Outcome} {reply : Message} (tells : outcome.InReply reply) :
      Says outcome (.replied (.ok reply))
  | undelivered (e : MessageError) : Says (.unsent e) (.replied (.error (.codec e)))

/-! ## Where operations go -/

namespace Access

theorem module_method (access : Access) : access.method.module = moduleName := by
  cases access <;> rfl

/-- The method of an access is registered with what answers it. -/
theorem get?_method (access : Access) (r : Registry Hub) :
    (register r).endpoints.get? access.method.tag = some (.typed access.method access.handle) := by
  cases access with
  | read address count => exact Style.typed.get?_readTag r
  | write address data => exact Style.typed.get?_writeTag r

theorem utf8ByteSize_tag_method_le (access : Access) : access.method.tag.utf8ByteSize ≤ 12 := by
  cases access with
  | read address count =>
    show readMethod.tag.utf8ByteSize ≤ 12
    decide
  | write address data =>
    show writeMethod.tag.utf8ByteSize ≤ 12
    decide

/-- Requests with named keys are for the module of the store. -/
theorem moduleOf?_namedTag (access : Access) : moduleOf? access.namedTag = some moduleName := by
  cases access with
  | read address count => exact Style.named.moduleOf?_readTag
  | write address data => exact Style.named.moduleOf?_writeTag

/-- The tag of requests with named keys is registered with what answers them. -/
theorem get?_namedTag (access : Access) (r : Registry Hub) :
    (register r).endpoints.get? access.namedTag = some (.raw access.namedHandler) := by
  cases access with
  | read address count => exact Style.named.get?_readTag r
  | write address data => exact Style.named.get?_writeTag r

/-- A request that is small enough does not carry too many words. -/
theorem weight_le_of_fits {access : Access} (fits : access.requestSize ≤ defaultLimit) :
    access.weight ≤ maxLength := by
  have le := defaultLimit_le_maxLength
  cases access with
  | read address count => exact Nat.zero_le _
  | write address data =>
    show data.length ≤ maxLength
    have size : 43 + 4 * data.length ≤ defaultLimit := fits
    omega

/-- Only a request to write can be too large. -/
theorem eq_write_of_full {access : Access} (full : defaultLimit < access.requestSize) :
    ∃ address data, access = .write address data := by
  cases access with
  | read address count =>
    have small : 42 ≤ defaultLimit := by decide
    exact absurd full (Nat.not_lt_of_le small)
  | write address data => exact ⟨address, data, rfl⟩

/-- A request that can be written does not carry too many words either. -/
theorem weight_le_of_encode {access : Access} {request : Message} {bytes : List UInt8}
    (holds : request.Holds access.namedEntries) (written : request.encode = .ok bytes) :
    access.weight ≤ maxLength := by
  cases access with
  | read address count => exact Nat.zero_le _
  | write address data =>
    have held : request.get? dataKey = some (.words data) :=
      holds _ (List.mem_cons_of_mem _ List.mem_cons_self)
    obtain ⟨lengths, -⟩ := Message.encode_eq_ok_iff.mp written
    obtain ⟨-, entries_fit⟩ := request.lengths_le_iff.mp lengths
    obtain ⟨-, fits⟩ := entries_fit _ (KeyMap.mem_of_get? held)
    exact fits data.length List.mem_cons_self

/-- The end of a call, if it is not that of the responder, says what the call came to. -/
theorem says_of_gets {access : Access} {limit : Nat}
    {result : Except String access.method.output.Carrier}
    {ended : Except Abort (Except CallError access.method.output.Carrier)}
    (gets : access.method.Gets limit result ended)
    (room : ∀ text, result = .error text → Message.reportSize access.method.tag text ≤ limit) :
    ∃ response, ended.map access.response = .ok response ∧
      (access.outcome result).Says response := by
  rcases gets.of_room room with ⟨output, rfl, rfl⟩ | ⟨text, backtrace, rfl, rfl⟩
  · refine ⟨_, rfl, ?_⟩
    cases access with
    | read address count => exact .words output
    | write address data => exact .written
  · refine ⟨_, rfl, ?_⟩
    cases access with
    | read address count => exact .failedRead text backtrace
    | write address data => exact .failedWrite text backtrace

end Access

/-! ## One operation -/

/-- A call whose request has no room does not get there. -/
theorem perform_call_of_full {address : UInt32} {data : List UInt32}
    (full : defaultLimit < (Access.write address data).requestSize) (r : Registry Hub)
    (c : Responder Hub) : (Operation.call (.write address data)).perform r c
      = (.ok (.written (.error (.message
          (.bufferTooSmall (Access.write address data).requestSize defaultLimit)))), c) := by
  have size := (Access.write address data).requestSize_method
  have exceeds : defaultLimit < writeMethod.requestSize (address, data, ()) := size ▸ full
  have some : writeMethod.argEntries (address, data, ()) ≠ [] := List.cons_ne_nil _ _
  obtain ⟨before, entry, after, parts, -, beyond, called⟩ := Transport.call_of_full (r := r) some
    exceeds c
  have two : writeMethod.argEntries (address, data, ())
      = [(Numeral.decimal 0, .word address), (Numeral.decimal 1, .words data)] := rfl
  -- The address alone has room, so it is the data that has none.
  have whole : before ++ [entry] = writeMethod.argEntries (address, data, ()) := by
    rw [two] at parts ⊢
    rcases before with _ | ⟨first, _ | ⟨second, before⟩⟩
    · cases parts
      have alone : (Message.spelling writeMethod.tag [(Numeral.decimal 0, .word address)]).length
          = 32 := Message.length_spelling _ _
      have small : 32 ≤ defaultLimit := by decide
      rw [List.nil_append, alone] at beyond
      exact absurd beyond (Nat.not_lt_of_le small)
    · cases parts
      rfl
    · simp at parts
  have length : (Message.spelling writeMethod.tag (before ++ [entry])).length
      = (Access.write address data).requestSize := by
    rw [whole]
    exact size
  rw [length] at called
  refine (map_apply Response.written _ _).trans ?_
  exact congrArg (fun run => (Except.map Response.written run.1, run.2)) called

section

variable {n : Nat} {r : Registry Hub} (le : 256 ≤ r.replyLimit)
  (limit_le : r.replyLimit ≤ maxLength) {session : Session}
  (loaded : session.isLoaded moduleName = true)
include le limit_le loaded

/-- A call whose request has room comes to what its access does in the array. -/
theorem perform_call {access : Access} (fits : access.requestSize ≤ defaultLimit) (w : Words n) :
    ∃ response, (Operation.call access).perform (register r) ⟨session, w.hub⟩
        = (.ok response, ⟨session, (access.onArray .typed r.replyLimit w).2.hub⟩) ∧
      (access.onArray .typed r.replyLimit w).1.Says response := by
  have few := Access.weight_le_of_fits fits
  have dotless : '.' ∉ access.method.module.toList := by
    rw [access.module_method]
    decide
  obtain ⟨w', array, state⟩ := access.onArray_typed r.replyLimit w
  rw [← access.requestSize_method] at fits
  obtain ⟨ended, called, gets⟩ := Transport.call_of_fits (c := ⟨session, w.hub⟩) dotless
    (access.get?_method r) limit_le (access.module_method ▸ loaded) fits
  have performed : (Operation.call access).perform (register r) ⟨session, w.hub⟩
      = (ended.map access.response, ⟨session, w'.hub⟩) := by
    refine (map_apply access.response _ _).trans ?_
    rw [ExceptT.run, called, state]
  have room : ∀ text, access.method.outcome r.replyLimit (access.handle access.args w.hub).1
      = .error text → Message.reportSize access.method.tag text ≤ r.replyLimit := by
    intro text failed
    have outcome : access.outcome (.error text) = .failed text := by cases access <;> rfl
    rw [failed, outcome] at array
    exact Access.room_of_failed (Nat.lt_of_le_of_lt few (by decide)) le
      access.utf8ByteSize_tag_method_le array
  obtain ⟨response, answered, told⟩ := Access.says_of_gets gets room
  rw [array]
  exact ⟨response, answered ▸ performed, told⟩

/-- A request with named keys that arrives comes to what its access does in the array. -/
theorem send_of_arrived {access : Access} {request arrived : Message}
    (carried : request.carried = .ok arrived) (method : arrived.method = access.namedTag)
    (holds : arrived.Holds access.namedEntries) (few : access.weight ≤ maxLength) (w : Words n) :
    ∃ reply, (Transport.inProcess (register r)).send request ⟨session, w.hub⟩
        = (.ok (.ok reply), ⟨session, (access.onArray .named r.replyLimit w).2.hub⟩) ∧
      (access.onArray .named r.replyLimit w).1.InReply reply := by
  obtain ⟨reply, invoked, small, tells⟩ :=
    Access.invoke_namedHandler limit_le le holds few r.stackAt w
  have dispatched : session.dispatch (register r) arrived w.hub
      = (.ok (.ok reply), (access.onArray .named r.replyLimit w).2.hub) := by
    have passed := Session.dispatch_of_loaded (method ▸ access.moduleOf?_namedTag) loaded
      (register r)
    have answered := Registry.dispatch_of_registered (method ▸ access.get?_namedTag r) w.hub
    have ran : (Endpoint.raw access.namedHandler).handler.invoke (register r).stackAt arrived
        (Message.withLimit access.namedTag (register r).replyLimit) w.hub = _ := invoked
    rw [passed, answered, method, ran]
    rfl
  refine ⟨reply.received, ?_, tells.received⟩
  rw [Transport.send_inProcess (c := ⟨session, w.hub⟩) carried dispatched]
  show (Except.ok reply.carried, _) = _
  rw [Message.carried_eq small]

/-- **An operation comes to what it does on the array**, and is told so. -/
theorem perform_onArray {op : Operation} (wellFormed : op.WellFormed) (w : Words n) :
    ∃ response, op.perform (register r) ⟨session, w.hub⟩
        = (.ok response, ⟨session, (op.onArray r.replyLimit w).2.hub⟩) ∧
      (op.onArray r.replyLimit w).1.Says response := by
  cases op with
  | call access =>
    rw [Operation.onArray]
    by_cases fits : access.requestSize ≤ defaultLimit
    · rw [if_pos fits]
      exact perform_call le limit_le loaded fits w
    · obtain ⟨address, data, rfl⟩ := Access.eq_write_of_full (Nat.lt_of_not_le fits)
      rw [if_neg fits, perform_call_of_full (Nat.lt_of_not_le fits)]
      exact ⟨_, rfl, .unsentWrite _⟩
  | send access request =>
    obtain ⟨method, holds, count⟩ := wellFormed
    have performed : (Operation.send access request).perform (register r) ⟨session, w.hub⟩ = _ :=
      map_apply Response.replied _ _
    rw [Operation.onArray, performed, ExceptT.run]
    rcases Message.carried_cases count with
      ⟨e, unwritten, uncarried⟩ | ⟨bytes, arrived, written, carried, method', entries⟩
    · rw [unwritten, Transport.send_inProcess_of_uncarried uncarried]
      exact ⟨_, rfl, .undelivered e⟩
    · -- The request arrives with its entries, which is all that its handler looks at.
      have arrived_holds : arrived.Holds access.namedEntries := by
        intro entry mem
        rw [Message.get?, entries]
        exact holds entry mem
      obtain ⟨reply, sent, tells⟩ := send_of_arrived le limit_le loaded carried
        (method'.trans method) arrived_holds (Access.weight_le_of_encode holds written) w
      rw [written, sent]
      exact ⟨_, rfl, .replied tells⟩

end

/-! ## Many callers -/

/-- The connections of callers to one responder: what each of them has loaded, and the store that
they share. -/
structure Connections (ι : Type) where
  session : ι → Session
  hub : Hub

namespace Connections

variable {ι : Type} [DecidableEq ι]

/-- The turn of one of the connections. -/
def turn {α : Type} (i : ι) (x : Serving (Responder Hub) α) : Serving (Connections ι) α :=
  fun cs =>
    let (result, c) := x ⟨cs.session i, cs.hub⟩
    (result, ⟨Function.update cs.session i c.session, c.state⟩)

/-- Operations of callers, one after another. -/
def run (r : Registry Hub) (steps : List (ι × Operation)) :
    Serving (Connections ι) (List Response) :=
  steps.mapM fun step => turn step.1 (step.2.perform r)

variable {n : Nat} {r : Registry Hub}

theorem run_cons {step : ι × Operation} {steps : List (ι × Operation)} {cs cs' cs'' : Connections ι}
    {response : Response} {responses : List Response}
    (first : turn step.1 (step.2.perform r) cs = (.ok response, cs'))
    (rest : run r steps cs' = (.ok responses, cs'')) :
    run r (step :: steps) cs = (.ok (response :: responses), cs'') := by
  unfold run at rest ⊢
  rw [List.mapM_cons, bind_apply, first]
  dsimp only
  rw [bind_apply, rest]
  rfl

/-- A turn leaves what the connections have loaded as it is, if it does so with its own. -/
theorem turn_apply {i : ι} {x : Serving (Responder Hub) Response} {sessions : ι → Session}
    {h h' : Hub} {response : Response}
    (performed : x ⟨sessions i, h⟩ = (.ok response, ⟨sessions i, h'⟩)) :
    turn i x ⟨sessions, h⟩ = (.ok response, ⟨sessions, h'⟩) := by
  unfold turn
  dsimp only
  rw [performed]
  dsimp only
  rw [Function.update_eq_self]

/-- **The memory module is an array of words.** However the operations of callers that have
loaded the module are interleaved, and whatever the words are at first, the responder goes on to
the end, every caller is told what the operations, in the same order, come to on one array, and
the words are in the end those of the array. -/
theorem run_onArray (le : 256 ≤ r.replyLimit) (limit_le : r.replyLimit ≤ maxLength)
    (sessions : ι → Session) {steps : List (ι × Operation)}
    (loaded : ∀ step ∈ steps, (sessions step.1).isLoaded moduleName = true)
    (wellFormed : ∀ step ∈ steps, step.2.WellFormed) (w : Words n) :
    ∃ responses, run (register r) steps ⟨sessions, w.hub⟩
        = (.ok responses,
          ⟨sessions, (Operation.runOnArray r.replyLimit (steps.map Prod.snd) w).2.hub⟩) ∧
      List.Forall₂ Outcome.Says (Operation.runOnArray r.replyLimit (steps.map Prod.snd) w).1
        responses := by
  -- The array is general: the operations that are left go on from what the first makes of it.
  induction steps generalizing w with
  | nil => exact ⟨[], rfl, .nil⟩
  | cons step steps ih =>
    obtain ⟨loaded_first, loaded⟩ := List.forall_mem_cons.mp loaded
    obtain ⟨wellFormed_first, wellFormed⟩ := List.forall_mem_cons.mp wellFormed
    obtain ⟨response, performed, told⟩ :=
      perform_onArray le limit_le loaded_first wellFormed_first w
    obtain ⟨responses, ran, others⟩ := ih loaded wellFormed (step.2.onArray r.replyLimit w).2
    rw [List.map_cons, Operation.runOnArray_cons]
    exact ⟨response :: responses, run_cons (turn_apply performed) ran, .cons told others⟩

/-- One caller writes, and then reads past the end; in between the other reads with named keys. -/
def twoCallers (request : Message) : List (Bool × Operation) :=
  [(true, .call (.write 1 [7, 8])), (false, .send (.read 0 3) request), (true, .call (.read 2 5))]

/-- The second caller reads what the first has written. -/
theorem run_onArray_two_callers :
    ∃ request, (Message.empty "memory.read").setAll [("address", .word 0), ("count", .word 3)]
        = .ok request ∧
      ∃ responses, run (register (Registry.withReplyLimit 256 fun _ => none)) (twoCallers request)
          ⟨fun _ => ⟨["memory"]⟩, ⟨[1, 2, 3]⟩⟩
            = (.ok responses, ⟨fun _ => ⟨["memory"]⟩, ⟨[1, 7, 8]⟩⟩) ∧
        List.Forall₂ Outcome.Says [.written, .words [1, 7, 8],
          .failed "read memsvc error: access of 5 words at 0x2 is outside memory of 3 words"]
          responses := by
  obtain ⟨request, set⟩ : ∃ request, (Message.empty "memory.read").setAll
      [("address", .word 0), ("count", .word 3)] = .ok request := ⟨_, rfl⟩
  have wellFormed : ∀ step ∈ twoCallers request, step.2.WellFormed := by
    have asks : (Operation.send (.read 0 3) request).WellFormed := by
      cases set
      refine ⟨by decide, List.forall_mem_cons.mpr ⟨rfl, List.forall_mem_singleton.mpr rfl⟩, ?_⟩
      decide
    simp only [twoCallers, List.forall_mem_cons]
    exact ⟨trivial, asks, trivial, List.forall_mem_nil _⟩
  have loaded : (⟨["memory"]⟩ : Session).isLoaded moduleName = true := by decide
  obtain ⟨responses, ran, told⟩ := run_onArray (r := Registry.withReplyLimit 256 fun _ => none)
    (by decide) (by decide) (fun _ => ⟨["memory"]⟩) (fun _ _ => loaded) wellFormed
    (n := 3) [1, 2, 3].get
  refine ⟨request, set, responses, ?_, ?_⟩
  · refine ran.trans ?_
    cases set
    rfl
  · cases set
    exact told

end Connections

end KeyedRpc.Memory
