/-
# What replies say about the store

The memory module answers four tags: its methods, and requests with named keys. Requests to
read never change a word. A request to write changes the words that it names, all of them and
no others, if and only if its reply reports no failure (`Memory.dispatch_truthful`): whatever
goes wrong does so before the words are replaced, and nothing that comes after can fail.
-/
import KeyedRpc.Memory.Module
import KeyedRpc.Proofs.Message.Positions
import KeyedRpc.Proofs.Serving.Invocations
import KeyedRpc.Proofs.Transport.InProcess

namespace KeyedRpc

/-! ## Accesses -/

namespace Hub

/-- What a store is after words in a row were replaced: they lie within it and hold the new
words, and every other word is as it was. -/
structure Wrote (before after : Hub) (address : UInt32) (data : List UInt32) : Prop where
  inside : address.toNat + data.length ≤ before.size
  size : after.size = before.size
  replaced : ∀ i < data.length, after.words[address.toNat + i]? = data[i]?
  kept : ∀ i, i < address.toNat ∨ address.toNat + data.length ≤ i →
    after.words[i]? = before.words[i]?

/-- A write replaces the words from the address on. -/
theorem wrote_of_write {h h' : Hub} {address : UInt32} {data : List UInt32}
    (eq : h.write address data = .ok h') : h.Wrote h' address data := by
  have size := size_write eq
  unfold write check at eq
  by_cases inside : address.toNat + data.length ≤ h.size
  · rw [if_pos inside] at eq
    cases eq
    have before : (h.words.take address.toNat).length = address.toNat := by
      rw [List.length_take]
      unfold Hub.size at inside
      omega
    refine ⟨inside, size, fun i lt => ?_, fun i outside => ?_⟩
    · rw [List.append_assoc, List.getElem?_append_right (by omega), before,
        Nat.add_sub_cancel_left, List.getElem?_append_left lt]
    · rcases outside with lt | le
      · rw [List.append_assoc, List.getElem?_append_left (by omega), List.getElem?_take_of_lt lt]
      · rw [List.getElem?_append_right (by rw [List.length_append]; omega), List.length_append,
          before, List.getElem?_drop]
        congr 1
        omega
  · rw [if_neg inside] at eq
    cases eq

end Hub

namespace Memory

/-! ## Runs of the handlers -/

/-- Reading leaves the store as it is. -/
theorem handleRead_apply (address count : UInt32) (hub : Hub) :
    handleRead (address, count, ()) hub
      = ((hub.read address count.toNat).mapError fun e =>
          .fault ("read memsvc error: " ++ e.text), hub) := by
  unfold handleRead
  dsimp only
  refine (Handling.liftM_bind_apply (readWords address count) _ hub).trans ?_
  rw [readWords]
  cases hub.read address count.toNat <;> rfl

/-- Writing leaves the store that was written, or the one that was there. -/
theorem handleWrite_apply (address : UInt32) (data : List UInt32) (hub : Hub) :
    handleWrite (address, data, ()) hub = match hub.write address data with
      | .ok hub' => (.ok (), hub')
      | .error e => (.error (.fault ("write memsvc error: " ++ e.text)), hub) := by
  unfold handleWrite
  dsimp only
  refine (Handling.liftM_bind_apply (writeWords address data) _ hub).trans ?_
  rw [writeWords]
  cases hub.write address data <;> rfl

theorem readTyped_apply (request reply : Message) (hub : Hub) :
    handleRead.onMessages request (reply, hub) = match readMethod.argsOf request with
      | .error e => (.error (Failure.ofMessage e), reply, hub)
      | .ok (address, count, ()) => match hub.read address count.toNat with
        | .ok data => Filling.set "0" (.words data) (reply, hub)
        | .error e => (.error (.fault ("read memsvc error: " ++ e.text)), reply, hub) := by
  rw [MethodHandler.onMessages_apply]
  rcases readMethod.argsOf request with e | ⟨address, count, ⟨⟩⟩
  · rfl
  · dsimp only
    rw [handleRead_apply]
    rcases hub.read address count.toNat with e | data
    · rfl
    · dsimp only [Except.mapError]
      have placed : readMethod.output.placed data reply = reply.set "0" (.words data) := rfl
      rw [placed, Filling.set_apply]
      cases reply.set "0" (.words data) <;> rfl

/-- The result of a write is of the unit type, so there is nothing to put into the reply. -/
theorem writeTyped_apply (request reply : Message) (hub : Hub) :
    handleWrite.onMessages request (reply, hub) = match writeMethod.argsOf request with
      | .error e => (.error (Failure.ofMessage e), reply, hub)
      | .ok (address, data, ()) => match hub.write address data with
        | .ok hub' => (.ok (), reply, hub')
        | .error e => (.error (.fault ("write memsvc error: " ++ e.text)), reply, hub) := by
  rw [MethodHandler.onMessages_apply]
  rcases writeMethod.argsOf request with e | ⟨address, data, ⟨⟩⟩
  · rfl
  · dsimp only
    rw [handleWrite_apply]
    cases hub.write address data <;> rfl

theorem readNamed_apply (request reply : Message) (hub : Hub) :
    readNamed request (reply, hub) = match request.get .word countKey with
      | .error e => (.error (Failure.ofMessage e), reply, hub)
      | .ok count => match request.get .word addressKey with
        | .error e => (.error (Failure.ofMessage e), reply, hub)
        | .ok address => match hub.read address count.toNat with
          | .ok data => Filling.set dataKey (.words data) (reply, hub)
          | .error e => Filling.set errorKey (.string e.text) (reply, hub) := by
  rw [readNamed, Handling.ofMessage_bind_apply]
  rcases request.get .word countKey with e | count
  · rfl
  · dsimp only
    rw [Handling.ofMessage_bind_apply]
    rcases request.get .word addressKey with e | address
    · rfl
    · dsimp only
      rw [Filling.aside_liftM_bind_apply, readWords]
      cases hub.read address count.toNat <;> rfl

theorem writeNamed_apply (request reply : Message) (hub : Hub) :
    writeNamed request (reply, hub) = match request.get .words dataKey with
      | .error e => (.error (Failure.ofMessage e), reply, hub)
      | .ok data => match request.get .word addressKey with
        | .error e => (.error (Failure.ofMessage e), reply, hub)
        | .ok address => match hub.write address data with
          | .ok hub' => (.ok (), reply, hub')
          | .error e =>
            Filling.set errorKey (.string ("memsvc error: " ++ e.text)) (reply, hub) := by
  rw [writeNamed, Handling.ofMessage_bind_apply]
  rcases request.get .words dataKey with e | data
  · rfl
  · dsimp only
    rw [Handling.ofMessage_bind_apply]
    rcases request.get .word addressKey with e | address
    · rfl
    · dsimp only
      rw [Filling.aside_liftM_bind_apply, writeWords]
      cases hub.write address data <;> rfl

/-! ## Two ways to ask -/

/-- How the module is asked: by calls of its methods, with arguments by position, or by requests
with named keys. -/
inductive Style where
  | typed
  | named
  deriving DecidableEq, Repr

namespace Style

/-- The tag of requests to read. -/
def readTag : Style → String
  | typed => readMethod.tag
  | named => methodTag moduleName "read"

/-- The tag of requests to write. -/
def writeTag : Style → String
  | typed => writeMethod.tag
  | named => methodTag moduleName "write"

/-- The key of the address in a request. -/
def addressKey : Style → String
  | typed => "0"
  | named => Memory.addressKey

/-- The key of the words in a request to write. -/
def dataKey : Style → String
  | typed => "1"
  | named => Memory.dataKey

/-- What answers requests to read. -/
def readEndpoint : Style → Endpoint Hub
  | typed => .typed readMethod handleRead
  | named => .raw readNamed

/-- What answers requests to write. -/
def writeEndpoint : Style → Endpoint Hub
  | typed => .typed writeMethod handleWrite
  | named => .raw writeNamed

theorem moduleOf?_readTag (style : Style) : moduleOf? style.readTag = some moduleName := by
  cases style <;> decide

theorem moduleOf?_writeTag (style : Style) : moduleOf? style.writeTag = some moduleName := by
  cases style <;> decide

/-- Both endpoints for reading are registered. -/
theorem get?_readTag (style : Style) (r : Registry Hub) :
    (register r).endpoints.get? style.readTag = some style.readEndpoint := by
  simp only [register, Registry.register, Registry.registerRaw, Registry.registerModule,
    KeyMap.get?_insert]
  cases style
  · rw [if_neg (by decide), if_pos (by decide)]
    rfl
  · rw [if_neg (by decide), if_neg (by decide), if_neg (by decide), if_pos (by decide)]
    rfl

theorem get?_writeTag (style : Style) (r : Registry Hub) :
    (register r).endpoints.get? style.writeTag = some style.writeEndpoint := by
  simp only [register, Registry.register, Registry.registerRaw, Registry.registerModule,
    KeyMap.get?_insert]
  cases style
  · rw [if_pos (by decide)]
    rfl
  · rw [if_neg (by decide), if_neg (by decide), if_pos (by decide)]
    rfl

/-! ## How requests to write end -/

/-- How a request to write ends, with the store after it. If the reply reports no failure, the
words that the request names are replaced by those that it holds. If it does, or if there is
no reply, the store is as it was. -/
inductive WriteEnds (style : Style) (request : Message) (hub : Hub) {ε : Type} :
    Except ε Message → Hub → Prop where
  | wrote {address : UInt32} {data : List UInt32} {reply : Message} {hub' : Hub}
      (holds : request.Holds [(style.addressKey, .word address), (style.dataKey, .words data)])
      (clean : reply.contains errorKey = false) (wrote : hub.Wrote hub' address data) :
      WriteEnds style request hub (.ok reply) hub'
  | refused {reply : Message} (tells : reply.contains errorKey = true) :
      WriteEnds style request hub (.ok reply) hub
  | failed (e : ε) : WriteEnds style request hub (.error e) hub

/-- An attempt that wrote nothing is reported, or stops the responder. -/
theorem WriteEnds.settled {style : Style} {request : Message} {hub hub' : Hub} {left : Message}
    {attempt : Except String Message} {settled : Except Abort Message}
    (h : style.WriteEnds request hub attempt hub') (settles : left.Settles attempt settled) :
    style.WriteEnds request hub settled hub' := by
  rcases settles with filled | ⟨room, reports⟩ | full
  · rcases h with ⟨holds, clean, wrote⟩ | tells
    · exact .wrote holds clean wrote
    · exact .refused tells
  · cases h
    exact .refused (congrArg Option.isSome reports.get?_errorKey)
  · cases h
    exact .failed _

/-- A typed call to write ends as writes do. -/
theorem attempt_typed (request : Message) {reply : Message}
    (clean : reply.contains errorKey = false) (hub : Hub) :
    ∃ attempt left hub', handleWrite.onMessages.Attempt request reply hub attempt left hub' ∧
      typed.WriteEnds request hub attempt hub' := by
  have run := writeTyped_apply request reply hub
  rcases read : writeMethod.argsOf request with e | ⟨address, data, ⟨⟩⟩
  · rw [read] at run
    exact ⟨_, _, _, .faulted run, .failed _⟩
  · rw [read] at run
    dsimp only at run
    have holds := Method.argsOf_eq_ok_iff.mp read
    rcases write : hub.write address data with e | hub'
    · rw [write] at run
      exact ⟨_, _, _, .faulted run, .failed _⟩
    · rw [write] at run
      exact ⟨_, _, _, .filled run, .wrote holds clean (Hub.wrote_of_write write)⟩

/-- A request to write with named keys ends as writes do. -/
theorem attempt_named (request : Message) {reply : Message}
    (clean : reply.contains errorKey = false) (hub : Hub) :
    ∃ attempt left hub', writeNamed.Attempt request reply hub attempt left hub' ∧
      named.WriteEnds request hub attempt hub' := by
  have run := writeNamed_apply request reply hub
  rcases held : request.get .words Memory.dataKey with e | data
  · rw [held] at run
    exact ⟨_, _, _, .faulted run, .failed _⟩
  · rw [held] at run
    dsimp only at run
    rcases placed : request.get .word Memory.addressKey with e | address
    · rw [placed] at run
      exact ⟨_, _, _, .faulted run, .failed _⟩
    · rw [placed] at run
      dsimp only at run
      rcases write : hub.write address data with e | hub'
      · rw [write] at run
        dsimp only at run
        -- The handler reports the failure itself, if that has room.
        rw [Filling.set_apply] at run
        rcases told : reply.set errorKey (.string ("memsvc error: " ++ e.text)) with e' | filled
        · rw [told] at run
          exact ⟨_, _, _, .faulted run, .failed _⟩
        · rw [told] at run
          have tells : filled.contains errorKey = true := by
            have held : filled.get? errorKey = some _ :=
              (Message.get?_set told _).trans (if_pos rfl)
            exact congrArg Option.isSome held
          exact ⟨_, _, _, .filled run, .refused tells⟩
      · rw [write] at run
        have holds : request.Holds
            [(Memory.addressKey, .word address), (Memory.dataKey, .words data)] :=
          Message.holds_pair_iff.mpr ⟨Message.get?_of_get placed, Message.get?_of_get held⟩
        exact ⟨_, _, _, .filled run, .wrote holds clean (Hub.wrote_of_write write)⟩

/-- A request to write ends in one of the three ways. -/
theorem invoke_writeEndpoint (style : Style) (stackAt : Hub → Option String) (request : Message)
    {reply : Message} (clean : reply.contains errorKey = false) (hub : Hub) :
    ∃ ended hub', style.writeEndpoint.handler.invoke stackAt request reply hub = (ended, hub') ∧
      style.WriteEnds request hub ended hub' := by
  obtain ⟨attempt, left, hub', tried, ends⟩ : ∃ attempt left hub',
      style.writeEndpoint.handler.Attempt request reply hub attempt left hub' ∧
        style.WriteEnds request hub attempt hub' := by
    cases style with
    | typed => exact attempt_typed request clean hub
    | named => exact attempt_named request clean hub
  obtain ⟨ended, invoked, settles⟩ := tried.settles stackAt
  exact ⟨ended, hub', invoked, ends.settled settles⟩

/-! ## Requests to read -/

/-- A handler that reads leaves the store as it is. -/
theorem readEndpoint_keeps (style : Style) (request reply : Message) (hub : Hub) :
    (style.readEndpoint.handler request (reply, hub)).2.2 = hub := by
  have keeps : ∀ key value, (Filling.set key value (reply, hub)).2.2 = hub := by
    intro key value
    rw [Filling.set_apply]
    cases reply.set key value <;> rfl
  cases style with
  | typed =>
    show (handleRead.onMessages request (reply, hub)).2.2 = hub
    rw [readTyped_apply]
    rcases readMethod.argsOf request with e | ⟨address, count, ⟨⟩⟩
    · rfl
    · dsimp only
      rcases hub.read address count.toNat with e | data
      · rfl
      · exact keeps _ _
  | named =>
    show (readNamed request (reply, hub)).2.2 = hub
    rw [readNamed_apply]
    rcases request.get .word countKey with e | count
    · rfl
    · dsimp only
      rcases request.get .word Memory.addressKey with e | address
      · rfl
      · dsimp only
        rcases hub.read address count.toNat with e | data
        · exact keeps _ _
        · exact keeps _ _

end Style

/-! ## Requests to the module -/

/-- **Replies tell the truth about the store**, whatever a request holds and however little room
there is in a reply. A request to write replaces the words that it names if its reply reports
no failure, and otherwise none; a request to read replaces none. The sessions that have loaded
the module pass all these requests on. -/
theorem dispatch_truthful (r : Registry Hub) (style : Style) (request : Message) (hub : Hub) :
    (request.method = style.writeTag → ∃ ended hub',
      (register r).dispatch request hub = (ended.map Except.ok, hub') ∧
      style.WriteEnds request hub ended hub') ∧
    (request.method = style.readTag → ((register r).dispatch request hub).2 = hub) ∧
    ∀ session : Session, session.isLoaded moduleName = true →
      request.method = style.writeTag ∨ request.method = style.readTag →
      session.dispatch (register r) request = (register r).dispatch request := by
  refine ⟨fun method => ?_, fun method => ?_, fun session loaded method => ?_⟩
  · have dispatched := Registry.dispatch_of_registered (method ▸ style.get?_writeTag r) hub
    obtain ⟨ended, hub', invoked, ends⟩ := style.invoke_writeEndpoint (register r).stackAt request
      (show (Message.withLimit request.method (register r).replyLimit).contains errorKey = false
        from rfl) hub
    rw [invoked] at dispatched
    exact ⟨ended, hub', dispatched, ends⟩
  · rw [Registry.dispatch_of_registered (method ▸ style.get?_readTag r), Handler.state_invoke]
    exact style.readEndpoint_keeps request _ hub
  · have named : moduleOf? request.method = some moduleName := by
      rcases method with write | read
      · exact write ▸ style.moduleOf?_writeTag
      · exact read ▸ style.moduleOf?_readTag
    exact Session.dispatch_of_loaded named loaded (register r)

/-- A reply that reports no failure needs no room for entries, so words are replaced also where
nothing could be reported. -/
theorem dispatch_truthful_roomless :
    ∃ request, (Message.empty "memory.write").setAll [("address", .word 1),
        ("data", .words [7, 8])] = .ok request ∧ request.method = Style.named.writeTag ∧
      ∃ reply, (register (Registry.withReplyLimit 0 fun _ => none)).dispatch request ⟨[1, 2, 3]⟩
          = (.ok (.ok reply), ⟨[1, 7, 8]⟩) ∧
        Style.named.WriteEnds request ⟨[1, 2, 3]⟩ (.ok reply : Except Abort Message)
          ⟨[1, 7, 8]⟩ := by
  obtain ⟨request, set⟩ : ∃ request, (Message.empty "memory.write").setAll [("address", .word 1),
      ("data", .words [7, 8])] = .ok request := ⟨_, rfl⟩
  have method : request.method = Style.named.writeTag := by
    cases set
    decide
  obtain ⟨reply, run⟩ : ∃ reply,
      (register (Registry.withReplyLimit 0 fun _ => none)).dispatch request ⟨[1, 2, 3]⟩
        = (.ok (.ok reply), ⟨[1, 7, 8]⟩) := by
    cases set
    exact ⟨_, rfl⟩
  obtain ⟨ended, hub', dispatched, ends⟩ := (dispatch_truthful
    (Registry.withReplyLimit 0 fun _ => none) .named request ⟨[1, 2, 3]⟩).1 method
  rw [run] at dispatched
  refine ⟨request, set, method, reply, run, ?_⟩
  rcases ended with abort | filled
  · cases dispatched
  · cases dispatched
    exact ends

end Memory

end KeyedRpc
