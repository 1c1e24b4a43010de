/-
# Both styles come to the same

A call by position and a request with named keys go different ways through the memory module:
one fails with the error of the store, the other reports it itself, and they look at the keys
in different orders. If the two hold the same under the keys that stand for one another, they
come to the same words or the same store, or both fail (`Memory.styles_agree`). Only the texts
of failures tell them apart.
-/
import KeyedRpc.Proofs.Memory.Array

namespace KeyedRpc

variable {σ : Type}

/-! ## What replies tell -/

/-- A reply tells what a request came to: it has the entries of the answer and no others, or
it reports the failure. -/
inductive Message.Tells (reply blank : Message) : Except String (List (String × Value)) → Prop where
  | answers {l : List (String × Value)} (holds : reply.entries.entries = l) :
      Tells reply blank (.ok l)
  | fails {text : String} (reports : reply.Reports blank text) : Tells reply blank (.error text)

/-- The number of bytes of a reply that tells what a request for a tag came to. -/
def Message.toldSize (tag : String) : Except String (List (String × Value)) → Nat
  | .ok l => (spelling tag l).length
  | .error text => reportSize tag text

/-- A handler comes to something on a request: on every blank reply with room for it, it fills
in what tells so, or it fails with the text and leaves the reply blank. -/
def Handler.ComesTo (handle : Handler σ) (request : Message) (tag : String) (s s' : σ)
    (told : Except String (List (String × Value))) : Prop :=
  ∀ limit, Message.toldSize tag told ≤ limit →
    (∃ filled, handle request (Message.withLimit tag limit, s) = (.ok (), filled, s') ∧
      filled.Tells (Message.withLimit tag limit) told) ∨
    ∃ failure, handle request (Message.withLimit tag limit, s)
        = (.error failure, Message.withLimit tag limit, s') ∧ told = .error failure.text

/-- A registry tells what a request came to, with the state after it, if replies have room. -/
def Registry.Tells (r : Registry σ) (request : Message) (s s' : σ)
    (told : Except String (List (String × Value))) : Prop :=
  Message.toldSize request.method told ≤ r.replyLimit →
    ∃ reply, r.dispatch request s = (.ok (.ok reply), s') ∧
      reply.Tells (Message.withLimit request.method r.replyLimit) told

namespace Handler.ComesTo

variable {handle : Handler σ} {request : Message} {tag : String} {s s' : σ}

/-- A handler that fails comes to its failure. -/
theorem of_failure {failure : Failure}
    (ran : ∀ reply, handle request (reply, s) = (.error failure, reply, s')) :
    handle.ComesTo request tag s s' (.error failure.text) := by
  intro limit _
  exact Or.inr ⟨failure, ran _, rfl⟩

/-- A handler that fills in nothing comes to no entries. -/
theorem of_silence (ran : ∀ reply, handle request (reply, s) = (.ok (), reply, s')) :
    handle.ComesTo request tag s s' (.ok []) := by
  intro limit _
  exact Or.inl ⟨_, ran _, .answers rfl⟩

/-- A handler that sets an entry comes to that entry. -/
theorem of_set {key : String} {value : Value}
    (ran : ∀ reply, handle request (reply, s) = Filling.set key value (reply, s')) :
    handle.ComesTo request tag s s' (.ok [(key, value)]) := by
  intro limit room
  rw [Message.toldSize, Message.length_spelling] at room
  obtain ⟨filled, set, -, held⟩ := Filling.set_of_room room s'
  exact Or.inl ⟨filled, (ran _).trans set, .answers held⟩

/-- A failure that a handler reports itself is told like any other. -/
theorem of_set_error {text : String}
    (ran : ∀ reply, handle request (reply, s)
      = Filling.set errorKey (.string text) (reply, s')) :
    handle.ComesTo request tag s s' (.error text) := by
  intro limit room
  rw [Message.toldSize, Message.reportSize, Message.length_spelling] at room
  obtain ⟨filled, set, held⟩ := Message.exists_set_withLimit room
  obtain ⟨-, method, -, limit_eq⟩ := Message.set_eq_ok_iff.mp set
  refine Or.inl ⟨filled, ?_, .fails ⟨method, limit_eq, ?_, Or.inl held⟩⟩
  · rw [ran, Filling.set_apply, set]
  · exact Message.size_le_limit_of_set set

/-- What the handler of an endpoint comes to is told by the registry. -/
theorem tells {r : Registry σ} {endpoint : Endpoint σ}
    {told : Except String (List (String × Value))}
    (comes : endpoint.handler.ComesTo request request.method s s' told)
    (registered : r.endpoints.get? request.method = some endpoint) :
    r.Tells request s s' told := by
  intro room
  have invoked : ∃ reply, endpoint.handler.invoke r.stackAt request
      (Message.withLimit request.method r.replyLimit) s = (.ok reply, s') ∧
        reply.Tells (Message.withLimit request.method r.replyLimit) told := by
    unfold Handler.invoke
    rcases comes r.replyLimit room with ⟨filled, ran, tells⟩ | ⟨failure, ran, rfl⟩
    · rw [ran]
      exact ⟨filled, rfl, tells⟩
    · have blank : Message.reportSize (Message.withLimit request.method r.replyLimit).method
          failure.text ≤ (Message.withLimit request.method r.replyLimit).limit := room
      obtain ⟨report, reported, reports⟩ := Message.reports_of_room blank (r.stackAt s')
      rw [ran]
      dsimp only
      rw [reported]
      exact ⟨report, rfl, .fails reports⟩
  obtain ⟨reply, invoked, tells⟩ := invoked
  refine ⟨reply, ?_, tells⟩
  exact Registry.dispatch_eq_ok_iff.mpr (Or.inr ⟨endpoint, reply, registered, invoked, rfl⟩)

end Handler.ComesTo

namespace Memory

/-! ## Requests in two styles -/

namespace Style

/-- The key of the number of words in a request to read. -/
def countKey : Style → String
  | typed => "1"
  | named => Memory.countKey

/-- The key of the words in a reply. -/
def wordsKey : Style → String
  | typed => "0"
  | named => Memory.dataKey

/-- The entries of a reply with words. -/
def wordsEntries (style : Style) (data : List UInt32) : List (String × Value) :=
  [(style.wordsKey, .words data)]

/-- A request to read holds something, or nothing, for the address and the number of words. -/
structure Reads (style : Style) (address count : Option Value) (request : Message) : Prop where
  method : request.method = style.readTag
  address : request.get? style.addressKey = address
  count : request.get? style.countKey = count

/-- A request to write holds something, or nothing, for the address and the words. -/
structure Writes (style : Style) (address data : Option Value) (request : Message) : Prop where
  method : request.method = style.writeTag
  address : request.get? style.addressKey = address
  data : request.get? style.dataKey = data

/-- Both styles come to the same thing, or both fail. -/
def Agree {β : Type} (told : Style → Except String β) : Prop :=
  (∃ b, ∀ style, told style = .ok b) ∨ ∀ style, ∃ text, told style = .error text

/-- The store that comes of it is the same as well, since a failure leaves it as it was. -/
theorem Agree.exists_store {told : Style → Except String Hub} (h : Agree told) (hub : Hub) :
    ∃ after, ∀ style, after = (told style).toOption.getD hub := by
  rcases h with ⟨after, same⟩ | fails
  · refine ⟨after, fun style => ?_⟩
    rw [same style]
    rfl
  · refine ⟨hub, fun style => ?_⟩
    obtain ⟨text, failed⟩ := fails style
    rw [failed]
    rfl

/-- An access that both styles reach comes to the same, up to the text of its failure. -/
theorem agree_mapError {β : Type} (access : Except MemoryError β)
    (failure : Style → MemoryError → String) :
    Agree fun style => access.mapError (failure style) := by
  cases access with
  | ok b => exact Or.inl ⟨b, fun _ => rfl⟩
  | error e => exact Or.inr fun style => ⟨failure style e, rfl⟩

/-- Either the arguments can be read in both styles, and both come to the access, or they can
be read in neither, and both fail. -/
theorem exists_agree {α β : Type} {asked : α → Prop} (access : α → Except MemoryError β)
    (failure : Style → MemoryError → String) (comes : Style → Except String β → Prop)
    (unique : ∀ x y, asked x → asked y → x = y)
    (reached : ∀ x, asked x → ∀ style, comes style ((access x).mapError (failure style)))
    (unread : (∀ x, ¬ asked x) → ∀ style, ∃ text, comes style (.error text)) :
    ∃ told : Style → Except String β, Agree told ∧
      (∀ x, asked x → ∀ style, told style = (access x).mapError (failure style)) ∧
      ∀ style, comes style (told style) := by
  by_cases reads : ∃ x, asked x
  · obtain ⟨x, asks⟩ := reads
    refine ⟨_, agree_mapError (access x) failure, fun y asks' style => ?_, reached x asks⟩
    rw [unique x y asks asks']
  · have none : ∀ x, ¬ asked x := fun x asks => reads ⟨x, asks⟩
    have fails := unread none
    exact ⟨fun style => .error (fails style).choose, Or.inr fun style => ⟨_, rfl⟩,
      fun x asks => absurd asks (none x), fun style => (fails style).choose_spec⟩

/-! ## Requests to read -/

variable {request : Message} {tag : String} {hub : Hub}

/-- A request to read whose arguments can be read comes to the words, or to the failure of the
store. -/
theorem read_comesTo (style : Style) {address count : UInt32}
    (holds : request.Holds [(style.addressKey, .word address), (style.countKey, .word count)]) :
    style.readEndpoint.handler.ComesTo request tag hub hub
      (((hub.read address count.toNat).mapError style.readFailure).map style.wordsEntries) := by
  cases style with
  | typed =>
    have args : readMethod.argsOf request = .ok (address, count, ()) :=
      Method.argsOf_eq_ok_iff.mpr holds
    have run (reply : Message) := readTyped_apply request reply hub
    rw [args] at run
    dsimp only at run
    rcases accessed : hub.read address count.toNat with e | data
    · rw [accessed] at run
      show Handler.ComesTo _ request tag hub hub (.error (Failure.fault (typed.readFailure e)).text)
      exact .of_failure run
    · rw [accessed] at run
      exact .of_set run
  | named =>
    obtain ⟨placed, counted⟩ : request.get? Memory.addressKey = some (.word address) ∧
        request.get? Memory.countKey = some (.word count) := Message.holds_pair_iff.mp holds
    have run (reply : Message) := readNamed_apply request reply hub
    rw [Message.get_of_get? counted] at run
    dsimp only at run
    rw [Message.get_of_get? placed] at run
    dsimp only at run
    rcases accessed : hub.read address count.toNat with e | data
    · rw [accessed] at run
      exact .of_set_error run
    · rw [accessed] at run
      exact .of_set run

/-- Any other request to read fails. -/
theorem read_comesTo_failure (style : Style)
    (unheld : ∀ address count, ¬ request.Holds
      [(style.addressKey, .word address), (style.countKey, .word count)]) :
    ∃ text, style.readEndpoint.handler.ComesTo request tag hub hub (.error text) := by
  cases style with
  | typed =>
    have run (reply : Message) := readTyped_apply request reply hub
    rcases read : readMethod.argsOf request with e | ⟨address, count, ⟨⟩⟩
    · rw [read] at run
      exact ⟨_, .of_failure run⟩
    · exact absurd (Method.argsOf_eq_ok_iff.mp read) (unheld address count)
  | named =>
    have run (reply : Message) := readNamed_apply request reply hub
    rcases counted : request.get .word Memory.countKey with e | count
    · rw [counted] at run
      exact ⟨_, .of_failure run⟩
    · rw [counted] at run
      dsimp only at run
      rcases placed : request.get .word Memory.addressKey with e | address
      · rw [placed] at run
        exact ⟨_, .of_failure run⟩
      · refine absurd (Message.holds_pair_iff.mpr ?_) (unheld address count)
        exact ⟨Message.get?_of_get placed, Message.get?_of_get counted⟩

/-! ## Requests to write -/

/-- A request to write whose arguments can be read comes to the store with the words replaced,
or to the failure of the store, which is then as it was. -/
theorem write_comesTo (style : Style) {address : UInt32} {data : List UInt32}
    (holds : request.Holds [(style.addressKey, .word address), (style.dataKey, .words data)]) :
    style.writeEndpoint.handler.ComesTo request tag hub
      ((hub.write address data).toOption.getD hub)
      (((hub.write address data).mapError style.writeFailure).map fun _ => []) := by
  cases style with
  | typed =>
    have args : writeMethod.argsOf request = .ok (address, data, ()) :=
      Method.argsOf_eq_ok_iff.mpr holds
    have run (reply : Message) := writeTyped_apply request reply hub
    rw [args] at run
    dsimp only at run
    rcases accessed : hub.write address data with e | hub'
    · rw [accessed] at run
      show Handler.ComesTo _ request tag hub hub
        (.error (Failure.fault (typed.writeFailure e)).text)
      exact .of_failure run
    · rw [accessed] at run
      exact .of_silence run
  | named =>
    obtain ⟨placed, held⟩ : request.get? Memory.addressKey = some (.word address) ∧
        request.get? Memory.dataKey = some (.words data) := Message.holds_pair_iff.mp holds
    have run (reply : Message) := writeNamed_apply request reply hub
    rw [Message.get_of_get? held] at run
    dsimp only at run
    rw [Message.get_of_get? placed] at run
    dsimp only at run
    rcases accessed : hub.write address data with e | hub'
    · rw [accessed] at run
      exact .of_set_error run
    · rw [accessed] at run
      exact .of_silence run

/-- Any other request to write fails, and leaves the store as it is. -/
theorem write_comesTo_failure (style : Style)
    (unheld : ∀ address data, ¬ request.Holds
      [(style.addressKey, .word address), (style.dataKey, .words data)]) :
    ∃ text, style.writeEndpoint.handler.ComesTo request tag hub hub (.error text) := by
  cases style with
  | typed =>
    have run (reply : Message) := writeTyped_apply request reply hub
    rcases read : writeMethod.argsOf request with e | ⟨address, data, ⟨⟩⟩
    · rw [read] at run
      exact ⟨_, .of_failure run⟩
    · exact absurd (Method.argsOf_eq_ok_iff.mp read) (unheld address data)
  | named =>
    have run (reply : Message) := writeNamed_apply request reply hub
    rcases held : request.get .words Memory.dataKey with e | data
    · rw [held] at run
      exact ⟨_, .of_failure run⟩
    · rw [held] at run
      dsimp only at run
      rcases placed : request.get .word Memory.addressKey with e | address
      · rw [placed] at run
        exact ⟨_, .of_failure run⟩
      · refine absurd (Message.holds_pair_iff.mpr ?_) (unheld address data)
        exact ⟨Message.get?_of_get placed, Message.get?_of_get held⟩

end Style

/-! ## Both styles -/

namespace Style

variable {request : Style → Message} {address : Option Value}

/-- Requests to read that hold the same come to the same. -/
theorem reads_agree {count : Option Value}
    (reads : ∀ style : Style, style.Reads address count (request style)) (hub : Hub) :
    ∃ told : Style → Except String (List UInt32), Agree told ∧
      (∀ x : UInt32 × UInt32, address = some (.word x.1) ∧ count = some (.word x.2) →
        ∀ style, told style = (hub.read x.1 x.2.toNat).mapError style.readFailure) ∧
      ∀ style : Style, style.readEndpoint.handler.ComesTo (request style) (request style).method
        hub hub ((told style).map style.wordsEntries) := by
  refine exists_agree (fun x : UInt32 × UInt32 => hub.read x.1 x.2.toNat) readFailure
    (fun style told => style.readEndpoint.handler.ComesTo (request style) (request style).method
      hub hub (told.map style.wordsEntries)) ?_ ?_ ?_
  · rintro ⟨a, n⟩ ⟨b, m⟩ ⟨rfl, rfl⟩ ⟨sameAddress, sameCount⟩
    cases sameAddress
    cases sameCount
    rfl
  · rintro ⟨a, n⟩ ⟨rfl, rfl⟩ style
    apply read_comesTo
    exact Message.holds_pair_iff.mpr ⟨(reads style).address, (reads style).count⟩
  · intro none style
    apply read_comesTo_failure
    intro a n holds
    obtain ⟨placed, counted⟩ := Message.holds_pair_iff.mp holds
    exact none (a, n) ⟨(reads style).address ▸ placed, (reads style).count ▸ counted⟩

/-- Requests to write that hold the same come to the same. -/
theorem writes_agree {data : Option Value}
    (writes : ∀ style : Style, style.Writes address data (request style)) (hub : Hub) :
    ∃ told : Style → Except String Hub, Agree told ∧
      (∀ x : UInt32 × List UInt32, address = some (.word x.1) ∧ data = some (.words x.2) →
        ∀ style, told style = (hub.write x.1 x.2).mapError style.writeFailure) ∧
      ∀ style : Style, style.writeEndpoint.handler.ComesTo (request style) (request style).method
        hub ((told style).toOption.getD hub) ((told style).map fun _ => []) := by
  refine exists_agree (fun x : UInt32 × List UInt32 => hub.write x.1 x.2) writeFailure
    (fun style told => style.writeEndpoint.handler.ComesTo (request style) (request style).method
      hub (told.toOption.getD hub) (told.map fun _ => [])) ?_ ?_ ?_
  · rintro ⟨a, ws⟩ ⟨b, vs⟩ ⟨rfl, rfl⟩ ⟨sameAddress, sameData⟩
    cases sameAddress
    cases sameData
    rfl
  · rintro ⟨a, ws⟩ ⟨rfl, rfl⟩ style
    rw [toOption_mapError]
    apply write_comesTo
    exact Message.holds_pair_iff.mpr ⟨(writes style).address, (writes style).data⟩
  · intro none style
    apply write_comesTo_failure
    intro a ws holds
    obtain ⟨placed, held⟩ := Message.holds_pair_iff.mp holds
    exact none (a, ws) ⟨(writes style).address ▸ placed, (writes style).data ▸ held⟩

end Style

/-- **Both styles come to the same.** Take a request in each style, and let both hold the same,
or nothing, for the address and for what comes with it. Requests to read come to the same words,
or both fail; requests to write come to the same store, or both fail and leave it as it was.
Where the arguments can be read, this is what the access comes to, and a failure of the store is
told in the words of the style. -/
theorem styles_agree (hub : Hub) (address : Option Value) (request : Style → Message) :
    (∀ count, (∀ style : Style, style.Reads address count (request style)) →
      ∃ told : Style → Except String (List UInt32), Style.Agree told ∧
        (∀ place number, address = some (.word place) → count = some (.word number) →
          ∀ style, told style = (hub.read place number.toNat).mapError style.readFailure) ∧
        ∀ (r : Registry Hub) (style : Style),
          (register r).Tells (request style) hub hub ((told style).map style.wordsEntries)) ∧
    ∀ data, (∀ style : Style, style.Writes address data (request style)) →
      ∃ (told : Style → Except String Hub) (after : Hub), Style.Agree told ∧
        (∀ style, after = (told style).toOption.getD hub) ∧
        (∀ place words, address = some (.word place) → data = some (.words words) →
          ∀ style, told style = (hub.write place words).mapError style.writeFailure) ∧
        ∀ (r : Registry Hub) (style : Style),
          (register r).Tells (request style) hub after ((told style).map fun _ => []) := by
  constructor
  · intro count reads
    obtain ⟨told, agree, access, comes⟩ := Style.reads_agree reads hub
    refine ⟨told, agree, fun a n placed counted => access (a, n) ⟨placed, counted⟩, ?_⟩
    intro r style
    exact (comes style).tells ((reads style).method ▸ style.get?_readTag r)
  · intro data writes
    obtain ⟨told, agree, access, comes⟩ := Style.writes_agree writes hub
    obtain ⟨after, same⟩ := agree.exists_store hub
    refine ⟨told, after, agree, same, fun a ws placed held => access (a, ws) ⟨placed, held⟩, ?_⟩
    intro r style
    rw [same style]
    exact (comes style).tells ((writes style).method ▸ style.get?_writeTag r)

/-- Words are read in both styles, and a write past the end fails in both. -/
theorem styles_agree_three_words :
    ∃ reads writes : Style → Message,
      (∀ style : Style, style.Reads (some (.word 1)) (some (.word 2)) (reads style)) ∧
      (∀ style : Style, style.Writes (some (.word 2)) (some (.words [7, 8])) (writes style)) ∧
      ∀ style : Style,
        (∃ reply, (register (Registry.empty fun _ => none)).dispatch (reads style) ⟨[4, 5, 6]⟩
            = (.ok (.ok reply), ⟨[4, 5, 6]⟩) ∧
          reply.entries.entries = [(style.wordsKey, .words [5, 6])]) ∧
        ∃ reply, (register (Registry.empty fun _ => none)).dispatch (writes style) ⟨[4, 5, 6]⟩
            = (.ok (.ok reply), ⟨[4, 5, 6]⟩) ∧
          reply.get? errorKey = some (.string (style.writeFailure (.outOfRange 2 2 3))) := by
  obtain ⟨reads, all_read⟩ : ∃ reads : Style → Message, ∀ style : Style,
      style.Reads (some (.word 1)) (some (.word 2)) (reads style) := by
    refine ⟨fun style => ((Message.empty style.readTag).setAll
      [(style.addressKey, .word 1), (style.countKey, .word 2)]).toOption.getD default, ?_⟩
    intro style
    cases style <;> exact ⟨rfl, rfl, rfl⟩
  obtain ⟨writes, all_write⟩ : ∃ writes : Style → Message, ∀ style : Style,
      style.Writes (some (.word 2)) (some (.words [7, 8])) (writes style) := by
    refine ⟨fun style => ((Message.empty style.writeTag).setAll
      [(style.addressKey, .word 2), (style.dataKey, .words [7, 8])]).toOption.getD default, ?_⟩
    intro style
    cases style <;> exact ⟨rfl, rfl, rfl⟩
  obtain ⟨read, -, reached, read_tells⟩ :=
    (styles_agree ⟨[4, 5, 6]⟩ (some (.word 1)) reads).1 _ all_read
  obtain ⟨written, after, -, same, refused, write_tells⟩ :=
    (styles_agree ⟨[4, 5, 6]⟩ (some (.word 2)) writes).2 _ all_write
  refine ⟨reads, writes, all_read, all_write, fun style => ⟨?_, ?_⟩⟩
  · have words : read style = .ok [5, 6] := reached 1 2 rfl rfl style
    have tells := read_tells (Registry.empty fun _ => none) style
    rw [words] at tells
    obtain ⟨reply, answered, told⟩ := tells (by
      rw [(all_read style).method]
      cases style <;> decide)
    cases told with
    | answers holds => exact ⟨reply, answered, holds⟩
  · have failed : written style = .error (style.writeFailure (.outOfRange 2 2 3)) :=
      refused 2 [7, 8] rfl rfl style
    have tells := write_tells (Registry.empty fun _ => none) style
    rw [same style, failed] at tells
    obtain ⟨reply, answered, told⟩ := tells (by
      rw [(all_write style).method]
      cases style <;> decide)
    cases told with
    | fails reports => exact ⟨reply, answered, reports.get?_errorKey⟩

end Memory

end KeyedRpc
