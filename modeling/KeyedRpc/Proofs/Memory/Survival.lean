/-
# No request stops the memory module

A responder stops for good only where the text of a failure has no room in a reply. The texts of
the memory module are short, whatever a request holds, so with a limit of 256 bytes or more each
of them has room, and every request to the module is answered (`Memory.dispatch_survives`).
-/
import KeyedRpc.Proofs.Memory.Array
import KeyedRpc.Proofs.Message.Layout

namespace KeyedRpc

open Numeral (decimal utf8ByteSize_append_le)

/-! ## Failures to read a message -/

namespace Message

/-- The text about an entry that is not as it should be is little longer than the key. -/
theorem utf8ByteSize_le_of_misfit {m : Message} {kind : Kind} {key : String} {e : MessageError}
    (h : m.Misfit key kind e) : e.text.utf8ByteSize ≤ key.utf8ByteSize + 62 := by
  have name_le (kind : Kind) : kind.name.utf8ByteSize ≤ 12 := by cases kind <;> decide
  rcases h with _ | @⟨found, -, -⟩
  · have whole := utf8ByteSize_append_le (Nat.le_refl "bad RPC key ".utf8ByteSize)
      (Nat.le_refl key.utf8ByteSize)
    have start : "bad RPC key ".utf8ByteSize = 12 := by decide
    show ("bad RPC key " ++ key).utf8ByteSize ≤ _
    omega
  · show ("RPC type error: key " ++ key ++ " holds " ++ found.name ++ ", expected "
      ++ kind.name).utf8ByteSize ≤ _
    simp only [String.utf8ByteSize_append]
    have found_le := name_le found
    have kind_le := name_le kind
    have fixed : "RPC type error: key ".utf8ByteSize + " holds ".utf8ByteSize
        + ", expected ".utf8ByteSize = 38 := by decide
    omega

/-- The text of a failure to get an entry is little longer than the key. -/
theorem utf8ByteSize_le_of_get_error {m : Message} {kind : Kind} {key : String} {e : MessageError}
    (h : m.get kind key = .error e) : e.text.utf8ByteSize ≤ key.utf8ByteSize + 62 :=
  utf8ByteSize_le_of_misfit (get_eq_error_iff.mp h)

/-- The words under a key take up a part of the bytes of a message. -/
theorem length_le_of_get? {m : Message} {key : String} {data : List UInt32}
    (h : m.get? key = some (.words data)) : 4 * data.length ≤ m.size := by
  have le := m.held_le_size key
  have held : m.held key = entrySize key (.words data) := by
    rw [held, h]
    rfl
  rw [held] at le
  refine Nat.le_trans ?_ le
  show 4 * data.length ≤ Value.blobSize key + (1 + 4 + 4 * data.length)
  omega

end Message

/-! ## Failures to access a store -/

namespace Hub

/-- An access is refused only if it goes past the end. -/
theorem outside_of_check {h : Hub} {address : UInt32} {count : Nat} {e : MemoryError}
    (failed : h.check address count = .error e) :
    e = .outOfRange address count h.size ∧ h.size < address.toNat + count := by
  unfold check at failed
  by_cases inside : address.toNat + count ≤ h.size
  · rw [if_pos inside] at failed
    cases failed
  · rw [if_neg inside] at failed
    cases failed
    exact ⟨rfl, Nat.lt_of_not_le inside⟩

/-- The text of a failure to read or to write is short. -/
theorem utf8ByteSize_le_of_check {h : Hub} {address : UInt32} {count : Nat} {e : MemoryError}
    (few : count < 2 ^ 64) (failed : h.check address count = .error e) :
    e.text.utf8ByteSize ≤ 128 := by
  obtain ⟨rfl, outside⟩ := outside_of_check failed
  exact Memory.Access.utf8ByteSize_outOfRange_le few outside

/-- No more words are read than were asked for. -/
theorem length_le_of_read {h : Hub} {address : UInt32} {count : Nat} {data : List UInt32}
    (read : h.read address count = .ok data) : data.length ≤ count := by
  obtain ⟨-, -, rfl⟩ := map_eq_ok_iff.mp read
  rw [List.length_take]
  exact Nat.min_le_left _ _

end Hub

/-! ## Handlers that fail briefly -/

/-- A handler fails briefly on a request if it leaves a reply as it was where it fails, and the
text of its failure is short. -/
def Handler.Brief {σ : Type} (handle : Handler σ) (request reply : Message) : Prop :=
  ∀ s failure left s', handle request (reply, s) = (.error failure, left, s') →
    left = reply ∧ failure.text.utf8ByteSize ≤ 148

/-- A handler that fails briefly is always answered if a reply has room for 256 bytes. -/
theorem Handler.Brief.invoke {σ : Type} {handle : Handler σ} {request reply : Message}
    (brief : handle.Brief request reply) (tag_le : reply.method.utf8ByteSize ≤ 12)
    (le : 256 ≤ reply.limit) (stackAt : σ → Option String) (s : σ) :
    ∃ final s', handle.invoke stackAt request reply s = (.ok final, s') := by
  unfold Handler.invoke
  rcases ran : handle request (reply, s) with ⟨failure | ⟨⟩, left, s'⟩
  · obtain ⟨rfl, short⟩ := brief s failure left s' ran
    have room := Nat.le_trans (Memory.Access.reportSize_le tag_le short) le
    obtain ⟨report, reported, -⟩ := Message.reports_of_room room (stackAt s')
    dsimp only
    rw [reported]
    exact ⟨report, s', rfl⟩
  · exact ⟨left, s', rfl⟩

namespace Memory

variable {request : Message} {tag : String} {limit : Nat}

/-- Words that have no room in a reply are a short failure. -/
theorem utf8ByteSize_le_of_set_error {key : String} {data : List UInt32} {e : MessageError}
    (tag_le : tag.utf8ByteSize ≤ 12) (key_le : key.utf8ByteSize ≤ 12)
    (few : data.length ≤ 2 ^ 32)
    (refused : (Message.withLimit tag limit).set key (.words data) = .error e) :
    e.text.utf8ByteSize ≤ 148 := by
  obtain ⟨full, rfl⟩ := Message.set_eq_error_iff.mp refused
  have needed : (Message.withLimit tag limit).needed key (.words data)
      = headerSize tag + entrySize key (.words data) := Message.needed_of_absent rfl _
  have size : headerSize tag + entrySize key (.words data)
      = tag.utf8ByteSize + key.utf8ByteSize + 4 * data.length + 19 := by
    show (1 + 4 + tag.utf8ByteSize) + 4
      + ((1 + 4 + key.utf8ByteSize) + (1 + 4 + 4 * data.length)) = _
    omega
  rw [needed, size] at full ⊢
  have full : limit < _ := full
  have needed_lt : tag.utf8ByteSize + key.utf8ByteSize + 4 * data.length + 19 < 10 ^ 12 := by
    omega
  have limit_lt : limit < 10 ^ 12 := by omega
  exact Nat.le_trans (Access.utf8ByteSize_bufferTooSmall_le needed_lt limit_lt) (by decide)

/-- A handler that puts words into its reply fails briefly. -/
theorem brief_set {key : String} {data : List UInt32} {hub hub' : Hub} {failure : Failure}
    {left : Message} (tag_le : tag.utf8ByteSize ≤ 12) (key_le : key.utf8ByteSize ≤ 12)
    (few : data.length ≤ 2 ^ 32)
    (ran : Filling.set key (.words data) (Message.withLimit tag limit, hub)
      = (.error failure, left, hub')) :
    left = Message.withLimit tag limit ∧ failure.text.utf8ByteSize ≤ 148 := by
  rw [Filling.set_apply] at ran
  rcases set : (Message.withLimit tag limit).set key (.words data) with e | filled
  · rw [set] at ran
    cases ran
    exact ⟨rfl, utf8ByteSize_le_of_set_error tag_le key_le few set⟩
  · rw [set] at ran
    cases ran

/-- A handler that reports a failure itself does not fail, if that is short. -/
theorem exists_told {text : String} (tag_le : tag.utf8ByteSize ≤ 12) (le : 256 ≤ limit)
    (short : text.utf8ByteSize ≤ 148) (hub : Hub) :
    ∃ filled, Filling.set errorKey (.string text) (Message.withLimit tag limit, hub)
      = (.ok (), filled, hub) := by
  have room := Nat.le_trans (Access.reportSize_le tag_le short) le
  rw [Message.reportSize, Message.length_spelling] at room
  obtain ⟨filled, set, -⟩ := Filling.set_of_room room hub
  exact ⟨filled, set⟩

/-- The text of a failure to read arguments by position is short, if there are few of them. -/
theorem utf8ByteSize_le_of_argsOf_error {m : Method} {e : MessageError} (few : m.arity ≤ 10)
    (unread : m.argsOf request = .error e) : e.text.utf8ByteSize ≤ 63 := by
  obtain ⟨i, kind, lt, misfit⟩ := Method.misfit_of_argsOf unread
  have key : (decimal i).utf8ByteSize ≤ 1 :=
    Numeral.utf8ByteSize_decimal_le (by decide) (by omega)
  have text := Message.utf8ByteSize_le_of_misfit misfit
  omega

/-- Typed reads fail with short texts. -/
theorem brief_handleRead (tag_le : tag.utf8ByteSize ≤ 12) :
    handleRead.onMessages.Brief request (Message.withLimit tag limit) := by
  intro hub failure left hub' ran
  rw [readTyped_apply] at ran
  rcases read : readMethod.argsOf request with e | ⟨address, count, ⟨⟩⟩
  · rw [read] at ran
    cases ran
    exact ⟨rfl, Nat.le_trans (utf8ByteSize_le_of_argsOf_error (by decide) read) (by decide)⟩
  · rw [read] at ran
    dsimp only at ran
    have few := count.toNat_lt
    rcases accessed : hub.read address count.toNat with e | data
    · rw [accessed] at ran
      cases ran
      have text := Hub.utf8ByteSize_le_of_check (by omega) (map_eq_error_iff.mp accessed)
      exact ⟨rfl, Access.utf8ByteSize_readFailure_le .typed text⟩
    · have length := Hub.length_le_of_read accessed
      rw [accessed] at ran
      exact brief_set tag_le (by decide) (by omega) ran

theorem brief_handleWrite (few : request.size < 2 ^ 64) :
    handleWrite.onMessages.Brief request (Message.withLimit tag limit) := by
  intro hub failure left hub' ran
  rw [writeTyped_apply] at ran
  rcases read : writeMethod.argsOf request with e | ⟨address, data, ⟨⟩⟩
  · rw [read] at ran
    cases ran
    exact ⟨rfl, Nat.le_trans (utf8ByteSize_le_of_argsOf_error (by decide) read) (by decide)⟩
  · rw [read] at ran
    dsimp only at ran
    have holds := Method.argsOf_eq_ok_iff.mp read
    have length := Message.length_le_of_get?
      (holds _ (List.mem_cons_of_mem _ List.mem_cons_self))
    rcases accessed : hub.write address data with e | after
    · rw [accessed] at ran
      cases ran
      have text := Hub.utf8ByteSize_le_of_check (by omega) (map_eq_error_iff.mp accessed)
      exact ⟨rfl, Access.utf8ByteSize_writeFailure_le .typed text⟩
    · -- A result of the unit type always has room.
      rw [accessed] at ran
      cases ran

/-- Reads with named keys fail with short texts. -/
theorem brief_readNamed (tag_le : tag.utf8ByteSize ≤ 12) (le : 256 ≤ limit) :
    Handler.Brief readNamed request (Message.withLimit tag limit) := by
  intro hub failure left hub' ran
  rw [readNamed_apply] at ran
  rcases counted : request.get .word countKey with e | count
  · rw [counted] at ran
    cases ran
    exact ⟨rfl, Nat.le_trans (Message.utf8ByteSize_le_of_get_error counted) (by decide)⟩
  · rw [counted] at ran
    dsimp only at ran
    rcases placed : request.get .word addressKey with e | address
    · rw [placed] at ran
      cases ran
      exact ⟨rfl, Nat.le_trans (Message.utf8ByteSize_le_of_get_error placed) (by decide)⟩
    · rw [placed] at ran
      dsimp only at ran
      have few := count.toNat_lt
      rcases accessed : hub.read address count.toNat with e | data
      · have text := Hub.utf8ByteSize_le_of_check (by omega) (map_eq_error_iff.mp accessed)
        obtain ⟨filled, told⟩ := exists_told tag_le le (Nat.le_trans text (by decide)) hub
        rw [accessed] at ran
        have ended := told.symm.trans ran
        cases ended
      · have length := Hub.length_le_of_read accessed
        rw [accessed] at ran
        exact brief_set tag_le (by decide) (by omega) ran

theorem brief_writeNamed (tag_le : tag.utf8ByteSize ≤ 12) (le : 256 ≤ limit)
    (few : request.size < 2 ^ 64) :
    Handler.Brief writeNamed request (Message.withLimit tag limit) := by
  intro hub failure left hub' ran
  rw [writeNamed_apply] at ran
  rcases held : request.get .words dataKey with e | data
  · rw [held] at ran
    cases ran
    exact ⟨rfl, Nat.le_trans (Message.utf8ByteSize_le_of_get_error held) (by decide)⟩
  · rw [held] at ran
    dsimp only at ran
    rcases placed : request.get .word addressKey with e | address
    · rw [placed] at ran
      cases ran
      exact ⟨rfl, Nat.le_trans (Message.utf8ByteSize_le_of_get_error placed) (by decide)⟩
    · rw [placed] at ran
      dsimp only at ran
      have length := Message.length_le_of_get? (Message.get?_of_get held)
      rcases accessed : hub.write address data with e | after
      · have text := Hub.utf8ByteSize_le_of_check (by omega) (map_eq_error_iff.mp accessed)
        obtain ⟨filled, told⟩ := exists_told tag_le le
          (Access.utf8ByteSize_writeFailure_le .named text) hub
        rw [accessed] at ran
        have ended := told.symm.trans ran
        cases ended
      · rw [accessed] at ran
        cases ran

/-! ## Requests to the module -/

/-- The module answers the tags of its methods and of requests with named keys. -/
def Answers (tag : String) : Prop :=
  ∃ style : Style, tag = style.readTag ∨ tag = style.writeTag

/-- No endpoint stands under other tags. -/
theorem get?_eq_none {tag : String} (other : ¬ Answers tag) (limit : Nat)
    (stackAt : Hub → Option String) :
    (register (Registry.withReplyLimit limit stackAt)).endpoints.get? tag = none := by
  have read (style : Style) : tag ≠ style.readTag := fun same => other ⟨style, Or.inl same⟩
  have write (style : Style) : tag ≠ style.writeTag := fun same => other ⟨style, Or.inr same⟩
  simp only [register, Registry.register, Registry.registerRaw, Registry.registerModule,
    KeyMap.get?_insert]
  exact (if_neg (write .typed)).trans <| (if_neg (read .typed)).trans <|
    (if_neg (write .named)).trans <| if_neg (read .named)

/-- What answers a tag of the module fails briefly. -/
theorem exists_brief {tag : String} (answers : Answers tag) {limit : Nat} (le : 256 ≤ limit)
    (few : request.size < 2 ^ 64) (r : Registry Hub) :
    tag.utf8ByteSize ≤ 12 ∧ ∃ endpoint, (register r).endpoints.get? tag = some endpoint ∧
      endpoint.handler.Brief request (Message.withLimit tag limit) := by
  obtain ⟨style, rfl | rfl⟩ := answers
  · have tag_le : style.readTag.utf8ByteSize ≤ 12 := by cases style <;> decide
    refine ⟨tag_le, _, style.get?_readTag r, ?_⟩
    cases style with
    | typed => exact brief_handleRead tag_le
    | named => exact brief_readNamed tag_le le
  · have tag_le : style.writeTag.utf8ByteSize ≤ 12 := by cases style <;> decide
    refine ⟨tag_le, _, style.get?_writeTag r, ?_⟩
    cases style with
    | typed => exact brief_handleWrite few
    | named => exact brief_writeNamed tag_le le few

/-- **No request stops the module.** If replies have room for 256 bytes or more, whatever a
request says and however large it is, as long as the address of a machine can count its bytes: a
request to the module gets a reply, and any other is refused as an unknown method and leaves the
store as it was. -/
theorem dispatch_survives {limit : Nat} (le : 256 ≤ limit) (stackAt : Hub → Option String)
    {request : Message} (few : request.size < 2 ^ 64) (hub : Hub) :
    (Answers request.method ∧ ∃ reply hub',
      (register (Registry.withReplyLimit limit stackAt)).dispatch request hub
        = (.ok (.ok reply), hub')) ∨
    ¬ Answers request.method ∧
      (register (Registry.withReplyLimit limit stackAt)).dispatch request hub
        = (.ok (.error (.unknownMethod request.method)), hub) := by
  by_cases answers : Answers request.method
  · left
    obtain ⟨tag_le, endpoint, registered, brief⟩ :=
      exists_brief answers le few (Registry.withReplyLimit limit stackAt)
    obtain ⟨final, hub', invoked⟩ := brief.invoke tag_le le stackAt hub
    have answered := Registry.dispatch_eq_ok_iff.mpr
      (Or.inr ⟨endpoint, final, registered, invoked, rfl⟩)
    exact ⟨answers, final, hub', answered⟩
  · right
    have absent := get?_eq_none answers limit stackAt
    exact ⟨answers, Registry.dispatch_eq_ok_iff.mpr (Or.inl ⟨absent, rfl, rfl⟩)⟩

/-- A request with named keys to write where there are no words, and replies of 256 bytes. -/
theorem dispatch_survives_outside :
    ∃ request, (Message.empty "memory.write").setAll [("address", .word 4294967295),
        ("data", .words [7, 8])] = .ok request ∧
      ∃ reply hub, (register (Registry.withReplyLimit 256 fun _ => none)).dispatch request
        ⟨[1, 2, 3]⟩ = (.ok (.ok reply), hub) := by
  obtain ⟨request, set⟩ : ∃ request, (Message.empty "memory.write").setAll
      [("address", .word 4294967295), ("data", .words [7, 8])] = .ok request := ⟨_, rfl⟩
  have few : request.size < 2 ^ 64 := by
    cases set
    decide
  have answers : Answers request.method := by
    cases set
    exact ⟨.named, Or.inr (by decide)⟩
  rcases dispatch_survives (Nat.le_refl 256) (fun _ => none) few ⟨[1, 2, 3]⟩ with
    ⟨-, replied⟩ | ⟨other, -⟩
  · exact ⟨request, set, replied⟩
  · exact absurd answers other

end Memory

end KeyedRpc
