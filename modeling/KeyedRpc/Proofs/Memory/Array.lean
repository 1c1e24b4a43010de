/-
# The store as an array

What the memory module does is told by an array of a fixed number of words. An access that
stays within the array reads its words or replaces them, and any other fails and changes
nothing; words that have no room in a reply are a failure as well. The handlers of the module
come to just that on the store that holds the words of the array.
-/
import KeyedRpc.Proofs.Memory.Endpoints
import KeyedRpc.Proofs.Text.Lengths
import KeyedRpc.Proofs.Transport.Calls

namespace KeyedRpc.Memory

open Numeral (decimal hexadecimal utf8ByteSize_append_le)

/-! ## Arrays -/

/-- An array of a fixed number of words. -/
abbrev Words (n : Nat) : Type :=
  Fin n → UInt32

namespace Words

variable {n : Nat}

/-- The words in a row from an address on. -/
def slice (w : Words n) (address count : Nat) (inside : address + count ≤ n) : List UInt32 :=
  List.ofFn fun i : Fin count =>
    w ⟨address + i, Nat.lt_of_lt_of_le (Nat.add_lt_add_left i.isLt address) inside⟩

/-- The array with words in a row replaced from an address on. -/
def splice (w : Words n) (address : Nat) (data : List UInt32) : Words n := fun i =>
  if h : address ≤ i.val ∧ i.val - address < data.length then data.get ⟨i.val - address, h.2⟩
  else w i

/-- The store that holds the words of an array. -/
def hub (w : Words n) : Hub :=
  ⟨List.ofFn w⟩

@[simp] theorem length_slice (w : Words n) {address count : Nat} (inside : address + count ≤ n) :
    (w.slice address count inside).length = count :=
  List.length_ofFn

@[simp] theorem size_hub (w : Words n) : w.hub.size = n :=
  List.length_ofFn

/-- Reading in the store is reading in the array. -/
theorem read_hub (w : Words n) (address : UInt32) (count : Nat) :
    w.hub.read address count = if inside : address.toNat + count ≤ n then
      .ok (w.slice address.toNat count inside)
    else .error (.outOfRange address count n) := by
  unfold Hub.read Hub.check
  rw [size_hub]
  by_cases inside : address.toNat + count ≤ n
  · rw [if_pos inside, dif_pos inside]
    refine congrArg Except.ok (List.ext_getElem ?_ fun i lt lt' => ?_)
    · rw [length_slice, List.length_take, List.length_drop]
      have size : w.hub.words.length = n := w.size_hub
      omega
    · rw [List.getElem_take, List.getElem_drop]
      simp [hub, slice]
  · rw [if_neg inside, dif_neg inside]
    rfl

/-- A store in which words were replaced holds the array with these words replaced. -/
theorem hub_splice_of_wrote {w : Words n} {after : Hub} {address : UInt32} {data : List UInt32}
    (h : w.hub.Wrote after address data) : after = (w.splice address.toNat data).hub := by
  obtain ⟨inside, -, replaced, kept⟩ := h
  rw [size_hub] at inside
  have words : after.words = List.ofFn (w.splice address.toNat data) := by
    apply List.ext_getElem?
    intro i
    rw [List.getElem?_ofFn]
    by_cases within : address.toNat ≤ i ∧ i - address.toNat < data.length
    · have new := replaced (i - address.toNat) within.2
      rw [Nat.add_sub_cancel' within.1] at new
      rw [new, dif_pos (by omega), splice, dif_pos within, List.getElem?_eq_getElem within.2]
      rfl
    · have old := kept i (by omega)
      have held : w.hub.words[i]? = (List.ofFn w)[i]? := rfl
      rw [old, held, List.getElem?_ofFn]
      split
      · rw [splice, dif_neg within]
      · rfl
  cases after
  exact congrArg Hub.mk words

/-- Writing in the store is replacing words of the array. -/
theorem write_hub (w : Words n) (address : UInt32) (data : List UInt32) :
    w.hub.write address data = if address.toNat + data.length ≤ n then
      .ok (w.splice address.toNat data).hub
    else .error (.outOfRange address data.length n) := by
  by_cases inside : address.toNat + data.length ≤ n
  · obtain ⟨after, written⟩ : ∃ after, w.hub.write address data = .ok after := by
      unfold Hub.write Hub.check
      rw [size_hub, if_pos inside]
      exact ⟨_, rfl⟩
    rw [if_pos inside, written, hub_splice_of_wrote (Hub.wrote_of_write written)]
  · unfold Hub.write Hub.check
    rw [size_hub, if_neg inside, if_neg inside]
    rfl

end Words

/-! ## What accesses come to -/

/-- What is asked of the words. -/
inductive Access where
  | read (address count : UInt32)
  | write (address : UInt32) (data : List UInt32)
  deriving DecidableEq, Repr

/-- What an access comes to. -/
inductive Outcome where
  /-- The words that were read. -/
  | words (data : List UInt32)
  /-- The words are replaced. -/
  | written
  /-- The responder reports a failure. -/
  | failed (text : String)
  /-- The request did not reach the responder. -/
  | unsent (e : MessageError)
  deriving DecidableEq, Repr

namespace Style

/-- The number of bytes of a reply with words, apart from four for each of them. -/
def overhead : Style → Nat
  | typed => 31
  | named => 34

/-- The text of a failure to read. -/
def readFailure : Style → MemoryError → String
  | typed, e => "read memsvc error: " ++ e.text
  | named, e => e.text

/-- The text of a failure to write. -/
def writeFailure : Style → MemoryError → String
  | typed, e => "write memsvc error: " ++ e.text
  | named, e => "memsvc error: " ++ e.text

end Style

namespace Access

variable {n : Nat}

/-- What an access comes to on an array, if replies have a limit. -/
def onArray (style : Style) (limit : Nat) : Access → StateM (Words n) Outcome
  | read address count => fun w =>
    if inside : address.toNat + count.toNat ≤ n then
      if style.overhead + 4 * count.toNat ≤ limit then
        (.words (w.slice address.toNat count.toNat inside), w)
      else
        (.failed (MessageError.bufferTooSmall (style.overhead + 4 * count.toNat) limit).text, w)
    else (.failed (style.readFailure (.outOfRange address count.toNat n)), w)
  | write address data => fun w =>
    if address.toNat + data.length ≤ n then (.written, w.splice address.toNat data)
    else (.failed (style.writeFailure (.outOfRange address data.length n)), w)

/-- The number of words that a request has to carry. -/
def weight : Access → Nat
  | read _ _ => 0
  | write _ data => data.length

/-! ## Lengths of texts -/

/-- The text of a failure to access as many words as an address of a machine can count. -/
theorem utf8ByteSize_outOfRange_le {address : UInt32} {count size : Nat} (few : count < 2 ^ 64)
    (outside : size < address.toNat + count) :
    (MemoryError.outOfRange address count size).text.utf8ByteSize ≤ 128 := by
  have place := address.toNat_lt
  have counted : (decimal count).utf8ByteSize ≤ 20 :=
    Numeral.utf8ByteSize_decimal_le (by decide) (by omega)
  have digits : (Nat.toDigits 16 address.toNat).length ≤ 8 :=
    (Nat.length_toDigits_le_iff (by decide) (by decide)).mpr place
  have placed : (hexadecimal 1 address.toNat).utf8ByteSize ≤ 40 :=
    Numeral.utf8ByteSize_hexadecimal_le (by decide) digits
  -- An access that goes past the end does so by less than its own reach.
  have sized : (decimal size).utf8ByteSize ≤ 20 :=
    Numeral.utf8ByteSize_decimal_le (by decide) (by omega)
  have access := utf8ByteSize_append_le (Nat.le_refl "access of ".utf8ByteSize) counted
  have place := utf8ByteSize_append_le
    (utf8ByteSize_append_le access (Nat.le_refl " words at ".utf8ByteSize)) placed
  have outside := utf8ByteSize_append_le
    (utf8ByteSize_append_le place (Nat.le_refl " is outside memory of ".utf8ByteSize)) sized
  have whole := utf8ByteSize_append_le outside (Nat.le_refl " words".utf8ByteSize)
  exact Nat.le_trans whole (by decide)

/-- A lack of room is told in a short text, if its numbers have no more than twelve digits. -/
theorem utf8ByteSize_bufferTooSmall_le {needed limit : Nat} (few : needed < 10 ^ 12)
    (few' : limit < 10 ^ 12) :
    (MessageError.bufferTooSmall needed limit).text.utf8ByteSize ≤ 80 := by
  have first : (decimal needed).utf8ByteSize ≤ 12 :=
    Numeral.utf8ByteSize_decimal_le (by decide) few
  have second : (decimal limit).utf8ByteSize ≤ 12 :=
    Numeral.utf8ByteSize_decimal_le (by decide) few'
  have start := utf8ByteSize_append_le (Nat.le_refl "RPC buffer too small: ".utf8ByteSize) first
  have whole := utf8ByteSize_append_le
    (utf8ByteSize_append_le start (Nat.le_refl " bytes needed, limit is ".utf8ByteSize)) second
  exact Nat.le_trans whole (by decide)

/-- The text of a failure to read says little more than its cause. -/
theorem utf8ByteSize_readFailure_le (style : Style) {e : MemoryError} {k : Nat}
    (le : e.text.utf8ByteSize ≤ k) : (style.readFailure e).utf8ByteSize ≤ 20 + k := by
  cases style with
  | typed =>
    have parts := utf8ByteSize_append_le (Nat.le_refl "read memsvc error: ".utf8ByteSize) le
    exact Nat.le_trans parts (Nat.add_le_add_right (by decide) k)
  | named => exact Nat.le_trans le (Nat.le_add_left k 20)

/-- The text of a failure to write says little more than its cause. -/
theorem utf8ByteSize_writeFailure_le (style : Style) {e : MemoryError} {k : Nat}
    (le : e.text.utf8ByteSize ≤ k) : (style.writeFailure e).utf8ByteSize ≤ 20 + k := by
  cases style with
  | typed =>
    exact utf8ByteSize_append_le (Nat.le_refl "write memsvc error: ".utf8ByteSize) le
  | named =>
    have parts := utf8ByteSize_append_le (Nat.le_refl "memsvc error: ".utf8ByteSize) le
    exact Nat.le_trans parts (Nat.add_le_add_right (by decide) k)

/-- The text of every failure is short. -/
theorem utf8ByteSize_le_of_failed {style : Style} {limit : Nat} {access : Access} {w w' : Words n}
    {text : String} (few : access.weight < 2 ^ 64)
    (h : access.onArray style limit w = (.failed text, w')) : text.utf8ByteSize ≤ 148 := by
  cases access with
  | read address count =>
    have few := count.toNat_lt
    unfold onArray at h
    dsimp only at h
    split at h
    · split at h
      · cases h
      · cases h
        have overhead : style.overhead ≤ 34 := by cases style <;> decide
        exact Nat.le_trans (utf8ByteSize_bufferTooSmall_le (by omega) (by omega)) (by decide)
    · cases h
      exact utf8ByteSize_readFailure_le style (utf8ByteSize_outOfRange_le (by omega) (by omega))
  | write address data =>
    have few : data.length < 2 ^ 64 := few
    unfold onArray at h
    dsimp only at h
    split at h
    · cases h
    · cases h
      exact utf8ByteSize_writeFailure_le style (utf8ByteSize_outOfRange_le few (by omega))

/-- A short text has room in a reply of 256 bytes. -/
theorem reportSize_le {tag text : String} (short : tag.utf8ByteSize ≤ 12)
    (text_le : text.utf8ByteSize ≤ 148) : Message.reportSize tag text ≤ 256 := by
  have size : Message.reportSize tag text = tag.utf8ByteSize + text.utf8ByteSize + 24 := by
    rw [Message.reportSize, Message.length_spelling]
    show 5 + _ + 4 + (5 + 5 + (5 + _) + 0) = _
    omega
  omega

/-- Every failure has room in a reply of 256 bytes. -/
theorem room_of_failed {style : Style} {limit : Nat} {access : Access} {w w' : Words n}
    {text tag : String} (few : access.weight < 2 ^ 64) (le : 256 ≤ limit)
    (short : tag.utf8ByteSize ≤ 12) (h : access.onArray style limit w = (.failed text, w')) :
    Message.reportSize tag text ≤ limit :=
  Nat.le_trans (reportSize_le short (utf8ByteSize_le_of_failed few h)) le

end Access

/-! ## Methods on the store -/

namespace Access

/-- The method that gives an access. -/
def method : Access → Method
  | read _ _ => readMethod
  | write _ _ => writeMethod

/-- The arguments for an access. -/
def args : (access : Access) → Args access.method.args
  | read address count => (address, count, ())
  | write address data => (address, data, ())

/-- What answers calls of the method. -/
def handle : (access : Access) → MethodHandler Hub access.method
  | read _ _ => handleRead
  | write _ _ => handleWrite

/-- What a call comes to. -/
def outcome : (access : Access) → Except String access.method.output.Carrier → Outcome
  | read _ _, .ok data => .words data
  | write _ _, .ok () => .written
  | read _ _, .error text | write _ _, .error text => .failed text

/-- The number of bytes of the request of a call. -/
def requestSize : Access → Nat
  | read _ _ => 42
  | write _ data => 43 + 4 * data.length

/-- The request of a call is as long as its arguments say. -/
theorem requestSize_method (access : Access) :
    access.method.requestSize access.args = access.requestSize := by
  refine (Message.length_spelling _ _).trans ?_
  cases access with
  | read address count => rfl
  | write address data =>
    show 21 + (6 + 5 + (6 + (5 + 4 * data.length) + 0)) = 43 + 4 * data.length
    omega

/-- Words that were read are the result of the call if they have room in a reply. -/
theorem outcome_readMethod (limit : Nat) (data : List UInt32) :
    readMethod.outcome limit (.ok data) = if Style.typed.overhead + 4 * data.length ≤ limit then
      .ok data
    else
      .error (MessageError.bufferTooSmall (Style.typed.overhead + 4 * data.length) limit).text := by
  have size : readMethod.replySize data = Style.typed.overhead + 4 * data.length := by
    refine (Message.length_spelling _ _).trans ?_
    show 20 + (6 + (5 + 4 * data.length) + 0) = 31 + 4 * data.length
    omega
  have some : readMethod.outputEntries data ≠ [] := List.cons_ne_nil _ _
  rw [← size]
  by_cases room : readMethod.replySize data ≤ limit
  · rw [if_pos room]
    exact if_pos (Or.inr room)
  · rw [if_neg room]
    exact if_neg (not_or.mpr ⟨some, room⟩)

variable {n : Nat}

/-- **A call comes to what its access does in the array.** -/
theorem onArray_typed (access : Access) (limit : Nat) (w : Words n) :
    ∃ w', access.onArray .typed limit w
        = (access.outcome (access.method.outcome limit (access.handle access.args w.hub).1), w') ∧
      (access.handle access.args w.hub).2 = w'.hub := by
  cases access with
  | read address count =>
    show ∃ w', (read address count).onArray .typed limit w
        = ((read address count).outcome
            (readMethod.outcome limit (handleRead (address, count, ()) w.hub).1), w') ∧
      (handleRead (address, count, ()) w.hub).2 = w'.hub
    rw [handleRead_apply, Words.read_hub]
    unfold onArray
    dsimp only
    by_cases inside : address.toNat + count.toNat ≤ n
    · rw [dif_pos inside, dif_pos inside]
      have result := outcome_readMethod limit (w.slice address.toNat count.toNat inside)
      rw [Words.length_slice] at result
      refine ⟨w, ?_, rfl⟩
      show _ = ((read address count).outcome
        (readMethod.outcome limit (.ok (w.slice address.toNat count.toNat inside))), w)
      rw [result]
      split
      · rfl
      · rfl
    · rw [dif_neg inside, dif_neg inside]
      exact ⟨w, rfl, rfl⟩
  | write address data =>
    show ∃ w', (write address data).onArray .typed limit w
        = ((write address data).outcome
            (writeMethod.outcome limit (handleWrite (address, data, ()) w.hub).1), w') ∧
      (handleWrite (address, data, ()) w.hub).2 = w'.hub
    rw [handleWrite_apply, Words.write_hub]
    unfold onArray
    dsimp only
    split
    · -- A result of the unit type always has room.
      exact ⟨_, rfl, rfl⟩
    · exact ⟨_, rfl, rfl⟩

end Access

/-! ## Requests with named keys on the store -/

/-- A reply to a request with named keys says what the access came to. A report may have the
frames of a call stack with it. -/
inductive Outcome.InReply : Outcome → Message → Prop where
  | words {data : List UInt32} {reply : Message}
      (holds : reply.entries.entries = [(dataKey, .words data)]) : InReply (.words data) reply
  | written {reply : Message} (holds : reply.entries.entries = []) : InReply .written reply
  | failed {text : String} {reply : Message} (stack : Option (List String))
      (holds : reply.entries.entries
        = (stack.map fun frames => (backtraceKey, Value.strings frames)).toList
          ++ [(errorKey, .string text)]) :
      InReply (.failed text) reply

/-- A reply arrives with what it says. -/
theorem Outcome.InReply.received {outcome : Outcome} {reply : Message}
    (h : outcome.InReply reply) : outcome.InReply reply.received := by
  rcases h with held | held | ⟨stack, held⟩
  · exact .words held
  · exact .written held
  · exact .failed stack held

namespace Access

variable {n : Nat}

/-- The tag of requests with named keys. -/
def namedTag : Access → String
  | read _ _ => Style.named.readTag
  | write _ _ => Style.named.writeTag

/-- The entries that a request with named keys must have. -/
def namedEntries : Access → List (String × Value)
  | read address count => [(addressKey, .word address), (countKey, .word count)]
  | write address data => [(addressKey, .word address), (dataKey, .words data)]

/-- What answers requests with named keys. -/
def namedHandler : Access → Handler Hub
  | read _ _ => readNamed
  | write _ _ => writeNamed

/-- An attempt to answer a request with named keys that comes to an outcome: it fills in a reply
that says so, or gives up with the text of the failure and leaves the reply as it was. -/
inductive Attempts (outcome : Outcome) (reply : Message) :
    Except String Message → Message → Prop where
  | filled {filled : Message} (le : filled.size ≤ maxLength) (tells : outcome.InReply filled) :
      Attempts outcome reply (.ok filled) filled
  | gaveUp {text : String} (failed : outcome = .failed text) :
      Attempts outcome reply (.error text) reply

section

variable {request : Message} {limit : Nat} (limit_le : limit ≤ maxLength)
include limit_le

/-- A failure that a handler reports itself is filled in. -/
theorem attempts_of_told {handle : Handler Hub} {tag text : String}
    (room : Message.reportSize tag text ≤ limit) {hub : Hub}
    (run : handle request (Message.withLimit tag limit, hub)
      = Filling.set errorKey (.string text) (Message.withLimit tag limit, hub)) :
    ∃ attempt left, handle.Attempt request (Message.withLimit tag limit) hub attempt left hub ∧
      Attempts (.failed text) (Message.withLimit tag limit) attempt left := by
  rw [Message.reportSize, Message.length_spelling] at room
  obtain ⟨filled, set, within, held⟩ := Filling.set_of_room room hub
  have tells : (Outcome.failed text).InReply filled := .failed none held
  exact ⟨_, _, .filled (run.trans set), .filled (Nat.le_trans within limit_le) tells⟩

variable (le : 256 ≤ limit)
include le

/-- A request with named keys to read comes to what the access does in the array. -/
theorem attempts_readNamed {address count : UInt32}
    (holds : request.Holds (read address count).namedEntries) (w : Words n) :
    ∃ attempt left, readNamed.Attempt request (Message.withLimit Style.named.readTag limit) w.hub
        attempt left ((read address count).onArray .named limit w).2.hub ∧
      Attempts ((read address count).onArray .named limit w).1
        (Message.withLimit Style.named.readTag limit) attempt left := by
  obtain ⟨placed, counted⟩ : request.get? addressKey = some (.word address) ∧
      request.get? countKey = some (.word count) := Message.holds_pair_iff.mp holds
  have run := readNamed_apply request (Message.withLimit Style.named.readTag limit) w.hub
  -- Both entries are there, so only the range and the room in the reply are left to look at.
  rw [Message.get_of_get? counted] at run
  dsimp only at run
  rw [Message.get_of_get? placed] at run
  dsimp only at run
  rw [Words.read_hub] at run
  by_cases inside : address.toNat + count.toNat ≤ n
  · rw [dif_pos inside] at run
    have array : (read address count).onArray .named limit w = _ := dif_pos inside
    have size : headerSize Style.named.readTag
        + entrySize dataKey (.words (w.slice address.toNat count.toNat inside))
          = Style.named.overhead + 4 * count.toNat := by
      show 20 + (9 + (5 + 4 * (w.slice address.toNat count.toNat inside).length)) = 34 + _
      rw [Words.length_slice]
      omega
    by_cases room : Style.named.overhead + 4 * count.toNat ≤ limit
    · obtain ⟨filled, set, within, held⟩ := Filling.set_of_room (size ▸ room) w.hub
      rw [array, if_pos room]
      exact ⟨_, _, .filled (run.trans set), .filled (Nat.le_trans within limit_le) (.words held)⟩
    · have set := Filling.set_of_full (size ▸ Nat.lt_of_not_le room) w.hub
      rw [size] at set
      rw [array, if_neg room]
      exact ⟨_, _, .faulted (run.trans set), .gaveUp rfl⟩
  · rw [dif_neg inside] at run
    have array : (read address count).onArray .named limit w = _ := dif_neg inside
    have few : (read address count).weight < 2 ^ 64 := Nat.two_pow_pos 64
    have room : Message.reportSize Style.named.readTag _ ≤ limit :=
      room_of_failed few le (by decide) array
    rw [array]
    exact attempts_of_told limit_le room run

/-- A request with named keys to write comes to what the access does in the array. -/
theorem attempts_writeNamed {address : UInt32} {data : List UInt32}
    (holds : request.Holds (write address data).namedEntries)
    (few : (write address data).weight ≤ maxLength) (w : Words n) :
    ∃ attempt left, writeNamed.Attempt request (Message.withLimit Style.named.writeTag limit) w.hub
        attempt left ((write address data).onArray .named limit w).2.hub ∧
      Attempts ((write address data).onArray .named limit w).1
        (Message.withLimit Style.named.writeTag limit) attempt left := by
  obtain ⟨placed, held⟩ : request.get? addressKey = some (.word address) ∧
      request.get? dataKey = some (.words data) := Message.holds_pair_iff.mp holds
  have run := writeNamed_apply request (Message.withLimit Style.named.writeTag limit) w.hub
  rw [Message.get_of_get? held] at run
  dsimp only at run
  rw [Message.get_of_get? placed] at run
  dsimp only at run
  rw [Words.write_hub] at run
  by_cases inside : address.toNat + data.length ≤ n
  · rw [if_pos inside] at run
    have array : (write address data).onArray .named limit w = _ := if_pos inside
    have small : headerSize Style.named.writeTag ≤ maxLength := by decide
    rw [array]
    exact ⟨_, _, .filled run, .filled small (.written rfl)⟩
  · rw [if_neg inside] at run
    have array : (write address data).onArray .named limit w = _ := if_neg inside
    have room : Message.reportSize Style.named.writeTag _ ≤ limit :=
      room_of_failed (Nat.lt_of_le_of_lt few (by decide)) le (by decide) array
    rw [array]
    exact attempts_of_told limit_le room run

/-- **A request with named keys comes to what its access does in the array.** -/
theorem invoke_namedHandler {access : Access} (holds : request.Holds access.namedEntries)
    (few : access.weight ≤ maxLength) (stackAt : Hub → Option String) (w : Words n) :
    ∃ reply, access.namedHandler.invoke stackAt request (Message.withLimit access.namedTag limit)
        w.hub = (.ok reply, (access.onArray .named limit w).2.hub) ∧
      reply.size ≤ maxLength ∧ (access.onArray .named limit w).1.InReply reply := by
  have attempted : ∃ attempt left, access.namedHandler.Attempt request
      (Message.withLimit access.namedTag limit) w.hub attempt left
        (access.onArray .named limit w).2.hub ∧
      Attempts (access.onArray .named limit w).1 (Message.withLimit access.namedTag limit) attempt
        left := by
    cases access with
    | read address count => exact attempts_readNamed limit_le le holds w
    | write address data => exact attempts_writeNamed limit_le le holds few w
  obtain ⟨attempt, left, tried, attempts⟩ := attempted
  obtain ⟨settled, invoked, settles⟩ := tried.settles stackAt
  rcases attempts with ⟨filled_le, tells⟩ | failed
  · cases settles
    exact ⟨_, invoked, filled_le, tells⟩
  · have short : access.namedTag.utf8ByteSize ≤ 12 := by
      cases access with
      | read address count =>
        show Style.named.readTag.utf8ByteSize ≤ 12
        decide
      | write address data =>
        show Style.named.writeTag.utf8ByteSize ≤ 12
        decide
    have room := room_of_failed (Nat.lt_of_le_of_lt few (by decide)) le short (Prod.ext failed rfl)
    rcases settles with _ | ⟨_, reports⟩ | full
    · have within := reports.within
      rw [reports.limit] at within
      rw [failed]
      refine ⟨_, invoked, Nat.le_trans within limit_le, ?_⟩
      rcases reports.holds with alone | ⟨frames, -, -, both⟩
      · exact .failed none alone
      · exact .failed (some frames) both
    · exact absurd room (Nat.not_le_of_lt full)

end

end Access

end KeyedRpc.Memory
