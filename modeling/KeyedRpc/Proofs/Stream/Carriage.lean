/-
# What frames carry

A request that fits is read off its frame as it was put in (`Request.ofFrame_of_fits`), and
an error that says where a request could not go is restored from its refusal
(`Refusal.outcome_of_fits`).
-/
import KeyedRpc.Proofs.Message.RoundTrip
import KeyedRpc.Proofs.Stream.Synchrony

namespace KeyedRpc

/-- A message of the default limit has a place in a frame. -/
theorem defaultLimit_le_maxLength : defaultLimit ≤ maxLength := by
  decide

/-- Whether a message can be made that has room is decided by making it. -/
instance Message.decidableMade (max : Nat) (made : Except MessageError Message) :
    Decidable (∃ m, made = .ok m ∧ m.size ≤ max) :=
  match made with
  | .ok m => decidable_of_iff (m.size ≤ max)
      ⟨fun le => ⟨m, rfl, le⟩, fun ⟨_, same, le⟩ => Except.ok.inj same ▸ le⟩
  | .error _ => isFalse fun ⟨_, same, _⟩ => nomatch same

/-! ## Requests -/

namespace Request

/-- A request fits a receiver that accepts `max` bytes if its message can be made, and both
the receiver and the header of a frame have room for it. -/
def Fits (max : Nat) : Request → Prop
  | call m => m.size ≤ max ∧ m.size ≤ maxLength
  | load module version =>
    ∃ m, (Message.empty module).set versionKey (.string version) = .ok m ∧ m.size ≤ max

instance (max : Nat) (request : Request) : Decidable (request.Fits max) :=
  match request with
  | call m => inferInstanceAs (Decidable (m.size ≤ max ∧ m.size ≤ maxLength))
  | load module version => Message.decidableMade max
      ((Message.empty module).set versionKey (.string version))

/-- A request as it is received. -/
def received : Request → Request
  | call m => call m.received
  | load module version => load module version

/-- The module and the version of a load are read back. -/
theorem readLoad_bytes {module version : String} {m : Message}
    (set : (Message.empty module).set versionKey (.string version) = .ok m)
    (le : m.size ≤ maxLength) : readLoad m.bytes = .ok (load module version) := by
  have held : m.get .string versionKey = .ok version := by
    apply Message.get_of_get?
    rw [Message.get?_set set, if_pos rfl]
    rfl
  have named : m.method = module := (Message.set_eq_ok_iff.mp set).2.1
  rw [readLoad, Message.decode_bytes le]
  show (m.received.get .string versionKey >>= _) = _
  rw [show m.received.get .string versionKey = .ok version from held]
  exact congrArg (fun method => Except.ok (load method version)) named

/-- **A request that fits has a frame**, and is read off it again. -/
theorem ofFrame_of_fits {request : Request} {max : Nat} (fits : request.Fits max) :
    ∃ f, request.frame = .ok f ∧ f.body.length ≤ max ∧ f.body.length ≤ maxLength ∧
      ofFrame f = .ok request.received := by
  cases request with
  | call m =>
    obtain ⟨within, le⟩ := fits
    refine ⟨⟨.call, m.bytes⟩, ?_, Message.length_bytes_le within, Message.length_bytes_le le, ?_⟩
    · rw [frame, Message.encode_of_size_le le]
      rfl
    · rw [ofFrame]
      dsimp only
      rw [Message.decode_bytes le]
      rfl
  | load module version =>
    obtain ⟨m, set, within⟩ := fits
    -- The message of a load has the default limit, which is small enough.
    have le : m.size ≤ maxLength := by
      have limit : m.limit = defaultLimit := (Message.set_eq_ok_iff.mp set).2.2.2
      have le := Message.size_le_limit_of_set set
      have small := defaultLimit_le_maxLength
      omega
    refine ⟨⟨.load, m.bytes⟩, ?_, Message.length_bytes_le within, Message.length_bytes_le le, ?_⟩
    · rw [frame, loadBody, set]
      show (m.encode).map _ = _
      rw [Message.encode_of_size_le le]
      rfl
    · rw [ofFrame]
      dsimp only
      rw [readLoad_bytes set le]
      rfl

end Request

/-! ## Refusals -/

namespace Refusal

/-- Whether an error says where a request could not go. -/
def Routes : TransportError → Prop
  | .unknownModule _ | .versionMismatch _ _ _ | .moduleNotLoaded _ | .unknownMethod _ => True
  | _ => False

/-- An error that says where a request could not go is restored from its details. -/
theorem restore_describe {e : TransportError} (h : Routes e) :
    restore (describe e).1 (describe e).2 = e := by
  cases e with
  | unknownModule module => rfl
  | versionMismatch module expected found => rfl
  | moduleNotLoaded module => rfl
  | unknownMethod tag => rfl
  | _ => cases h

/-- A refusal fits a receiver that accepts `max` bytes if its message can be made, and the
receiver has room for it. -/
def Fits (max : Nat) (e : TransportError) : Prop :=
  ∃ m, message e = .ok m ∧ m.size ≤ max

instance (max : Nat) (e : TransportError) : Decidable (Fits max e) :=
  Message.decidableMade max (message e)

/-- The kind goes into a refusal before the details. -/
theorem sets_of_message {e : TransportError} {m : Message} (h : message e = .ok m) :
    ∃ n, (Message.empty "").set kindKey (.string (describe e).1) = .ok n ∧
      n.set detailKey (.strings (describe e).2) = .ok m := by
  unfold message at h
  dsimp only at h
  rw [Message.setAll_cons, bind_eq_ok_iff] at h
  obtain ⟨n, setKind, h⟩ := h
  rw [Message.setAll_cons, bind_eq_ok_iff] at h
  obtain ⟨n', setDetail, h⟩ := h
  cases h
  exact ⟨n, setKind, setDetail⟩

/-- The message of an error holds its kind and its details, within the default limit. -/
theorem spec_message {e : TransportError} {m : Message} (h : message e = .ok m) :
    m.size ≤ defaultLimit ∧ m.get .string kindKey = .ok (describe e).1 ∧
      m.get .strings detailKey = .ok (describe e).2 := by
  obtain ⟨n, setKind, setDetail⟩ := sets_of_message h
  refine ⟨?_, ?_, ?_⟩
  · have limit : n.limit = defaultLimit := (Message.set_eq_ok_iff.mp setKind).2.2.2
    rw [← limit, ← (Message.set_eq_ok_iff.mp setDetail).2.2.2]
    exact Message.size_le_limit_of_set setDetail
  · apply Message.get_of_get?
    have other : kindKey ≠ detailKey := by decide
    rw [Message.get?_set setDetail, if_neg other, Message.get?_set setKind, if_pos rfl]
    rfl
  · apply Message.get_of_get?
    rw [Message.get?_set setDetail, if_pos rfl]
    rfl

/-- The message of an error has a place in a frame. -/
theorem size_le_of_message {e : TransportError} {m : Message} (h : message e = .ok m) :
    m.size ≤ maxLength :=
  Nat.le_trans (spec_message h).1 defaultLimit_le_maxLength

/-- The kind and the details of an error are read back. -/
theorem read_bytes {e : TransportError} {m : Message} (h : message e = .ok m) :
    read m.bytes = .ok (restore (describe e).1 (describe e).2) := by
  obtain ⟨-, kind, detail⟩ := spec_message h
  rw [read, Message.decode_bytes (size_le_of_message h)]
  show (m.get .string kindKey >>= fun kind => m.get .strings detailKey >>= _) = _
  rw [kind, detail]
  rfl

/-- **A refusal that fits has a frame**, which says the error again if that says where a
request could not go. -/
theorem outcome_of_fits {e : TransportError} {max : Nat} (fits : Fits max e) (routes : Routes e) :
    ∃ f, frame e = .ok f ∧ f.body.length ≤ max ∧ f.body.length ≤ maxLength ∧ f.kind = .refused ∧
      f.outcome = .error e := by
  obtain ⟨m, made, within⟩ := fits
  have le := size_le_of_message made
  refine ⟨⟨.refused, m.bytes⟩, ?_, Message.length_bytes_le within, Message.length_bytes_le le,
    rfl, ?_⟩
  · have encoded : (Except.ok m >>= Message.encode) = .ok m.bytes := Message.encode_of_size_le le
    rw [frame, made, encoded]
  · rw [Frame.outcome]
    dsimp only
    rw [read_bytes made, restore_describe routes]

end Refusal

end KeyedRpc
