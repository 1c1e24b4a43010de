/-
# What bytes are refused with

Decoding fails by what stands in the bytes and by nothing else: they end too early, a byte of
theirs stands where another tag is due, a text is no UTF-8, a key comes twice, or bytes are
left over (`Message.decode_fails_malformed`). The limit of the message that is put together
never refuses an entry. At every point of the reading, the message so far has as many bytes
as were taken (`Message.Comes.exists_taken`), and its limit is no smaller than all bytes are.
-/
import KeyedRpc.Proofs.Message.Decoding

namespace KeyedRpc

/-! ## Malformed bytes -/

/-- What bytes may be refused with. -/
inductive Malformed (bytes : List UInt8) : MessageError → Prop where
  | unexpectedEnd : Malformed bytes .unexpectedEnd
  /-- The byte that is refused as a tag is one of theirs. -/
  | invalidTag {b : UInt8} (mem : b ∈ bytes) : Malformed bytes (.invalidTag b)
  | invalidUtf8 : Malformed bytes .invalidUtf8
  /-- They are corrupt, since a key comes twice. -/
  | duplicateKey (key : String) : Malformed bytes (.duplicateKey key)
  /-- They are corrupt, since some are left over. -/
  | trailingBytes (count : Nat) : Malformed bytes (.trailingBytes count)

/-- What is wrong with an end of bytes is wrong with all of them. -/
theorem Malformed.of_suffix {rest bytes : List UInt8} {e : MessageError} (h : Malformed rest e)
    (suffix : rest <:+ bytes) : Malformed bytes e := by
  cases h with
  | unexpectedEnd => exact .unexpectedEnd
  | invalidTag mem => exact .invalidTag (suffix.subset mem)
  | invalidUtf8 => exact .invalidUtf8
  | duplicateKey key => exact .duplicateKey key
  | trailingBytes count => exact .trailingBytes count

/-! ## Readers that fail by their input -/

namespace Reader

variable {α β : Type}

/-- What is read exactly is read off the front. -/
theorem Exact.suffix {read : Reader α} {write : α → List UInt8} {fits : α → Prop}
    (exact_read : Exact read write fits) {input rest : List UInt8} {a : α}
    (h : read input = .ok (a, rest)) : rest <:+ input := by
  obtain ⟨-, rfl⟩ := (exact_read _ _ _).mp h
  exact List.suffix_append _ _

/-- A reader fails by what it is given, and otherwise leaves an end of that. -/
structure Sound (read : Reader α) : Prop where
  malformed : ∀ input e, read input = .error e → Malformed input e
  suffix : ∀ input a rest, read input = .ok (a, rest) → rest <:+ input

namespace Sound

variable {read : Reader α}

/-- A reader that takes nothing does not fail. -/
theorem pure (a : α) : Sound fun input => .ok (a, input) where
  malformed := by
    intro input e h
    simp at h
  suffix := by
    intro input b rest h
    simp only [Except.ok.injEq, Prod.mk.injEq] at h
    simp [h.2]

/-- A reader that always fails is sound if any bytes may be refused like that. -/
theorem fail {e : MessageError} (malformed : ∀ input, Malformed input e) :
    Sound (fun _ => .error e : Reader α) where
  malformed := by
    intro input e' h
    cases h
    exact malformed input
  suffix := by
    intro input a rest h
    simp at h

/-- One reader after another fails by what the first was given. -/
theorem bind {next : α × List UInt8 → Except MessageError (β × List UInt8)} (first : Sound read)
    (others : ∀ a, Sound fun rest => next (a, rest)) :
    Sound fun input => read input >>= next where
  malformed := by
    intro input e h
    cases run : read input with
    | error e' =>
      rw [run] at h
      cases h
      exact first.malformed input e run
    | ok x =>
      rw [run] at h
      exact ((others x.1).malformed x.2 e h).of_suffix (first.suffix input x.1 x.2 run)
  suffix := by
    intro input b rest h
    obtain ⟨x, run, done⟩ := bind_eq_ok_iff.mp h
    exact ((others x.1).suffix x.2 b rest done).trans (first.suffix input x.1 x.2 run)

/-- A repeated step fails by what it is given, if each step does. -/
theorem iterate {step : α → Reader α} (sound_step : ∀ a, Sound (step a)) (n : Nat) (a : α) :
    Sound (Reader.iterate step n a) := by
  induction n generalizing a with
  | zero => exact pure a
  | succ n ih =>
    have unrolled : Reader.iterate step (n + 1) a
        = fun input => step a input >>= fun x => Reader.iterate step n x.1 x.2 :=
      funext (iterate_succ step n a)
    rw [unrolled]
    exact bind (sound_step a) fun a' => ih a'

/-- Items in a row fail by what they are given, if each item does. -/
theorem items (sound_read : Sound read) (n : Nat) : Sound (Reader.items read n) := by
  apply bind
  · exact iterate (fun done => bind sound_read fun a => pure (a :: done)) n []
  · exact fun reversed => pure reversed.reverse

end Sound

/-! ## Numbers, tags and strings -/

/-- Numbers fail by their input only: there are fewer than four bytes. -/
theorem sound_number : Sound number where
  malformed := by
    intro input e h
    -- Four bytes make a number, so the input is shorter.
    rcases input with _ | ⟨a, _ | ⟨b, _ | ⟨c, _ | ⟨d, rest⟩⟩⟩⟩
    · cases h
      exact .unexpectedEnd
    · cases h
      exact .unexpectedEnd
    · cases h
      exact .unexpectedEnd
    · cases h
      exact .unexpectedEnd
    · cases h
  suffix := fun _ _ _ => exact_number.suffix

/-- A given number of bytes is refused only if fewer are left. -/
theorem sound_take (n : Nat) : Sound (take n) where
  malformed := by
    intro input e h
    unfold take at h
    by_cases enough : holds n input = true
    · rw [if_pos enough] at h
      cases h
    · rw [if_neg enough] at h
      cases h
      exact .unexpectedEnd
  suffix := by
    intro input bytes rest h
    obtain ⟨-, rfl⟩ := take_eq_ok_iff.mp h
    exact List.suffix_append _ _

/-- Counts fail by their input only: fewer bytes are left than they promise. -/
theorem sound_count (least : Nat) : Sound (count least) := by
  apply Sound.bind sound_number
  intro n
  constructor
  · intro rest e h
    dsimp only at h
    by_cases enough : holds (n * least) rest = true
    · rw [if_pos enough] at h
      cases h
    · rw [if_neg enough] at h
      cases h
      exact .unexpectedEnd
  · intro rest m rest' h
    dsimp only at h
    by_cases enough : holds (n * least) rest = true
    · rw [if_pos enough] at h
      cases h
      exact List.suffix_refl _
    · rw [if_neg enough] at h
      cases h

/-- A byte that is no tag is refused where it stands. -/
theorem sound_tag : Sound tag where
  malformed := by
    intro input e h
    cases input with
    | nil =>
      cases h
      exact .unexpectedEnd
    | cons b rest =>
      cases known : Kind.ofTag? b with
      | some kind =>
        simp only [tag, byte, bind, Except.bind, known] at h
        cases h
      | none =>
        simp only [tag, byte, bind, Except.bind, known] at h
        cases h
        exact .invalidTag List.mem_cons_self
  suffix := fun _ _ _ => exact_tag.suffix

/-- Texts fail by their input only: they are not UTF-8, if there are enough bytes. -/
theorem sound_text : Sound text := by
  apply Sound.bind sound_number
  intro n
  apply Sound.bind (sound_take n)
  intro bytes
  dsimp only
  cases Utf8.decode? bytes with
  | some s => exact .pure s
  | none => exact .fail fun _ => .invalidUtf8

/-- A tag that is known and not that of a string is refused after it was taken, so it is not in
what is left by then. -/
theorem sound_blob : Sound blob where
  malformed := by
    intro input e h
    unfold blob at h
    cases run : tag input with
    | error e' =>
      rw [run] at h
      cases h
      exact sound_tag.malformed input e run
    | ok x =>
      obtain ⟨kind, rest⟩ := x
      obtain ⟨-, rfl⟩ := (exact_tag _ _ _).mp run
      rw [run] at h
      cases kind with
      | string => exact (sound_text.malformed rest e h).of_suffix (List.suffix_append _ _)
      | word => cases h; exact .invalidTag List.mem_cons_self
      | words => cases h; exact .invalidTag List.mem_cons_self
      | strings => cases h; exact .invalidTag List.mem_cons_self
  suffix := fun _ _ _ => exact_blob.suffix

/-! ## Values and entries -/

/-- Words fail as numbers do. -/
theorem sound_word : Sound word :=
  sound_number.bind fun n => .pure (UInt32.ofNat n)

/-- Contents of each kind fail by their input only. -/
theorem sound_contents (kind : Kind) : Sound (contents kind) := by
  cases kind with
  | word => exact sound_word
  | string => exact sound_text
  | words => exact (sound_count 4).bind fun n => sound_word.items n
  | strings => exact (sound_count (1 + 4)).bind fun n => sound_blob.items n

/-- Values fail by their input only. -/
theorem sound_value : Sound value :=
  sound_tag.bind fun kind => (sound_contents kind).bind fun x => .pure (Value.of kind x)

/-- Keys with values fail by their input only. -/
theorem sound_pair : Sound pair :=
  sound_blob.bind fun key => sound_value.bind fun v => .pure (key, v)

end Reader

/-! ## Points of a reading -/

namespace Message

/-- Decoding bytes comes to a point where `due` entries are still due: the message has those
that stand before them, and some bytes are left. -/
inductive Comes (bytes : List UInt8) : Nat → Message → List UInt8 → Prop where
  /-- The method and the number of entries are read. -/
  | header {method : String} {due : Nat} {others rest : List UInt8}
      (method_read : Reader.blob bytes = .ok (method, others))
      (count_read : Reader.count (1 + 4 + 1 + 4) others = .ok (due, rest)) :
      Comes bytes due (withLimit method (max defaultLimit bytes.length)) rest
  /-- An entry is read. -/
  | entry {due : Nat} {m n : Message} {rest more : List UInt8}
      (before : Comes bytes (due + 1) m rest) (entry_read : Reader.entry m rest = .ok (n, more)) :
      Comes bytes due n more

namespace Comes

variable {bytes rest more : List UInt8} {due : Nat} {m n : Message}

/-- The message so far has as many bytes as were taken. -/
theorem exists_taken (h : Comes bytes due m rest) :
    ∃ taken, bytes = taken ++ rest ∧ m.size = taken.length := by
  induction h with
  | @header method due others rest method_read count_read =>
    obtain ⟨-, rfl⟩ := (Reader.exact_blob _ _ _).mp method_read
    obtain ⟨-, -, rfl⟩ := Reader.count_eq_ok_iff.mp count_read
    refine ⟨Value.blob method ++ littleEndian due, by simp, ?_⟩
    show headerSize method = _
    simp [headerSize]
  | entry _ entry_read ih =>
    obtain ⟨taken, rfl, size⟩ := ih
    obtain ⟨e, -, rfl, absent, set⟩ := Reader.entry_eq_ok_iff.mp entry_read
    refine ⟨taken ++ entryBytes e, by simp, ?_⟩
    rw [size_set set, needed_of_absent absent, size, List.length_append, length_entryBytes]

/-- The message so far has the limit that it began with. -/
theorem limit_eq (h : Comes bytes due m rest) : m.limit = max defaultLimit bytes.length := by
  induction h with
  | header => rfl
  | entry _ entry_read ih =>
    obtain ⟨e, -, -, -, set⟩ := Reader.entry_eq_ok_iff.mp entry_read
    obtain ⟨-, -, -, limit⟩ := set_eq_ok_iff.mp set
    rw [limit, ih]

/-- What is left is an end of the bytes. -/
theorem suffix (h : Comes bytes due m rest) : rest <:+ bytes := by
  obtain ⟨taken, rfl, -⟩ := h.exists_taken
  exact List.suffix_append _ _

/-- There is room for the entry that comes next, which is a part of the bytes. -/
theorem has_room {key : String} {value : Value} (h : Comes bytes due m rest)
    (next : Reader.pair rest = .ok ((key, value), more)) (absent : m.contains key = false) :
    m.needed key value ≤ m.limit := by
  obtain ⟨taken, rfl, size⟩ := h.exists_taken
  obtain ⟨-, rfl⟩ := (Reader.exact_pair _ _ _).mp next
  have limit := h.limit_eq
  have needed := needed_of_absent absent value
  have length : (entryBytes (key, value)).length = entrySize key value := length_entryBytes _
  simp only [List.length_append] at limit
  omega

/-- An entry that is not taken is malformed. -/
theorem malformed_of_entry {e : MessageError} (h : Comes bytes due m rest)
    (failed : Reader.entry m rest = .error e) : Malformed rest e := by
  rw [Reader.entry_eq_bind] at failed
  cases next : Reader.pair rest with
  | error e' =>
    rw [next] at failed
    cases failed
    exact Reader.sound_pair.malformed rest e next
  | ok x =>
    obtain ⟨⟨key, value⟩, more⟩ := x
    rw [next] at failed
    cases held : m.contains key with
    | true =>
      simp only [bind, Except.bind, held, if_true] at failed
      cases failed
      exact .duplicateKey key
    | false =>
      obtain ⟨n, set⟩ := exists_set (h.has_room next held)
      simp [bind, Except.bind, held, set] at failed

/-- From a point on, decoding reads the entries that are due and looks for an end. -/
theorem decode_eq (h : Comes bytes due m rest) :
    decode bytes = Reader.iterate Reader.entry due m rest >>= fun x =>
      match x.2 with
      | [] => .ok x.1
      | _ => .error (.trailingBytes x.2.length) := by
  induction h with
  | header method_read count_read =>
    rw [decode, Reader.message, method_read]
    simp only [bind, Except.bind, count_read]
    rfl
  | entry _ entry_read ih =>
    rw [ih, Reader.iterate_succ, entry_read]
    rfl

/-- Entries that are read lead from one point to a later one. -/
theorem of_iterate (h : Comes bytes due m rest)
    (run : Reader.iterate Reader.entry due m rest = .ok (n, more)) : Comes bytes 0 n more := by
  induction due generalizing m rest with
  | zero =>
    cases run
    exact h
  | succ due ih =>
    obtain ⟨between, left, first, others⟩ := Reader.iterate_succ_eq_ok_iff.mp run
    exact ih (.entry h first) others

/-- Entries that are not all read are malformed at some point. -/
theorem malformed_of_iterate {e : MessageError} (h : Comes bytes due m rest)
    (failed : Reader.iterate Reader.entry due m rest = .error e) : Malformed bytes e := by
  induction due generalizing m rest with
  | zero => cases failed
  | succ due ih =>
    rw [Reader.iterate_succ] at failed
    cases first : Reader.entry m rest with
    | error e' =>
      rw [first] at failed
      cases failed
      exact (h.malformed_of_entry first).of_suffix h.suffix
    | ok x =>
      rw [first] at failed
      exact ih (.entry h first) failed

end Comes

/-! ## Decoding -/

/-- Bytes are refused for their header, or decoding comes to its entries. -/
theorem comes_cases (bytes : List UInt8) :
    (∃ e, decode bytes = .error e ∧ Malformed bytes e) ∨ ∃ due m rest, Comes bytes due m rest := by
  cases method_read : Reader.blob bytes with
  | error e =>
    refine Or.inl ⟨e, ?_, Reader.sound_blob.malformed bytes e method_read⟩
    rw [decode, Reader.message, method_read]
    rfl
  | ok x =>
    obtain ⟨method, others⟩ := x
    cases count_read : Reader.count (1 + 4 + 1 + 4) others with
    | error e =>
      have suffix := Reader.exact_blob.suffix method_read
      have malformed := (Reader.sound_count _).malformed others e count_read
      refine Or.inl ⟨e, ?_, malformed.of_suffix suffix⟩
      rw [decode, Reader.message, method_read]
      simp only [bind, Except.bind, count_read]
    | ok y => exact Or.inr ⟨y.1, _, y.2, .header method_read count_read⟩

/-- Bytes are decoded if and only if decoding comes to a point where nothing is due or left. -/
theorem decode_eq_ok_iff_comes {bytes : List UInt8} {m : Message} :
    decode bytes = .ok m ↔ Comes bytes 0 m [] := by
  constructor
  · intro h
    rcases comes_cases bytes with ⟨e, refused, -⟩ | ⟨due, start, rest, comes⟩
    · rw [refused] at h
      cases h
    · rw [comes.decode_eq, bind_eq_ok_iff] at h
      obtain ⟨⟨n, left⟩, run, ends⟩ := h
      cases left with
      | nil =>
        cases ends
        exact comes.of_iterate run
      | cons b left => cases ends
  · intro comes
    rw [comes.decode_eq]
    rfl

/-- Bytes that are not decoded are malformed. -/
theorem malformed_of_decode {bytes : List UInt8} {e : MessageError}
    (h : decode bytes = .error e) : Malformed bytes e := by
  rcases comes_cases bytes with ⟨e', refused, malformed⟩ | ⟨due, start, rest, comes⟩
  · rw [refused] at h
    cases h
    exact malformed
  · rw [comes.decode_eq] at h
    cases run : Reader.iterate Reader.entry due start rest with
    | error e' =>
      rw [run] at h
      cases h
      exact comes.malformed_of_iterate run
    | ok x =>
      obtain ⟨n, left⟩ := x
      rw [run] at h
      cases left with
      | nil => cases h
      | cons b left =>
        cases h
        exact .trailingBytes _

/-- **Decoding fails by what stands in the bytes, and by nothing else.** It comes to its end by
points at which the message so far has as many bytes as were taken, and at each of these there
is room for the entry that comes next. -/
theorem decode_fails_malformed (bytes : List UInt8) :
    ((∃ m, decode bytes = .ok m) ∨ ∃ e, decode bytes = .error e ∧ Malformed bytes e) ∧
      (∀ m, decode bytes = .ok m ↔ Comes bytes 0 m []) ∧
      ∀ due m rest, Comes bytes due m rest →
        (∃ taken, bytes = taken ++ rest ∧ m.size = taken.length) ∧
          ∀ key value more, Reader.pair rest = .ok ((key, value), more) →
            m.contains key = false → ∃ n, m.set key value = .ok n := by
  refine ⟨?_, fun m => decode_eq_ok_iff_comes, fun due m rest comes => ?_⟩
  · cases h : decode bytes with
    | ok m => exact Or.inl ⟨m, rfl⟩
    | error e => exact Or.inr ⟨e, rfl, malformed_of_decode h⟩
  · exact ⟨comes.exists_taken, fun key value more next absent =>
      exists_set (comes.has_room next absent)⟩

end Message

end KeyedRpc
