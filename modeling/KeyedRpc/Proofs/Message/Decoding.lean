/-
# Decoding against spellings

Decoding accepts the spellings of methods with entries and nothing else
(`decode_accepts_spellings`). The checks that it makes on its way, of counts against the
bytes that are left and of the size of what it builds, refuse no spelling.
-/
import KeyedRpc.Proofs.Message.Spelling

namespace KeyedRpc

open Utf8 (Precedes)

namespace Reader

variable {α : Type}

/-- What is read exactly can be written in front of other bytes in one way only. -/
theorem Exact.write_append_inj {read : Reader α} {write : α → List UInt8} {fits : α → Prop}
    (exact_read : Exact read write fits) {a b : α} {r s : List UInt8} (ha : fits a) (hb : fits b)
    (h : write a ++ r = write b ++ s) : a = b ∧ r = s := by
  have first := (exact_read (write a ++ r) a r).mpr ⟨ha, rfl⟩
  have second := (exact_read (write a ++ r) b s).mpr ⟨hb, h⟩
  rw [first] at second
  cases second
  exact ⟨rfl, rfl⟩

/-! ## Entries -/

/-- Reads a key and a value. -/
def pair : Reader (String × Value) := fun input => do
  let (key, rest) ← blob input
  let (v, rest) ← value rest
  return ((key, v), rest)

/-- Keys with values are read exactly. -/
theorem exact_pair : Exact pair Message.entryBytes Message.EntryFits := by
  intro input entry rest
  unfold pair
  simp only [bind_eq_ok_iff, Prod.exists, exact_blob _ _ _, exact_value _ _ _]
  constructor
  · rintro ⟨key, _, ⟨le, rfl⟩, v, tail, ⟨fits, rfl⟩, h⟩
    cases h
    exact ⟨⟨le, fits⟩, (List.append_assoc _ _ _).symm⟩
  · rintro ⟨⟨le, fits⟩, rfl⟩
    exact ⟨entry.1, _, ⟨le, List.append_assoc _ _ _⟩, entry.2, rest, ⟨fits, rfl⟩, rfl⟩

/-- The message is looked at only after both the key and the value are read. -/
theorem entry_eq_bind (m : Message) (input : List UInt8) :
    entry m input = pair input >>= fun x =>
      if m.contains x.1.1 then .error (.duplicateKey x.1.1)
      else m.set x.1.1 x.1.2 >>= fun n => .ok (n, x.2) := by
  unfold entry pair
  cases blob input with
  | error e => rfl
  | ok x =>
    cases h : value x.2 with
    | error e => simp only [bind, Except.bind, h]
    | ok y =>
      simp only [bind, Except.bind, h, pure, Except.pure]
      split <;> rfl

/-- An entry is taken if and only if it stands in front, its key is new, and there is room. -/
theorem entry_eq_ok_iff {m n : Message} {input rest : List UInt8} :
    entry m input = .ok (n, rest) ↔ ∃ e, Message.EntryFits e ∧
      input = Message.entryBytes e ++ rest ∧ m.contains e.1 = false ∧ m.set e.1 e.2 = .ok n := by
  rw [entry_eq_bind]
  simp only [bind_eq_ok_iff, Prod.exists, exact_pair _ _ _]
  constructor
  · rintro ⟨key, v, tail, ⟨fits, rfl⟩, h⟩
    by_cases held : m.contains key = true
    · rw [if_pos held] at h
      cases h
    · rw [if_neg held, bind_eq_ok_iff] at h
      obtain ⟨n', set, done⟩ := h
      cases done
      exact ⟨key, v, fits, rfl, Bool.not_eq_true _ ▸ held, set⟩
  · rintro ⟨key, v, fits, rfl, absent, set⟩
    refine ⟨key, v, rest, ⟨fits, rfl⟩, ?_⟩
    rw [if_neg (by rw [absent]; exact Bool.false_ne_true), set]
    rfl

/-- Entries are read one after another if their keys are new, and put in in that order. -/
theorem iterate_entry_eq_ok_iff {n : Nat} {m m' : Message} {input rest : List UInt8} :
    iterate entry n m input = .ok (m', rest) ↔
      ∃ l, l.length = n ∧ (∀ e ∈ l, Message.EntryFits e) ∧ m.Fresh l ∧
        input = l.flatMap Message.entryBytes ++ rest ∧ m.setAll l = .ok m' := by
  -- The message is general: keys are new to the entries that were read before as well.
  induction n generalizing m input with
  | zero =>
    constructor
    · intro h
      cases h
      exact ⟨[], rfl, by simp, ⟨List.nodup_nil, by simp⟩, rfl, rfl⟩
    · rintro ⟨l, none, -, -, rfl, set⟩
      rw [List.length_eq_zero_iff] at none
      subst none
      cases set
      rfl
  | succ n ih =>
    rw [iterate_succ_eq_ok_iff]
    simp only [ih, entry_eq_ok_iff]
    constructor
    · rintro ⟨a, _, ⟨e, fits, rfl, absent, set⟩, l, rfl, all, fresh, rfl, setAll⟩
      refine ⟨e :: l, rfl, List.forall_mem_cons.mpr ⟨fits, all⟩, ?_, ?_, ?_⟩
      · exact (Message.fresh_cons_iff set).mpr ⟨absent, fresh⟩
      · rw [List.flatMap_cons, List.append_assoc]
      · rw [Message.setAll_cons, bind_eq_ok_iff]
        exact ⟨a, set, setAll⟩
    · rintro ⟨l, count, all, fresh, rfl, setAll⟩
      cases l with
      | nil => cases count
      | cons e l =>
        obtain ⟨fits, all⟩ := List.forall_mem_cons.mp all
        rw [Message.setAll_cons, bind_eq_ok_iff] at setAll
        obtain ⟨a, set, setAll⟩ := setAll
        obtain ⟨absent, fresh⟩ := (Message.fresh_cons_iff set).mp fresh
        refine ⟨a, l.flatMap Message.entryBytes ++ rest, ⟨e, fits, ?_, absent, set⟩,
          l, Nat.succ.inj count, all, fresh, rfl, setAll⟩
        rw [List.flatMap_cons, List.append_assoc]

end Reader

/-! ## Messages -/

namespace Message

/-- Every entry takes up ten bytes or more. -/
theorem mul_le_length_entries (l : List (String × Value)) :
    l.length * (1 + 4 + 1 + 4) ≤ (l.flatMap entryBytes).length := by
  apply Reader.mul_le_length_flatMap
  intro e
  have value := e.2.five_le_size
  rw [length_entryBytes, entrySize, Value.blobSize]
  omega

/-- What a reader of messages makes of a list of entries with different keys. -/
theorem message_eq_ok_iff {limit : Nat} {input rest : List UInt8} {m : Message} :
    Reader.message limit input = .ok (m, rest) ↔
      ∃ method l bytes, Spelt bytes method l ∧ input = bytes ++ rest ∧
        (withLimit method limit).setAll l = .ok m := by
  unfold Reader.message
  simp only [bind_eq_ok_iff, Prod.exists, Reader.exact_blob _ _ _, Reader.count_eq_ok_iff,
    Reader.iterate_entry_eq_ok_iff, fresh_withLimit]
  constructor
  · rintro ⟨method, _, ⟨le, rfl⟩, n, _, ⟨count, -, rfl⟩, l, rfl, all, nodup, rfl, set⟩
    refine ⟨method, l, spelling method l, ⟨rfl, nodup, le, count, all⟩, ?_, set⟩
    rw [spelling, List.append_assoc, List.append_assoc]
  · rintro ⟨method, l, _, spelt, rfl, set⟩
    rw [spelt.eq_spelling, spelling, List.append_assoc, List.append_assoc]
    -- No entry takes up less than the check of the count supposes.
    have enough : l.length * (1 + 4 + 1 + 4) ≤ (l.flatMap entryBytes ++ rest).length := by
      rw [List.length_append]
      exact Nat.le_add_right_of_le (mul_le_length_entries l)
    exact ⟨method, _, ⟨spelt.method_le, rfl⟩, l.length, l.flatMap entryBytes ++ rest,
      ⟨spelt.count_le, enough, rfl⟩, l, rfl, spelt.entries_fit, spelt.distinct, rfl, set⟩

/-- Bytes are decoded if and only if a list that they spell can be put into a message. -/
theorem decode_eq_ok_iff_setAll {bytes : List UInt8} {m : Message} :
    decode bytes = .ok m ↔ ∃ method l, Spelt bytes method l ∧
      (withLimit method (max defaultLimit bytes.length)).setAll l = .ok m := by
  have whole : decode bytes = .ok m
      ↔ Reader.message (max defaultLimit bytes.length) bytes = .ok (m, []) := by
    unfold decode
    rw [bind_eq_ok_iff]
    constructor
    · rintro ⟨⟨m', rest⟩, read, h⟩
      -- Bytes that are left over are refused.
      cases rest with
      | nil =>
        cases h
        exact read
      | cons b rest => cases h
    · intro read
      exact ⟨(m, []), read, rfl⟩
  rw [whole, message_eq_ok_iff]
  constructor
  · rintro ⟨method, l, spelt, written, eq, set⟩
    rw [List.append_nil] at eq
    exact ⟨method, l, eq ▸ written, set⟩
  · rintro ⟨method, l, spelt, set⟩
    exact ⟨method, l, bytes, spelt, (List.append_nil _).symm, set⟩

/-- What is read is spelled by its bytes. -/
theorem spelt_of_decode {bytes : List UInt8} {m : Message} (h : decode bytes = .ok m) :
    ∃ l, Spelt bytes m.method l ∧ m.entries.entries.Perm l ∧
      m.limit = max defaultLimit bytes.length := by
  obtain ⟨method, l, spelt, set⟩ := decode_eq_ok_iff_setAll.mp h
  have fresh := (fresh_withLimit method (max defaultLimit bytes.length) l).mpr spelt.distinct
  obtain ⟨rfl, limit, perm⟩ := setAll_fresh fresh set
  exact ⟨l, spelt, (List.append_nil l) ▸ perm, limit⟩

/-- What bytes spell can be put together within any limit that the bytes keep to: every
entry is part of them. -/
theorem setAll_of_spelt {bytes : List UInt8} {method : String} {l : List (String × Value)}
    {limit : Nat} (spelt : Spelt bytes method l) (le : bytes.length ≤ limit) :
    ∃ m, (withLimit method limit).setAll l = .ok m := by
  apply exists_setAll ((fresh_withLimit method limit l).mpr spelt.distinct)
  show headerSize method + _ ≤ limit
  rw [← length_spelling, ← spelt.eq_spelling]
  exact le

/-- What bytes spell is read from them, since they set the limit themselves. -/
theorem decode_of_spelt {bytes : List UInt8} {method : String} {l : List (String × Value)}
    (spelt : Spelt bytes method l) :
    ∃ m, decode bytes = .ok m ∧ m.method = method ∧ m.entries.entries.Perm l := by
  obtain ⟨m, set⟩ := setAll_of_spelt spelt (Nat.le_max_right defaultLimit bytes.length)
  have fresh := (fresh_withLimit method (max defaultLimit bytes.length) l).mpr spelt.distinct
  obtain ⟨method, -, perm⟩ := setAll_fresh fresh set
  exact ⟨m, decode_eq_ok_iff_setAll.mpr ⟨_, l, spelt, set⟩, method, (List.append_nil l) ▸ perm⟩

/-! ## Spellings with the same bytes -/

/-- The entries of a list are told by its spelling. -/
theorem spelt_inj {bytes : List UInt8} {method : String} {l k : List (String × Value)}
    (hl : Spelt bytes method l) (hk : Spelt bytes method k) : l = k := by
  have eq := hl.eq_spelling.symm.trans hk.eq_spelling
  rw [spelling, spelling, List.append_assoc, List.append_assoc, List.append_cancel_left_eq] at eq
  obtain ⟨length, rest⟩ :=
    Reader.exact_number.write_append_inj hl.count_le hk.count_le eq
  -- One reader finds both lists in the bytes that they share.
  have readL : Reader.items Reader.pair l.length (l.flatMap entryBytes) = .ok (l, []) := by
    rw [Reader.items_eq_ok_iff Reader.exact_pair, List.append_nil]
    exact ⟨rfl, hl.entries_fit, rfl⟩
  have readK : Reader.items Reader.pair l.length (k.flatMap entryBytes) = .ok (k, []) := by
    rw [Reader.items_eq_ok_iff Reader.exact_pair, List.append_nil]
    exact ⟨length.symm, hk.entries_fit, rfl⟩
  rw [rest, readK] at readL
  cases readL
  rfl

/-- What is read is as long as its bytes, and written again it is a spelling in key order. -/
theorem encode_of_decode {bytes : List UInt8} {m : Message} (h : decode bytes = .ok m) :
    m.size = bytes.length ∧ m.encode = .ok (spelling m.method m.entries.entries) := by
  obtain ⟨l, spelt, perm, -⟩ := spelt_of_decode h
  constructor
  · rw [m.size_eq, spelt.eq_spelling, length_spelling, KeyMap.total, sumOf_perm perm]
  · rw [encode_eq_ok_iff, lengths_le_iff]
    refine ⟨⟨spelt.method_le, ?_⟩, rfl⟩
    intro entry mem
    exact spelt.entries_fit entry (perm.mem_iff.mp mem)

/-- Written again, a message has the bytes that it was read from if and only if these list
its keys in ascending order. -/
theorem encode_eq_iff_ascending {bytes : List UInt8} {m : Message} {l : List (String × Value)}
    (h : decode bytes = .ok m) (spelt : Spelt bytes m.method l)
    (perm : m.entries.entries.Perm l) :
    m.encode = .ok bytes ↔ l.Pairwise fun a b => Precedes a.1 b.1 := by
  obtain ⟨-, written⟩ := encode_of_decode h
  have inOrder : m.encode = .ok bytes ↔ l = m.entries.entries := by
    rw [written, Except.ok.injEq]
    constructor
    · intro same
      -- The bytes spell the list and the entries in key order, so these are the same.
      apply spelt_inj spelt
      refine ⟨same.symm, m.entries.nodup_keys, spelt.method_le, ?_, ?_⟩
      · exact perm.length_eq ▸ spelt.count_le
      · exact fun entry mem => spelt.entries_fit entry (perm.mem_iff.mp mem)
    · intro same
      rw [← same, spelt.eq_spelling]
  rw [inOrder]
  constructor
  · rintro rfl
    exact m.entries.ascending
  · intro ascending
    exact congrArg KeyMap.entries (KeyMap.eq_of_perm (m := ⟨l, ascending⟩) perm.symm)

/-- **Decoding accepts the spellings of methods with entries, and nothing else.** It finds
the method and the entries that are listed, in whatever order. Written again, the entries
stand in ascending order of their keys, and the bytes are the same if they stood so before. -/
theorem decode_accepts_spellings (bytes : List UInt8) :
    ((∃ m, decode bytes = .ok m) ↔ ∃ method l, Spelt bytes method l) ∧
      ∀ method l, Spelt bytes method l →
        ∃ m, decode bytes = .ok m ∧ m.method = method ∧ m.entries.entries.Perm l ∧
          m.size = bytes.length ∧
          (m.entries.entries.Pairwise fun a b => Precedes a.1 b.1) ∧
          m.encode = .ok (spelling method m.entries.entries) ∧
          (m.encode = .ok bytes ↔ l.Pairwise fun a b => Precedes a.1 b.1) := by
  constructor
  · constructor
    · rintro ⟨m, read⟩
      obtain ⟨l, spelt, -, -⟩ := spelt_of_decode read
      exact ⟨m.method, l, spelt⟩
    · rintro ⟨method, l, spelt⟩
      obtain ⟨m, read, -, -⟩ := decode_of_spelt spelt
      exact ⟨m, read⟩
  · intro method l spelt
    obtain ⟨m, read, rfl, perm⟩ := decode_of_spelt spelt
    obtain ⟨size, written⟩ := encode_of_decode read
    exact ⟨m, read, rfl, perm, size, m.entries.ascending, written,
      encode_eq_iff_ascending read spelt perm⟩

/-- Bytes that list the key `b` before the key `a` are accepted, and do not come back. -/
theorem decode_accepts_descending_keys :
    Spelt [0x10, 0, 0, 0, 0, 2, 0, 0, 0, 0x10, 1, 0, 0, 0, 98, 0x05, 7, 0, 0, 0,
        0x10, 1, 0, 0, 0, 97, 0x10, 0, 0, 0, 0] "" [("b", .word 7), ("a", .string "")] ∧
      ∃ m, decode [0x10, 0, 0, 0, 0, 2, 0, 0, 0, 0x10, 1, 0, 0, 0, 98, 0x05, 7, 0, 0, 0,
          0x10, 1, 0, 0, 0, 97, 0x10, 0, 0, 0, 0] = .ok m ∧ m.method = "" ∧
        m.entries.entries.Perm [("b", .word 7), ("a", .string "")] ∧ m.size = 31 ∧
        m.encode = .ok (spelling "" m.entries.entries) ∧
        m.encode ≠ .ok [0x10, 0, 0, 0, 0, 2, 0, 0, 0, 0x10, 1, 0, 0, 0, 98, 0x05, 7, 0, 0, 0,
          0x10, 1, 0, 0, 0, 97, 0x10, 0, 0, 0, 0] := by
  have spelt : Spelt [0x10, 0, 0, 0, 0, 2, 0, 0, 0, 0x10, 1, 0, 0, 0, 98, 0x05, 7, 0, 0, 0,
      0x10, 1, 0, 0, 0, 97, 0x10, 0, 0, 0, 0] "" [("b", .word 7), ("a", .string "")] :=
    ⟨by decide, by decide, by decide, by decide, by decide⟩
  obtain ⟨m, read, method, perm, size, -, written, ascending⟩ :=
    (decode_accepts_spellings _).2 _ _ spelt
  have descending : ¬ [("b", Value.word 7), ("a", .string "")].Pairwise
      fun a b => Precedes a.1 b.1 := by decide
  exact ⟨spelt, m, read, method, perm, size, written, fun same => descending (ascending.mp same)⟩

end Message

end KeyedRpc
