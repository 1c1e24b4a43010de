/-
# Messages tell where they end

The bytes of a message say themselves where they end. Cut off anywhere before that, they are
read as bytes that end too early, and never as a shorter message; with bytes behind them, they
are refused with the number of these (`Message.decode_delimited`). A reader runs out on bytes
if every cut is found out in this way, and what is put together from readers that run out does
so as well. The checks of counts against the bytes that are left only find a cut out sooner.
-/
import KeyedRpc.Proofs.Message.Decoding

namespace KeyedRpc

/-! ## Cuts -/

/-- Bytes that are cut off before their end. -/
def IsCut (cut bytes : List UInt8) : Prop :=
  cut <+: bytes ∧ cut ≠ bytes

namespace IsCut

variable {cut bytes first second : List UInt8}

/-- A cut leaves fewer bytes. -/
theorem length_lt (h : IsCut cut bytes) : cut.length < bytes.length := by
  obtain ⟨start, ne⟩ := h
  have le := start.length_le
  have other : cut.length ≠ bytes.length := fun same => ne (start.eq_of_length same)
  omega

/-- A cut falls into the first of two parts, or into the second. -/
theorem append_cases (h : IsCut cut (first ++ second)) :
    IsCut cut first ∨ ∃ more, cut = first ++ more ∧ IsCut more second := by
  obtain ⟨start, ne⟩ := h
  have second_cut : ∀ more, cut = first ++ more → IsCut more second := by
    rintro more rfl
    refine ⟨(List.prefix_append_right_inj first).mp start, ?_⟩
    rintro rfl
    exact ne rfl
  rcases List.prefix_or_prefix_of_prefix start (List.prefix_append first second) with
    within | ⟨more, eq⟩
  · by_cases all : cut = first
    · exact Or.inr ⟨[], by rw [all, List.append_nil], second_cut [] (by rw [all, List.append_nil])⟩
    · exact Or.inl ⟨within, all⟩
  · exact Or.inr ⟨more, eq.symm, second_cut more eq.symm⟩

end IsCut

/-! ## Readers that run out -/

namespace Reader

variable {α β : Type}

/-- What is read of some bytes runs out if it comes to an early end wherever these are cut. -/
def RunsOut (read : List UInt8 → Except MessageError α) (bytes : List UInt8) : Prop :=
  ∀ cut, IsCut cut bytes → read cut = .error .unexpectedEnd

namespace RunsOut

variable {read : Reader α} {first second : List UInt8}

/-- There is no place to cut where there are no bytes. -/
theorem nil (read : Reader α) : RunsOut read [] := by
  intro cut h
  exact absurd h.length_lt (Nat.not_lt_zero _)

/-- What comes after a reader does not keep it from running out. -/
theorem bind_left (starts : RunsOut read first) (next : α × List UInt8 → Except MessageError β) :
    RunsOut (fun input => read input >>= next) first := by
  intro cut h
  dsimp only
  rw [starts cut h]
  rfl

/-- What comes after a reader runs out on a second part, if the reader goes past the first or
finds a cut in the second out by itself. -/
theorem bind_of_cases {next : α × List UInt8 → Except MessageError β} {a : α}
    (starts : RunsOut read first)
    (goes : ∀ more, IsCut more second →
      read (first ++ more) = .error .unexpectedEnd ∨ read (first ++ more) = .ok (a, more))
    (others : RunsOut (fun rest => next (a, rest)) second) :
    RunsOut (fun input => read input >>= next) (first ++ second) := by
  intro cut h
  rcases h.append_cases with early | ⟨more, rfl, late⟩
  · exact bind_left starts next cut early
  · dsimp only
    rcases goes more late with found | past
    · rw [found]
      rfl
    · rw [past]
      exact others more late

/-- A reader that is exact goes past what was written. -/
theorem bind {write : α → List UInt8} {fits : α → Prop} (exact_read : Exact read write fits)
    {next : α × List UInt8 → Except MessageError β} {a : α} (fit : fits a)
    (starts : RunsOut read (write a)) (others : RunsOut (fun rest => next (a, rest)) second) :
    RunsOut (fun input => read input >>= next) (write a ++ second) := by
  apply starts.bind_of_cases _ others
  intro more _
  exact Or.inr ((exact_read _ _ _).mpr ⟨fit, rfl⟩)

end RunsOut

/-! ## Numbers, strings and words -/

/-- A number runs out. -/
theorem runsOut_number (n : Nat) : RunsOut number (littleEndian n) := by
  intro cut h
  have short : cut.length < 4 := h.length_lt
  match cut, short with
  | [], _ => rfl
  | [_], _ => rfl
  | [_, _], _ => rfl
  | [_, _, _], _ => rfl

/-- A count is read, or the check finds that fewer bytes are left than it promises. -/
theorem count_cases {n : Nat} (le : n ≤ maxLength) (least : Nat) (rest : List UInt8) :
    count least (littleEndian n ++ rest) = .error .unexpectedEnd ∨
      count least (littleEndian n ++ rest) = .ok (n, rest) := by
  have read : number (littleEndian n ++ rest) = .ok (n, rest) :=
    (exact_number _ _ _).mpr ⟨le, rfl⟩
  unfold count
  rw [read]
  by_cases enough : holds (n * least) rest = true
  · exact Or.inr (if_pos enough)
  · exact Or.inl (if_neg enough)

/-- A given number of bytes runs out. -/
theorem runsOut_take (bytes : List UInt8) : RunsOut (take bytes.length) bytes := by
  intro cut h
  have lacks : ¬ holds bytes.length cut = true := by
    rw [holds_eq_true_iff]
    exact Nat.not_le_of_lt h.length_lt
  rw [take, if_neg lacks]

/-- A tag runs out. -/
theorem runsOut_tag (kind : Kind) : RunsOut tag [kind.tag] := by
  intro cut h
  have none : cut = [] := List.length_eq_zero_iff.mp (Nat.lt_one_iff.mp h.length_lt)
  rw [none]
  rfl

/-- The length and the text of a string run out, the text within its length. -/
theorem runsOut_text {s : String} (le : s.utf8ByteSize ≤ maxLength) :
    RunsOut text (littleEndian s.utf8ByteSize ++ Utf8.encode s) := by
  apply RunsOut.bind exact_number le (runsOut_number _)
  rw [← Utf8.length_encode]
  exact (runsOut_take (Utf8.encode s)).bind_left _

/-- A string with its tag runs out. -/
theorem runsOut_blob {s : String} (le : s.utf8ByteSize ≤ maxLength) :
    RunsOut blob (Value.blob s) :=
  RunsOut.bind exact_tag trivial (runsOut_tag .string) (runsOut_text le)

/-- A word runs out. -/
theorem runsOut_word (w : UInt32) : RunsOut word (littleEndian w.toNat) :=
  (runsOut_number _).bind_left _

/-! ## Several things in a row -/

variable {item : Reader α} {write : α → List UInt8} {fits : α → Prop}

/-- A cut falls into one of the items, and its reader finds it out. -/
theorem runsOut_items (exact_item : Exact item write fits)
    (starts : ∀ a, fits a → RunsOut item (write a)) {l : List α} (all : ∀ a ∈ l, fits a) :
    RunsOut (items item l.length) (l.flatMap write) := by
  -- What was read before is general, since every item goes in front of it.
  have row : ∀ done, RunsOut (iterate (fun done input =>
      item input >>= fun x => .ok (x.1 :: done, x.2)) l.length done) (l.flatMap write) := by
    induction l with
    | nil => exact fun done => .nil _
    | cons a l ih =>
      obtain ⟨fit, all⟩ := List.forall_mem_cons.mp all
      intro done cut h
      rw [List.flatMap_cons] at h
      rw [List.length_cons, iterate_succ]
      refine RunsOut.bind_of_cases (a := a :: done) ((starts a fit).bind_left _) ?_ (ih all _) cut h
      intro more _
      have read : item (write a ++ more) = .ok (a, more) := (exact_item _ _ _).mpr ⟨fit, rfl⟩
      rw [read]
      exact Or.inr rfl
  exact (row []).bind_left _

/-- A count that promises more than is left is found out at once, and any other by the items. -/
theorem runsOut_counted (exact_item : Exact item write fits)
    (starts : ∀ a, fits a → RunsOut item (write a)) (least : Nat) {l : List α}
    (le : l.length ≤ maxLength) (all : ∀ a ∈ l, fits a) :
    RunsOut (fun input => do
        let (n, rest) ← count least input
        items item n rest)
      (littleEndian l.length ++ l.flatMap write) := by
  refine RunsOut.bind_of_cases ((runsOut_number _).bind_left _) ?_
    (runsOut_items exact_item starts all)
  intro more _
  exact count_cases le least more

/-! ## Values and entries -/

/-- The contents of a value run out, whatever the kind. -/
theorem runsOut_contents {kind : Kind} {x : kind.Carrier} (fits : (Value.of kind x).Fits) :
    RunsOut (contents kind) (contentBytes kind x) := by
  cases kind with
  | word => exact runsOut_word x
  | string => exact runsOut_text (fits _ (List.mem_singleton_self _))
  | words =>
    have le : x.length ≤ maxLength := fits _ (List.mem_singleton_self _)
    exact runsOut_counted exact_word (fun w _ => runsOut_word w) 4 le fun _ _ => trivial
  | strings =>
    obtain ⟨le, all⟩ := List.forall_mem_cons.mp fits
    exact runsOut_counted exact_blob (fun _ => runsOut_blob) (1 + 4) le (List.forall_mem_map.mp all)

/-- A value runs out. -/
theorem runsOut_value {v : Value} (fits : v.Fits) : RunsOut value v.bytes := by
  obtain ⟨kind, x, rfl⟩ := v.exists_of
  rw [bytes_of]
  exact RunsOut.bind exact_tag trivial (runsOut_tag kind)
    (RunsOut.bind_left (runsOut_contents fits) _)

/-- An entry runs out. -/
theorem runsOut_pair {e : String × Value} (fits : Message.EntryFits e) :
    RunsOut pair (Message.entryBytes e) :=
  RunsOut.bind exact_blob fits.1 (runsOut_blob fits.1) (RunsOut.bind_left (runsOut_value fits.2) _)

/-- Entries with new keys run out on a cut that a message has room for: those before the cut
are put in, and the one that is cut off is found out before the message is looked at. -/
theorem iterate_entry_cut {l : List (String × Value)} {m : Message} {cut : List UInt8}
    (all : ∀ e ∈ l, Message.EntryFits e) (fresh : m.Fresh l)
    (h : IsCut cut (l.flatMap Message.entryBytes)) (room : m.size + cut.length ≤ m.limit) :
    iterate entry l.length m cut = .error .unexpectedEnd := by
  -- The message is general: it has the entries that stand before the others already.
  induction l generalizing m cut with
  | nil => exact absurd h.length_lt (Nat.not_lt_zero _)
  | cons e l ih =>
    obtain ⟨fits, all⟩ := List.forall_mem_cons.mp all
    rw [List.length_cons, iterate_succ]
    rw [List.flatMap_cons] at h
    rcases h.append_cases with early | ⟨more, rfl, late⟩
    · rw [entry_eq_bind, runsOut_pair fits cut early]
      rfl
    · rw [List.length_append, Message.length_entryBytes] at room
      have absent := fresh.2 e List.mem_cons_self
      have needed := Message.needed_of_absent absent e.2
      obtain ⟨n, set⟩ : ∃ n, m.set e.1 e.2 = .ok n := Message.exists_set (by omega)
      have read : entry m (Message.entryBytes e ++ more) = .ok (n, more) :=
        entry_eq_ok_iff.mpr ⟨e, fits, rfl, absent, set⟩
      have size := Message.size_set set
      obtain ⟨-, -, -, limit⟩ := Message.set_eq_ok_iff.mp set
      have left : n.size + more.length ≤ n.limit := by omega
      rw [read]
      exact ih all ((Message.fresh_cons_iff set).mp fresh).2 late left

end Reader

/-! ## Messages -/

namespace Message

open Numeral (decimal)

/-- What a message is spelled by runs out on any cut that is within the limit. -/
theorem message_cut {limit : Nat} {method : String} {l : List (String × Value)}
    {bytes cut : List UInt8} (spelt : Spelt bytes method l) (h : IsCut cut bytes)
    (le : cut.length ≤ limit) : Reader.message limit cut = .error .unexpectedEnd := by
  rw [spelt.eq_spelling, spelling, List.append_assoc] at h
  rcases h.append_cases with inMethod | ⟨afterMethod, rfl, late⟩
  · rw [Reader.message, Reader.runsOut_blob spelt.method_le cut inMethod]
    rfl
  have method_read : Reader.blob (Value.blob method ++ afterMethod) = .ok (method, afterMethod) :=
    (Reader.exact_blob _ _ _).mpr ⟨spelt.method_le, rfl⟩
  have counted : Reader.message limit (Value.blob method ++ afterMethod)
      = Reader.count (1 + 4 + 1 + 4) afterMethod >>= fun x =>
          Reader.iterate Reader.entry x.1 (withLimit method limit) x.2 := by
    rw [Reader.message, method_read]
    rfl
  rw [counted]
  rcases late.append_cases with inCount | ⟨afterCount, rfl, inEntries⟩
  · rw [Reader.count, Reader.runsOut_number _ _ inCount]
    rfl
  rcases Reader.count_cases spelt.count_le (1 + 4 + 1 + 4) afterCount with found | count_read
  · rw [found]
    rfl
  · rw [count_read]
    -- The message has its header so far, which is what stands before the entries.
    have room : (withLimit method limit).size + afterCount.length ≤ limit := by
      rw [List.length_append, List.length_append, Value.length_blob, length_littleEndian] at le
      show Value.blobSize method + 4 + afterCount.length ≤ limit
      omega
    have fresh := (fresh_withLimit method limit l).mpr spelt.distinct
    exact Reader.iterate_entry_cut spelt.entries_fit fresh inEntries room

/-- A message that is cut anywhere is refused since its bytes end too early. -/
theorem decode_cut {bytes cut : List UInt8} {m : Message} (h : decode bytes = .ok m)
    (is_cut : IsCut cut bytes) : decode cut = .error .unexpectedEnd := by
  obtain ⟨l, spelt, -, -⟩ := spelt_of_decode h
  rw [decode, message_cut spelt is_cut (Nat.le_max_right _ _)]
  rfl

/-- Bytes behind a message are not looked at by the reader, and only raise the limit. -/
theorem decode_append {bytes more : List UInt8} {m : Message} (h : decode bytes = .ok m)
    (some_more : more ≠ []) : decode (bytes ++ more) = .error (.trailingBytes more.length) := by
  obtain ⟨l, spelt, -, -⟩ := spelt_of_decode h
  have le : bytes.length ≤ max defaultLimit (bytes ++ more).length := by
    rw [List.length_append]
    omega
  obtain ⟨n, set⟩ := setAll_of_spelt spelt le
  have read : Reader.message (max defaultLimit (bytes ++ more).length) (bytes ++ more)
      = .ok (n, more) :=
    message_eq_ok_iff.mpr ⟨m.method, l, bytes, spelt, rfl, set⟩
  rw [decode, read]
  cases more with
  | nil => exact absurd rfl some_more
  | cons b rest => rfl

/-- **The bytes of a message tell where it ends.** Cut off anywhere before that, they are
refused because they end too early; with bytes behind them, they are refused because of
these, and the refusal states their number. -/
theorem decode_delimited {bytes : List UInt8} {m : Message} (h : decode bytes = .ok m) :
    (∀ cut, cut <+: bytes → cut ≠ bytes → decode cut = .error .unexpectedEnd) ∧
      ∀ more, more ≠ [] → decode (bytes ++ more)
        = .error (.corrupt (decimal more.length ++ " trailing bytes")) :=
  ⟨fun _ start ne => decode_cut h ⟨start, ne⟩, fun _ some_more => decode_append h some_more⟩

/-- One entry, cut off in front of it and in its value, and with two bytes behind it. -/
theorem decode_delimited_one_word :
    ∃ m, decode [0x10, 0, 0, 0, 0, 1, 0, 0, 0, 0x10, 1, 0, 0, 0, 98, 0x05, 7, 0, 0, 0] = .ok m ∧
      decode [0x10, 0, 0, 0, 0, 1, 0, 0, 0] = .error .unexpectedEnd ∧
      decode [0x10, 0, 0, 0, 0, 1, 0, 0, 0, 0x10, 1, 0, 0, 0, 98, 0x05, 7] = .error .unexpectedEnd ∧
      decode ([0x10, 0, 0, 0, 0, 1, 0, 0, 0, 0x10, 1, 0, 0, 0, 98, 0x05, 7, 0, 0, 0] ++ [0, 0])
        = .error (.corrupt "2 trailing bytes") := by
  have spelt : Spelt [0x10, 0, 0, 0, 0, 1, 0, 0, 0, 0x10, 1, 0, 0, 0, 98, 0x05, 7, 0, 0, 0] ""
      [("b", .word 7)] :=
    ⟨by decide, by decide, by decide, by decide, by decide⟩
  obtain ⟨m, read, -, -⟩ := decode_of_spelt spelt
  obtain ⟨cut, trailing⟩ := decode_delimited read
  exact ⟨m, read, cut _ (by decide) (by decide), cut _ (by decide) (by decide),
    trailing [0, 0] (by decide)⟩

end Message

end KeyedRpc
