/-
# Counting in words

A cursor may keep the number of its next key in a word of 32 bits, and count on from zero after
the greatest word. It never comes to that in a message whose size and limit have a place in four
bytes: each position that was gone past holds an entry, and an entry under a numeral takes up
eleven bytes or more (`Message.mul_length_le_size_of_holds`). So such a cursor does what a cursor
does that counts without bound, whatever it is asked to write or to read and however much of that
fails, and it goes past no position twice (`WordCursor.after_unwrapped`).
-/
import KeyedRpc.Proofs.Message.Sequences
import KeyedRpc.Proofs.Text.Lengths

namespace KeyedRpc

open Numeral (decimal)

/-! ## The bytes of positions -/

/-- An entry under a numeral takes up eleven bytes or more: a tag, a length and a digit for the
key, and five for the value. -/
theorem eleven_le_entrySize_decimal (n : Nat) (v : Value) : 11 ≤ entrySize (decimal n) v := by
  have key := Numeral.utf8ByteSize_decimal_pos n
  have value := v.five_le_size
  rw [entrySize, Value.blobSize]
  omega

/-- A message has eleven bytes for each position that holds a value. -/
theorem Message.mul_length_le_size_of_holds {m : Message} {n : Nat} {vs : List Value}
    (holds : m.Holds (positioned n vs)) : 11 * vs.length ≤ m.size := by
  have each : 11 * (positioned n vs).length
      ≤ sumOf (fun entry => entrySize entry.1 entry.2) (positioned n vs) := by
    apply mul_length_le_sumOf
    intro entry mem
    obtain ⟨i, -, key⟩ := key_of_mem_positioned mem
    rw [key]
    exact eleven_le_entrySize_decimal i entry.2
  have part : sumOf (fun entry => entrySize entry.1 entry.2) (positioned n vs)
      ≤ m.entries.total entrySize := by
    obtain ⟨l, perm, sublist⟩ := holds.subperm (nodup_positioned n vs)
    rw [← sumOf_perm perm]
    exact sumOf_le_of_sublist sublist
  have size := m.size_eq
  rw [length_positioned] at each
  omega

/-- What positions hold they still hold when only the next one is touched, and that makes one
more. -/
theorem Message.Holds.next {m n : Message} {vs : List Value} {v : Value}
    (holds : m.Holds (positioned 0 vs))
    (others : ∀ key, key ≠ decimal vs.length → n.get? key = m.get? key)
    (held : n.get? (decimal vs.length) = some v) : n.Holds (positioned 0 (vs ++ [v])) := by
  have apart : decimal vs.length ∉ (positioned 0 vs).map Prod.fst := by
    apply notMem_keys_positioned
    intro i lt same
    have eq := Numeral.decimal_injective same
    omega
  rw [positioned_append, Nat.zero_add, Message.Holds, List.forall_mem_append]
  constructor
  · intro entry mem
    have other : entry.1 ≠ decimal vs.length :=
      fun same => apart (List.mem_map.mpr ⟨entry, mem, same⟩)
    rw [others _ other]
    exact holds entry mem
  · exact List.forall_mem_singleton.mpr held

/-! ## Cursors that look up in any way -/

/-- A way to look up a key of a message, which finds nothing where the key is not. -/
structure Lookup (α : Type) where
  find : Message → String → Except MessageError α
  contains_of_find : ∀ {m : Message} {key : String} {x : α}, find m key = .ok x →
    m.contains key = true

namespace Lookup

variable {α : Type}

/-- What a look-up finds is under a key that holds a value. -/
theorem exists_get? (look : Lookup α) {m : Message} {key : String} {x : α}
    (h : look.find m key = .ok x) : ∃ v, m.get? key = some v :=
  Option.isSome_iff_exists.mp (look.contains_of_find h)

/-- Looks up a key as a kind. -/
def ofKind (kind : Kind) : Lookup kind.Carrier where
  find m key := m.get kind key
  contains_of_find := by
    intro m key x h
    exact Option.isSome_of_eq_some (Message.get?_of_get h)

end Lookup

/-- Takes up what a look-up finds under the next key. -/
def Cursor.take {α : Type} (look : Lookup α) : Positional α := fun c =>
  match look.find c.message c.key with
  | .ok x => (.ok x, ⟨c.message, c.next + 1⟩)
  | .error e => (.error e, c)

/-- A key is read as a kind by taking up what is looked up so. -/
theorem Cursor.pull_eq_take (kind : Kind) : Cursor.pull kind = Cursor.take (.ofKind kind) := by
  funext c
  have found : (Lookup.ofKind kind).find c.message c.key = c.message.get kind c.key := rfl
  rw [Cursor.pull, Cursor.take, found]
  cases c.message.get kind c.key <;> rfl

/-! ## Cursors that count in words -/

/-- A message with the number of the next key in a word of 32 bits, and the numbers that were gone
past, in order. -/
structure WordCursor where
  message : Message
  next : UInt32
  passed : List UInt32

/-- Work on a cursor that counts in words; what was done before a failure stays done. -/
abbrev WordPositional (α : Type) : Type :=
  ExceptT MessageError (StateM WordCursor) α

namespace WordCursor

/-- The cursor at the first key of a message. -/
def start (m : Message) : WordCursor :=
  ⟨m, 0, []⟩

/-- The key of a number. -/
def keyOf (n : UInt32) : String :=
  decimal n.toNat

/-- The cursor gone past its next key, in a message that may have changed. After the greatest
word comes zero. -/
def advance (c : WordCursor) (m : Message) : WordCursor :=
  ⟨m, c.next + 1, c.passed ++ [c.next]⟩

/-- Stores a value under the next key. -/
def push (value : Value) : WordPositional Unit := fun c =>
  match c.message.set (keyOf c.next) value with
  | .ok m => (.ok (), c.advance m)
  | .error e => (.error e, c)

/-- Takes up what a look-up finds under the next key. -/
def take {α : Type} (look : Lookup α) : WordPositional α := fun c =>
  match look.find c.message (keyOf c.next) with
  | .ok x => (.ok x, c.advance c.message)
  | .error e => (.error e, c)

/-- Writes contents of a wire type. -/
def write : (t : WireType) → t.Carrier → WordPositional Unit
  | .unit, _ => pure ()
  | .keyed kind, x => push (Value.of kind x)

/-- Reads contents of a wire type. -/
def read : (t : WireType) → WordPositional t.Carrier
  | .unit => pure ()
  | .keyed kind => take (.ofKind kind)

/-- Writes arguments from left to right, up to the first that fails. -/
def writeArgs : (ts : List WireType) → Args ts → WordPositional Unit
  | [], _ => pure ()
  | t :: ts, (x, xs) => do
    write t x
    writeArgs ts xs

/-- Reads arguments from left to right, up to the first that fails. -/
def readArgs : (ts : List WireType) → WordPositional (Args ts)
  | [] => pure ()
  | t :: ts => do
    let x ← read t
    let xs ← readArgs ts
    pure (x, xs)

/-- The cursor that stands at the same key and counts without bound. -/
def unbounded (c : WordCursor) : Cursor :=
  ⟨c.message, c.next.toNat⟩

variable {α : Type} (c : WordCursor) (value : Value) (look : Lookup α)

/-- A value is stored under the next key, and the cursor goes past it, unless it is refused. -/
theorem push_apply : push value c = match c.message.set (keyOf c.next) value with
    | .ok m => (.ok (), c.advance m)
    | .error e => (.error e, c) := rfl

/-- A cursor that counts without bound stores under the same key. -/
theorem push_unbounded : Cursor.push value c.unbounded
    = match c.message.set (keyOf c.next) value with
      | .ok m => (.ok (), ⟨m, c.next.toNat + 1⟩)
      | .error e => (.error e, c.unbounded) := rfl

/-- What a look-up finds under the next key is taken up, and the cursor goes past it. -/
theorem take_apply : take look c = match look.find c.message (keyOf c.next) with
    | .ok x => (.ok x, c.advance c.message)
    | .error e => (.error e, c) := rfl

/-- A cursor that counts without bound looks up the same key. -/
theorem take_unbounded : Cursor.take look c.unbounded
    = match look.find c.message (keyOf c.next) with
      | .ok x => (.ok x, ⟨c.message, c.next.toNat + 1⟩)
      | .error e => (.error e, c.unbounded) := rfl

end WordCursor

/-! ## Moves -/

/-- A cursor is there to write or to read, and never for both. -/
inductive Direction where
  | writing
  | reading

/-- What a cursor may be asked to do. -/
inductive Move : Direction → Type 1 where
  /-- Store a value under the next key. -/
  | push (value : Value) : Move .writing
  /-- Write contents of a wire type. -/
  | write (t : WireType) (x : t.Carrier) : Move .writing
  /-- Write arguments from left to right, up to the first that fails. -/
  | writeArgs (ts : List WireType) (xs : Args ts) : Move .writing
  /-- Take up what a look-up finds under the next key. -/
  | take {α : Type} (look : Lookup α) : Move .reading
  /-- Read contents of a wire type. -/
  | read (t : WireType) : Move .reading
  /-- Read arguments from left to right, up to the first that fails. -/
  | readArgs (ts : List WireType) : Move .reading

namespace Move

variable {d : Direction}

/-- What a move that does not fail results in. -/
def Result : Move d → Type
  | push _ | write _ _ | writeArgs _ _ => Unit
  | take (α := α) _ => α
  | read t => t.Carrier
  | readArgs ts => Args ts

/-- A move at a cursor. -/
def run : (move : Move d) → Positional move.Result
  | push value => Cursor.push value
  | write t x => t.write x
  | writeArgs ts xs => Args.write ts xs
  | take look => Cursor.take look
  | read t => t.read
  | readArgs ts => Args.read ts

/-- A move at a cursor that counts in words. -/
def runInWords : (move : Move d) → WordPositional move.Result
  | push value => WordCursor.push value
  | write t x => WordCursor.write t x
  | writeArgs ts xs => WordCursor.writeArgs ts xs
  | take look => WordCursor.take look
  | read t => WordCursor.read t
  | readArgs ts => WordCursor.readArgs ts

end Move

/-- The cursor after moves one after another, each whether or not those before it failed. -/
def Cursor.after {d : Direction} (c : Cursor) (moves : List (Move d)) : Cursor :=
  moves.foldl (fun c move => (move.run c).2) c

/-- The cursor after moves one after another, each whether or not those before it failed. -/
def WordCursor.after {d : Direction} (c : WordCursor) (moves : List (Move d)) : WordCursor :=
  moves.foldl (fun c move => (move.runInWords c).2) c

theorem Cursor.after_cons {d : Direction} (c : Cursor) (move : Move d) (moves : List (Move d)) :
    c.after (move :: moves) = (move.run c).2.after moves := rfl

theorem WordCursor.after_cons {d : Direction} (c : WordCursor) (move : Move d)
    (moves : List (Move d)) : c.after (move :: moves) = (move.runInWords c).2.after moves := rfl

/-! ## Positions that are filled -/

namespace WordCursor

/-- All that a cursor has gone past is filled, in a message whose bytes can be counted in words. -/
structure Filled (c : WordCursor) : Prop where
  size_le : c.message.size ≤ maxLength
  limit_le : c.message.limit ≤ maxLength
  /-- The positions before the next hold values. -/
  holds : ∃ vs, vs.length = c.next.toNat ∧ c.message.Holds (positioned 0 vs)
  /-- The numbers that it has gone past are those before the next. -/
  passed_eq : c.passed.map UInt32.toNat = List.range c.next.toNat

/-- At the start nothing was gone past. -/
theorem filled_start {m : Message} (size : m.size ≤ maxLength) (limit : m.limit ≤ maxLength) :
    (start m).Filled where
  size_le := size
  limit_le := limit
  holds := ⟨[], rfl, List.forall_mem_nil _⟩
  passed_eq := rfl

/-- Words count as numbers do as long as they do not wrap. -/
theorem toNat_add_ofNat {n : UInt32} {k : Nat} (lt : n.toNat + k < 2 ^ 32) :
    (n + UInt32.ofNat k).toNat = n.toNat + k := by
  rw [UInt32.toNat_add, UInt32.toNat_ofNat']
  omega

/-- The next word is the next number, unless it is zero again. -/
theorem toNat_add_one {n : UInt32} (lt : n.toNat < 0xFFFFFFFF) :
    (n + 1).toNat = n.toNat + 1 := by
  have words : n.toNat + 1 < 2 ^ 32 := by omega
  exact toNat_add_ofNat words

namespace Filled

variable {c : WordCursor}

/-- A message has no fewer entries than positions that were gone past. -/
theorem next_le_entries (filled : c.Filled) : c.next.toNat ≤ c.message.entries.size := by
  obtain ⟨vs, length, holds⟩ := filled.holds
  rw [← length]
  exact Message.length_le_size_of_holds holds

/-- A message has eleven bytes for each position that was gone past. -/
theorem mul_next_le_size (filled : c.Filled) : 11 * c.next.toNat ≤ c.message.size := by
  obtain ⟨vs, length, holds⟩ := filled.holds
  rw [← length]
  exact Message.mul_length_le_size_of_holds holds

/-- The next number is far from where words end. -/
theorem mul_next_le (filled : c.Filled) : 11 * c.next.toNat ≤ 0xFFFFFFFF :=
  Nat.le_trans filled.mul_next_le_size filled.size_le

/-- Counting on does not wrap. -/
theorem toNat_next_add_one (filled : c.Filled) : (c.next + 1).toNat = c.next.toNat + 1 := by
  have le := filled.mul_next_le
  exact toNat_add_one (by omega)

end Filled

/-- A place that a cursor may come to from another: all that it has gone past is filled, and what
was filled before is as it was. -/
structure Onward (c c' : WordCursor) : Prop where
  filled : c'.Filled
  next_le : c.next.toNat ≤ c'.next.toNat
  kept : ∀ i, i < c.next.toNat → c'.message.get? (decimal i) = c.message.get? (decimal i)

namespace Onward

variable {c c' c'' : WordCursor}

theorem refl (filled : c.Filled) : Onward c c :=
  ⟨filled, Nat.le_refl _, fun _ _ => rfl⟩

theorem trans (first : Onward c c') (rest : Onward c' c'') : Onward c c'' where
  filled := rest.filled
  next_le := Nat.le_trans first.next_le rest.next_le
  kept := by
    intro i lt
    rw [rest.kept i (Nat.lt_of_lt_of_le lt first.next_le), first.kept i lt]

end Onward

/-- A step past a key that holds a value is the step of a cursor that counts without bound, and
leads onward if nothing but this key was touched. -/
theorem Filled.advance {c : WordCursor} (filled : c.Filled) {m : Message} {v : Value}
    (size : m.size ≤ maxLength) (limit : m.limit ≤ maxLength)
    (others : ∀ key, key ≠ keyOf c.next → m.get? key = c.message.get? key)
    (held : m.get? (keyOf c.next) = some v) :
    (⟨m, c.next.toNat + 1⟩ : Cursor) = (c.advance m).unbounded ∧ Onward c (c.advance m) := by
  have next : (c.advance m).next.toNat = c.next.toNat + 1 := filled.toNat_next_add_one
  have holds : ∃ vs, vs.length = (c.advance m).next.toNat ∧ m.Holds (positioned 0 vs) := by
    obtain ⟨vs, length, holds⟩ := filled.holds
    rw [keyOf, ← length] at others held
    refine ⟨vs ++ [v], ?_, holds.next others held⟩
    rw [next, List.length_append, length]
    rfl
  have passed : (c.advance m).passed.map UInt32.toNat
      = List.range (c.advance m).next.toNat := by
    rw [next, List.range_succ, ← filled.passed_eq]
    exact List.map_append
  refine ⟨congrArg (Cursor.mk m) next.symm, ⟨size, limit, holds, passed⟩, ?_, ?_⟩
  · rw [next]
    exact Nat.le_succ _
  · intro i lt
    apply others
    intro same
    have eq : i = c.next.toNat := Numeral.decimal_injective same
    omega

/-! ## One cursor follows the other -/

/-- From where all positions before the next are filled, work on a cursor that counts in words
results in what the other work does on one that counts without bound, and leads both onward to the
same key of the same message. -/
def Follows {α : Type} (x : WordPositional α) (y : Positional α) : Prop :=
  ∀ c : WordCursor, c.Filled →
    y c.unbounded = ((x c).1, (x c).2.unbounded) ∧ Onward c (x c).2

variable {α β : Type}

/-- Nothing is done on either cursor. -/
theorem follows_pure (a : α) : Follows (pure a) (pure a) :=
  fun _ filled => ⟨rfl, .refl filled⟩

/-- Work that follows other work may go on with work that does. -/
theorem Follows.bind {x : WordPositional α} {y : Positional α} {f : α → WordPositional β}
    {g : α → Positional β} (first : Follows x y) (rest : ∀ a, Follows (f a) (g a)) :
    Follows (x >>= f) (y >>= g) := by
  intro c filled
  obtain ⟨same, onward⟩ := first c filled
  rw [bind_apply, bind_apply, same]
  rcases run : x c with ⟨e | a, after⟩
  · rw [run] at onward
    exact ⟨rfl, onward⟩
  · rw [run] at onward
    obtain ⟨same, later⟩ := rest a after onward.filled
    exact ⟨same, onward.trans later⟩

/-- Values are stored under the same keys. -/
theorem follows_push (value : Value) : Follows (push value) (Cursor.push value) := by
  intro c filled
  rw [push_apply, push_unbounded]
  cases set : c.message.set (keyOf c.next) value with
  | error e => exact ⟨rfl, .refl filled⟩
  | ok m =>
    obtain ⟨-, -, -, same⟩ := Message.set_eq_ok_iff.mp set
    have limit : m.limit ≤ maxLength := same ▸ filled.limit_le
    have size : m.size ≤ maxLength := Nat.le_trans (Message.size_le_limit_of_set set) limit
    have others : ∀ key, key ≠ keyOf c.next → m.get? key = c.message.get? key := by
      intro key other
      rw [Message.get?_set set, if_neg other]
    have held : m.get? (keyOf c.next) = some value := by
      rw [Message.get?_set set, if_pos rfl]
    obtain ⟨step, onward⟩ := filled.advance size limit others held
    exact ⟨congrArg (Prod.mk _) step, onward⟩

/-- What is looked up is taken up from the same keys. -/
theorem follows_take (look : Lookup α) : Follows (take look) (Cursor.take look) := by
  intro c filled
  rw [take_apply, take_unbounded]
  cases found : look.find c.message (keyOf c.next) with
  | error e => exact ⟨rfl, .refl filled⟩
  | ok x =>
    obtain ⟨v, held⟩ := look.exists_get? found
    obtain ⟨step, onward⟩ :=
      filled.advance filled.size_le filled.limit_le (fun _ _ => rfl) held
    exact ⟨congrArg (Prod.mk _) step, onward⟩

/-- Contents are written under the same keys. -/
theorem follows_write (t : WireType) (x : t.Carrier) : Follows (write t x) (t.write x) := by
  cases t with
  | unit => exact follows_pure ()
  | keyed kind => exact follows_push (Value.of kind x)

/-- Contents are read from the same keys. -/
theorem follows_read (t : WireType) : Follows (read t) t.read := by
  cases t with
  | unit => exact follows_pure ()
  | keyed kind =>
    show Follows (take (.ofKind kind)) (Cursor.pull kind)
    rw [Cursor.pull_eq_take]
    exact follows_take (.ofKind kind)

/-- Arguments are written under the same keys. -/
theorem follows_writeArgs (ts : List WireType) (xs : Args ts) :
    Follows (writeArgs ts xs) (Args.write ts xs) := by
  induction ts with
  | nil => exact follows_pure ()
  | cons t ts ih =>
    obtain ⟨x, xs⟩ := xs
    exact (follows_write t x).bind fun _ => ih xs

/-- Arguments are read from the same keys. -/
theorem follows_readArgs (ts : List WireType) : Follows (readArgs ts) (Args.read ts) := by
  induction ts with
  | nil => exact follows_pure ()
  | cons t ts ih =>
    exact (follows_read t).bind fun x => ih.bind fun xs => follows_pure (x, xs)

/-- Whatever a cursor that counts in words is asked to do, it does the same. -/
theorem follows_run {d : Direction} (move : Move d) : Follows move.runInWords move.run := by
  cases move with
  | push value => exact follows_push value
  | write t x => exact follows_write t x
  | writeArgs ts xs => exact follows_writeArgs ts xs
  | take look => exact follows_take look
  | read t => exact follows_read t
  | readArgs ts => exact follows_readArgs ts

/-- So it does whatever it is asked to do in sequence. -/
theorem after_unbounded {d : Direction} (moves : List (Move d)) {c : WordCursor}
    (filled : c.Filled) :
    c.unbounded.after moves = (c.after moves).unbounded ∧ Onward c (c.after moves) := by
  -- The cursor is general: the later moves begin where the first one left it.
  induction moves generalizing c with
  | nil => exact ⟨rfl, .refl filled⟩
  | cons move moves ih =>
    obtain ⟨same, onward⟩ := follows_run move c filled
    obtain ⟨rest, later⟩ := ih onward.filled
    rw [Cursor.after_cons, WordCursor.after_cons, same]
    exact ⟨rest, onward.trans later⟩

/-! ## Counting never wraps -/

/-- What the same moves come to with a cursor that counts without bound and with one that counts
in words. -/
structure Unwrapped (c : Cursor) (w : WordCursor) : Prop where
  /-- Both are at the same key of the same message. -/
  same : w.unbounded = c
  /-- The message has no fewer entries than there are positions before the next key, -/
  next_le_entries : c.next ≤ c.message.entries.size
  /-- and eleven bytes for each of them. -/
  next_le_size : c.next ≤ c.message.size / 11
  /-- Whenever the cursor counted on, the next word was the next number. -/
  counted : ∀ n ∈ w.passed, (n + 1).toNat = n.toNat + 1
  /-- The keys that it has gone past are those of the numbers before the next, -/
  passed_eq : w.passed.map keyOf = (List.range c.next).map decimal
  /-- and it has gone past none of them twice. -/
  once : (w.passed.map keyOf).Nodup
  /-- What these keys hold, they hold whatever moves follow. -/
  kept : ∀ {d : Direction} (later : List (Move d)) (i : Nat), i < c.next →
    (c.after later).message.get? (decimal i) = c.message.get? (decimal i)
  /-- Any move that follows results in the same, be it a failure or not. -/
  result_eq : ∀ {d : Direction} (move : Move d), (move.runInWords w).1 = (move.run c).1

theorem Filled.unwrapped {w : WordCursor} (filled : w.Filled) : Unwrapped w.unbounded w := by
  have passed : w.passed.map keyOf = (List.range w.next.toNat).map decimal := by
    rw [← filled.passed_eq, List.map_map]
    rfl
  refine ⟨rfl, filled.next_le_entries, ?_, ?_, passed, ?_, ?_, ?_⟩
  · have le := filled.mul_next_le_size
    show w.next.toNat ≤ w.message.size / 11
    omega
  · intro n mem
    have before : n.toNat ∈ List.range w.next.toNat := by
      rw [← filled.passed_eq]
      exact List.mem_map_of_mem mem
    have lt := List.mem_range.mp before
    have le := filled.mul_next_le
    exact toNat_add_one (by omega)
  · rw [passed]
    exact List.nodup_range.map fun _ _ => Numeral.decimal_injective
  · intro d later i lt
    obtain ⟨same, onward⟩ := after_unbounded later filled
    rw [same]
    exact onward.kept i lt
  · intro d move
    rw [(follows_run move w filled).1]

/-- **A cursor that counts in words never wraps**, in a message whose size and limit have a place
in four bytes, whatever it is asked to write or whatever it is asked to read. -/
theorem after_unwrapped {m : Message} (size : m.size ≤ maxLength) (limit : m.limit ≤ maxLength)
    {d : Direction} (moves : List (Move d)) :
    Unwrapped ((Cursor.start m).after moves) ((start m).after moves) := by
  obtain ⟨same, onward⟩ := after_unbounded moves (filled_start size limit)
  have first : (start m).unbounded = Cursor.start m := rfl
  rw [← first, same]
  exact onward.filled.unwrapped

/-- A message with room for one entry more, in which a position is taken. -/
def nearlyFull : Message :=
  (Message.withLimit "m" 33).edit (.set "1" (.word 9))

/-- The second argument has no room. The word that is written in its place takes the place of
what was under its key, and then there is no room at all. -/
def overfilling : List (Move .writing) :=
  [.writeArgs [.keyed .word, .keyed .string] ((7 : UInt32), "too long for it", ()),
    .push (.word 8), .write .unit (), .write (.keyed .words) [1]]

/-- The first key is read as no kind but its own, and there is no third. -/
def overreading : List (Move .reading) :=
  [.read (.keyed .string), .readArgs [.keyed .word, .unit, .keyed .word, .keyed .word],
    .take (.ofKind .words)]

/-- Both bounds are met where a message is full of positions. -/
theorem after_unwrapped_full :
    nearlyFull.size ≤ maxLength ∧ nearlyFull.limit ≤ maxLength ∧
      ((Cursor.start nearlyFull).after overfilling).next = 2 ∧
      ((Cursor.start nearlyFull).after overfilling).message.size = 32 ∧
      Unwrapped ((Cursor.start nearlyFull).after overfilling)
        ((start nearlyFull).after overfilling) ∧
      Unwrapped ((Cursor.start ((start nearlyFull).after overfilling).message).after overreading)
        ((start ((start nearlyFull).after overfilling).message).after overreading) := by
  have size : nearlyFull.size ≤ maxLength := by decide
  have limit : nearlyFull.limit ≤ maxLength := by decide
  refine ⟨size, limit, by decide, by decide, after_unwrapped size limit overfilling, ?_⟩
  exact after_unwrapped (by decide) (by decide) overreading

end WordCursor

end KeyedRpc
