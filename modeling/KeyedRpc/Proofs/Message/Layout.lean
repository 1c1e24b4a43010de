/-
# The layout of arguments

The kinds of wire types say where their arguments lie in a message: the position of each kind
holds a value of that kind, and the unit type has no position. Arguments are read from a message
if and only if it is laid out so, whatever other keys it has; else reading stops at the first
position that does not fit. Arguments that are written to a message without entries lay it out so,
and a write that fails leaves those which came before (`Args.kinds_layout`).
-/
import KeyedRpc.Proofs.Message.Positions

namespace KeyedRpc

open Numeral (decimal)

/-! ## Kinds under keys -/

namespace Message

/-- The kind of the value under a key. -/
def kind? (m : Message) (key : String) : Option Kind :=
  (m.get? key).map Value.kind

/-- A key has a kind if it holds a value of that kind. -/
theorem kind?_eq_some_iff {m : Message} {key : String} {kind : Kind} :
    m.kind? key = some kind ↔ ∃ v, m.get? key = some v ∧ v.kind = kind :=
  Option.map_eq_some_iff

/-- Why a key is not read as a kind. -/
inductive Misfit (m : Message) (key : String) (kind : Kind) : MessageError → Prop where
  | absent (none : m.kind? key = none) : Misfit m key kind (.badKey key)
  | mistyped {found : Kind} (held : m.kind? key = some found) (other : found ≠ kind) :
      Misfit m key kind (.typeMismatch key kind found)

/-- A key is read as the kind that it has. -/
theorem exists_get_iff {m : Message} {key : String} {kind : Kind} :
    (∃ x, m.get kind key = .ok x) ↔ m.kind? key = some kind := by
  constructor
  · rintro ⟨x, read⟩
    exact kind?_eq_some_iff.mpr ⟨_, get?_of_get read, Value.kind_of kind x⟩
  · intro held
    obtain ⟨v, get, same⟩ := kind?_eq_some_iff.mp held
    obtain ⟨kind', x, rfl⟩ := v.exists_of
    rw [Value.kind_of] at same
    subst same
    exact ⟨x, get_of_get? get⟩

/-- Otherwise the failure says what the key holds in its place. -/
theorem get_eq_error_iff {m : Message} {key : String} {kind : Kind} {e : MessageError} :
    m.get kind key = .error e ↔ m.Misfit key kind e := by
  unfold get
  constructor
  · intro h
    rcases held : m.get? key with _ | v
    · rw [held] at h
      cases h
      apply Misfit.absent
      rw [kind?, held, Option.map_none]
    · rw [held] at h
      dsimp only at h
      rcases taken : v.as? kind with _ | x
      · rw [taken] at h
        cases h
        apply Misfit.mistyped
        · rw [kind?, held, Option.map_some]
        · exact Value.as?_eq_none_iff.mp taken
      · rw [taken] at h
        cases h
  · rintro (none | ⟨held, other⟩)
    · rw [Option.map_eq_none_iff.mp none]
    · obtain ⟨v, value, rfl⟩ := kind?_eq_some_iff.mp held
      rw [value]
      dsimp only
      rw [Value.as?_eq_none_iff.mpr other]

/-- A message is laid out by kinds if the positions from `n` on hold values of these kinds. -/
def LaidOut (m : Message) (n : Nat) (ks : List Kind) : Prop :=
  ∀ i kind, ks[i]? = some kind → m.kind? (decimal (n + i)) = some kind

theorem laidOut_nil (m : Message) (n : Nat) : m.LaidOut n [] := by
  intro i kind listed
  simp at listed

/-- A message is laid out by kinds if the next position has the first, and the rest follow. -/
theorem laidOut_cons_iff {m : Message} {n : Nat} {kind : Kind} {ks : List Kind} :
    m.LaidOut n (kind :: ks) ↔ m.kind? (decimal n) = some kind ∧ m.LaidOut (n + 1) ks := by
  constructor
  · intro laid
    refine ⟨laid 0 kind rfl, fun i kind' listed => ?_⟩
    rw [show n + 1 + i = n + (i + 1) by omega]
    exact laid (i + 1) kind' listed
  · rintro ⟨first, rest⟩ i kind' listed
    cases i with
    | zero =>
      rw [List.getElem?_cons_zero, Option.some.injEq] at listed
      exact listed ▸ first
    | succ i =>
      rw [show n + (i + 1) = n + 1 + i by omega]
      exact rest i kind' listed

/-- Positions that hold values are laid out by the kinds of these. -/
theorem laidOut_of_holds {m : Message} {n : Nat} {vs : List Value}
    (holds : m.Holds (positioned n vs)) : m.LaidOut n (vs.map Value.kind) := by
  induction vs generalizing n with
  | nil => exact m.laidOut_nil n
  | cons v vs ih =>
    obtain ⟨first, rest⟩ := List.forall_mem_cons.mp holds
    rw [List.map_cons, laidOut_cons_iff]
    exact ⟨kind?_eq_some_iff.mpr ⟨v, first, rfl⟩, ih rest⟩

end Message

/-- An entry is among positions if its key is the number of one and its value stands there. -/
theorem mem_positioned_iff {n : Nat} {vs : List Value} {key : String} {v : Value} :
    (key, v) ∈ positioned n vs ↔ ∃ i, key = decimal (n + i) ∧ vs[i]? = some v := by
  induction vs generalizing n with
  | nil => simp [positioned]
  | cons w vs ih =>
    rw [positioned, List.mem_cons, ih]
    constructor
    · rintro (first | ⟨i, rfl, held⟩)
      · obtain ⟨rfl, rfl⟩ := Prod.mk.inj first
        exact ⟨0, rfl, rfl⟩
      · exact ⟨i + 1, congrArg decimal (by omega), held⟩
    · rintro ⟨i, rfl, held⟩
      cases i with
      | zero =>
        rw [List.getElem?_cons_zero, Option.some.injEq] at held
        exact Or.inl (by rw [held, Nat.add_zero])
      | succ i => exact Or.inr ⟨i, congrArg decimal (by omega), held⟩

/-! ## Kinds of arguments -/

/-- The value that contents take up is of the kind of their wire type. -/
theorem WireType.map_kind_values (t : WireType) (x : t.Carrier) :
    (t.values x).map Value.kind = t.kind?.toList := by
  cases t with
  | unit => rfl
  | keyed kind => simp [values, kind?]

namespace Args

theorem kinds_cons (t : WireType) (ts : List WireType) :
    kinds (t :: ts) = t.kind?.toList ++ kinds ts := by
  cases t <;> rfl

/-- The values that arguments take up are of the kinds of their types. -/
theorem map_kind_values (ts : List WireType) (xs : Args ts) :
    (values ts xs).map Value.kind = kinds ts := by
  induction ts with
  | nil => rfl
  | cons t ts ih =>
    obtain ⟨x, xs⟩ := xs
    rw [values, List.map_append, t.map_kind_values, ih, kinds_cons]

/-- Arguments take up as many values as there are kinds. -/
theorem length_values (ts : List WireType) (xs : Args ts) :
    (values ts xs).length = (kinds ts).length := by
  rw [← map_kind_values ts xs, List.length_map]

/-- A message that is laid out by the kinds of wire types holds arguments of these types. -/
theorem exists_holds_of_laidOut {ts : List WireType} {m : Message} {n : Nat}
    (laid : m.LaidOut n (kinds ts)) : ∃ xs, m.Holds (positioned n (values ts xs)) := by
  induction ts generalizing n with
  | nil => exact ⟨(), List.forall_mem_nil _⟩
  | cons t ts ih =>
    cases t with
    | unit =>
      obtain ⟨xs, holds⟩ := ih laid
      exact ⟨((), xs), holds⟩
    | keyed kind =>
      obtain ⟨first, rest⟩ := Message.laidOut_cons_iff.mp laid
      obtain ⟨x, read⟩ := Message.exists_get_iff.mpr first
      obtain ⟨xs, holds⟩ := ih rest
      exact ⟨(x, xs), List.forall_mem_cons.mpr ⟨Message.get?_of_get read, holds⟩⟩

/-! ## Reading -/

/-- Arguments that are not read stop at the first position that does not fit. -/
theorem unfit_of_read {ts : List WireType} {c c' : Cursor} {e : MessageError}
    (h : read ts c = (.error e, c')) :
    ∃ i kind, (kinds ts)[i]? = some kind ∧ c.message.LaidOut c.next ((kinds ts).take i) ∧
      c.message.Misfit (decimal (c.next + i)) kind e ∧ c' = ⟨c.message, c.next + i⟩ := by
  -- The cursor is general: the rest is read from where the first contents left it.
  induction ts generalizing c with
  | nil => cases h
  | cons t ts ih =>
    rw [read_cons] at h
    rcases first : t.read c with ⟨e' | x, between⟩
    · rw [first] at h
      cases h
      cases t with
      | unit => cases first
      | keyed kind =>
        have pulled : Cursor.pull kind c = (.error e, c') := first
        unfold Cursor.pull at pulled
        rcases held : c.message.get kind c.key with e'' | x
        · rw [held] at pulled
          cases pulled
          exact ⟨0, kind, rfl, Message.laidOut_nil _ _, Message.get_eq_error_iff.mp held, rfl⟩
        · rw [held] at pulled
          cases pulled
    · rw [first] at h
      dsimp only at h
      rcases others : read ts between with ⟨e' | rest, after⟩
      · rw [others] at h
        cases h
        obtain ⟨holds, rfl⟩ := WireType.holds_of_read first
        obtain ⟨i, kind, listed, laid, misfit, rfl⟩ := ih others
        cases t with
        | unit => exact ⟨i, kind, listed, laid, misfit, rfl⟩
        | keyed kind' =>
          have shift : c.next + 1 + i = c.next + (i + 1) := by omega
          refine ⟨i + 1, kind, listed, ?_, ?_, congrArg (Cursor.mk c.message) shift⟩
          · have held := Message.laidOut_of_holds holds
            rw [WireType.map_kind_values] at held
            exact Message.laidOut_cons_iff.mpr ⟨(Message.laidOut_cons_iff.mp held).1, laid⟩
          · rw [← shift]
            exact misfit
      · rw [others] at h
        cases h

/-- Arguments are read if and only if the message is laid out by their kinds from the cursor on. -/
theorem exists_read_iff {ts : List WireType} {c : Cursor} :
    (∃ xs c', read ts c = (.ok xs, c')) ↔ c.message.LaidOut c.next (kinds ts) := by
  constructor
  · rintro ⟨xs, c', read⟩
    rw [← map_kind_values ts xs]
    exact Message.laidOut_of_holds (holds_of_read read)
  · intro laid
    obtain ⟨xs, holds⟩ := exists_holds_of_laidOut laid
    exact ⟨xs, _, read_of_holds holds⟩

/-! ## Writing -/

/-- Arguments that are not written stop at the first value that has no room. -/
theorem full_of_write {ts : List WireType} {xs : Args ts} {c c' : Cursor} {e : MessageError}
    (h : write ts xs c = (.error e, c')) :
    ∃ before v after, values ts xs = before ++ v :: after ∧
      c.message.setAll (positioned c.next before) = .ok c'.message ∧
      c'.next = c.next + before.length ∧ c'.message.set c'.key v = .error e := by
  induction ts generalizing c with
  | nil => cases h
  | cons t ts ih =>
    obtain ⟨x, xs⟩ := xs
    have step : write (t :: ts) (x, xs) c = _ := bind_apply (t.write x) (fun _ => write ts xs) c
    rw [step] at h
    cases t with
    | unit => exact ih h
    | keyed kind =>
      rw [WireType.write_apply, WireType.values, positioned, positioned,
        Message.setAll_singleton] at h
      -- The first argument is the one without room, or it is put in and the others are tried.
      rcases put : c.message.set (decimal c.next) (Value.of kind x) with e' | m
      · rw [put] at h
        cases h
        exact ⟨[], _, _, rfl, rfl, rfl, put⟩
      · rw [put] at h
        obtain ⟨before, v, after, parts, set, next, full⟩ := ih h
        refine ⟨Value.of kind x :: before, v, after, congrArg (Value.of kind x :: ·) parts, ?_, ?_,
          full⟩
        · rw [positioned, Message.setAll_cons, put]
          exact set
        · rw [next]
          simp only [List.length_cons, List.length_nil]
          omega

/-- Arguments that are written are put in under their positions, and the cursor goes past all of
them. -/
theorem setAll_of_write {ts : List WireType} {xs : Args ts} {c c' : Cursor}
    (h : write ts xs c = (.ok (), c')) :
    c.message.setAll (positioned c.next (values ts xs)) = .ok c'.message ∧
      c'.next = c.next + (kinds ts).length := by
  rcases write_cases ts xs c with ⟨m, set, written⟩ | ⟨e, c', -, refused⟩
  · rw [written] at h
    cases h
    exact ⟨set, congrArg (c.next + ·) (length_values ts xs)⟩
  · rw [refused] at h
    cases h

/-! ## Layouts -/

/-- Kinds are the layout of wire types: where their arguments are found in messages, and where
they are put. -/
structure Layout (ts : List WireType) (ks : List Kind) : Prop where
  /-- Arguments are read from the messages whose positions hold values of these kinds. -/
  read_iff : ∀ m, (∃ xs c, read ts (Cursor.start m) = (.ok xs, c)) ↔ m.LaidOut 0 ks
  /-- They are the values at these positions, and the cursor is then after the last. -/
  read_ok : ∀ m xs c, read ts (Cursor.start m) = (.ok xs, c) →
    m.Holds (positioned 0 (values ts xs)) ∧ c = ⟨m, ks.length⟩
  /-- Otherwise the cursor is left at the first position that does not fit. -/
  read_error : ∀ m e c, read ts (Cursor.start m) = (.error e, c) →
    ∃ i kind, ks[i]? = some kind ∧ m.LaidOut 0 (ks.take i) ∧ m.Misfit (decimal i) kind e ∧
      c = ⟨m, i⟩
  /-- Arguments that are written to a message without entries make up its entries, and the keys
  of these are the positions, each with its kind. -/
  write_ok : ∀ xs method limit c,
    write ts xs (Cursor.start (Message.withLimit method limit)) = (.ok (), c) →
    c.message.entries.entries.Perm (positioned 0 (values ts xs)) ∧ c.next = ks.length ∧
      ∀ key kind, c.message.kind? key = some kind ↔ ∃ i, key = decimal i ∧ ks[i]? = some kind
  /-- If a value has no room, the entries are those which were written before it. -/
  write_error : ∀ xs method limit e c,
    write ts xs (Cursor.start (Message.withLimit method limit)) = (.error e, c) →
    ∃ before v after, values ts xs = before ++ v :: after ∧
      c.message.entries.entries.Perm (positioned 0 before) ∧ c.next = before.length ∧
      c.message.set (decimal c.next) v = .error e

/-- Values under their positions are all entries of a message that had none. -/
theorem perm_of_setAll {vs : List Value} {method : String} {limit : Nat} {m : Message}
    (h : (Message.withLimit method limit).setAll (positioned 0 vs) = .ok m) :
    m.entries.entries.Perm (positioned 0 vs) := by
  have fresh := (Message.fresh_withLimit method limit _).mpr (nodup_positioned 0 vs)
  have perm := (Message.setAll_fresh fresh h).2.2
  rwa [show (Message.withLimit method limit).entries.entries = [] from rfl, List.append_nil]
    at perm

/-- The keys of such a message are the positions. -/
theorem kind?_of_perm {vs : List Value} {m : Message}
    (perm : m.entries.entries.Perm (positioned 0 vs)) (key : String) (kind : Kind) :
    m.kind? key = some kind ↔ ∃ i, key = decimal i ∧ (vs.map Value.kind)[i]? = some kind := by
  have held : ∀ v, m.get? key = some v ↔ ∃ i, key = decimal i ∧ vs[i]? = some v := by
    intro v
    rw [Message.get?, KeyMap.get?_eq_some_iff, perm.mem_iff, mem_positioned_iff]
    simp only [Nat.zero_add]
  rw [Message.kind?_eq_some_iff]
  simp only [held, List.getElem?_map, Option.map_eq_some_iff]
  constructor
  · rintro ⟨v, ⟨i, at_i, value⟩, kind_eq⟩
    exact ⟨i, at_i, v, value, kind_eq⟩
  · rintro ⟨i, at_i, v, value, kind_eq⟩
    exact ⟨v, ⟨i, at_i, value⟩, kind_eq⟩

/-- **The kinds of wire types are the layout of their arguments**, in every message that is read
and in every message that is written. -/
theorem kinds_layout (ts : List WireType) : Layout ts (kinds ts) where
  read_iff := fun m => exists_read_iff (c := Cursor.start m)
  read_ok := by
    intro m xs c read
    have holds : m.Holds (positioned 0 (values ts xs)) := holds_of_read (c := Cursor.start m) read
    have again := read_of_holds (c := Cursor.start m) holds
    rw [read, length_values] at again
    refine ⟨holds, (Prod.mk.inj again).2.trans ?_⟩
    exact congrArg (Cursor.mk m) (Nat.zero_add _)
  read_error := by
    intro m e c read
    obtain ⟨i, kind, listed, laid, misfit, rfl⟩ := unfit_of_read (c := Cursor.start m) read
    rw [show (Cursor.start m).next + i = i from Nat.zero_add i] at misfit ⊢
    exact ⟨i, kind, listed, laid, misfit, rfl⟩
  write_ok := by
    intro xs method limit c write
    obtain ⟨set, next⟩ := setAll_of_write write
    have perm := perm_of_setAll set
    refine ⟨perm, next.trans (Nat.zero_add _), ?_⟩
    rw [← map_kind_values ts xs]
    exact kind?_of_perm perm
  write_error := by
    intro xs method limit e c write
    obtain ⟨before, v, after, parts, set, next, full⟩ := full_of_write write
    exact ⟨before, v, after, parts, perm_of_setAll set, next.trans (Nat.zero_add _), full⟩

/-- The unit type has no position, so a word stands where the string should: at the second. -/
example : (read [.keyed .word, .unit, .keyed .string] (Cursor.start
    ((Message.empty "m").edits [.set "0" (.word 7), .set "1" (.word 8)]))).2.next = 1 := by
  decide

end Args

/-- Arguments that are not read have a position that does not fit. -/
theorem Method.misfit_of_argsOf {m : Method} {request : Message} {e : MessageError}
    (h : m.argsOf request = .error e) :
    ∃ i kind, i < m.arity ∧ request.Misfit (decimal i) kind e := by
  obtain ⟨i, kind, listed, -, misfit, -⟩ :=
    Args.unfit_of_read (c := Cursor.start request) (Prod.ext h rfl)
  refine ⟨i, kind, ?_, ?_⟩
  · have lt : i < (Args.kinds m.args).length := (List.getElem?_eq_some_iff.mp listed).1
    exact Nat.lt_of_lt_of_le lt (List.length_filterMap_le _ _)
  · rwa [show (Cursor.start request).next + i = i from Nat.zero_add i] at misfit

end KeyedRpc
