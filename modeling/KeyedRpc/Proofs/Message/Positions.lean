/-
# Arguments by position

Arguments and results are values under the numbers of their positions; the unit type takes up
none. Writing arguments is putting these entries into a message one after another
(`Method.withArgs_eq_setAll`), up to the first that has no room (`Message.setAll_of_full`).
Arguments are read from a message if and only if it holds their entries
(`Method.argsOf_eq_ok_iff`).
-/
import KeyedRpc.Method.Basic
import KeyedRpc.Proofs.Message.Histories

namespace KeyedRpc

open Numeral (decimal)

/-! ## Positions -/

/-- The values that contents of a wire type take up. -/
def WireType.values : (t : WireType) → t.Carrier → List Value
  | .unit, _ => []
  | .keyed kind, x => [Value.of kind x]

/-- The values that arguments take up, from left to right. -/
def Args.values : (ts : List WireType) → Args ts → List Value
  | [], _ => []
  | t :: ts, (x, xs) => t.values x ++ values ts xs

/-- Values under the numbers of their positions, counted from `n` on. -/
def positioned (n : Nat) : List Value → List (String × Value)
  | [] => []
  | v :: vs => (decimal n, v) :: positioned (n + 1) vs

/-- The positions of values in a row go on from one part to the next. -/
theorem positioned_append (n : Nat) (vs ws : List Value) :
    positioned n (vs ++ ws) = positioned n vs ++ positioned (n + vs.length) ws := by
  induction vs generalizing n with
  | nil => rfl
  | cons v vs ih =>
    rw [List.cons_append, positioned, ih, positioned, List.cons_append, List.length_cons,
      Nat.add_assoc, Nat.add_comm 1]

/-- The keys of positions from a number on are numerals of it and of later ones. -/
theorem key_of_mem_positioned {n : Nat} {vs : List Value} {entry : String × Value}
    (mem : entry ∈ positioned n vs) : ∃ i, n ≤ i ∧ entry.1 = decimal i := by
  induction vs generalizing n with
  | nil => cases mem
  | cons v vs ih =>
    rcases List.mem_cons.mp mem with rfl | mem
    · exact ⟨n, Nat.le_refl n, rfl⟩
    · obtain ⟨i, le, key⟩ := ih mem
      exact ⟨i, by omega, key⟩

/-- No position comes twice. -/
theorem nodup_positioned (n : Nat) (vs : List Value) :
    ((positioned n vs).map Prod.fst).Nodup := by
  induction vs generalizing n with
  | nil => exact List.nodup_nil
  | cons v vs ih =>
    rw [positioned, List.map_cons, List.nodup_cons]
    refine ⟨?_, ih (n + 1)⟩
    intro mem
    obtain ⟨entry, mem, same⟩ := List.mem_map.mp mem
    obtain ⟨i, le, key⟩ := key_of_mem_positioned mem
    have eq : i = n := Numeral.decimal_injective (key.symm.trans same)
    omega

/-! ## Putting in several entries -/

namespace Message

/-- To put in two lists in a row is to put in the first, and then the second. -/
theorem setAll_append (m : Message) (l k : List (String × Value)) :
    m.setAll (l ++ k) = m.setAll l >>= fun n => n.setAll k :=
  List.foldlM_append

theorem setAll_singleton (m : Message) (entry : String × Value) :
    m.setAll [entry] = m.set entry.1 entry.2 := by
  rw [setAll_cons]
  cases m.set entry.1 entry.2 <;> rfl

/-- Other keys are as they were. -/
theorem get?_setAll_of_absent {l : List (String × Value)} {m n : Message}
    (h : m.setAll l = .ok n) {key : String} (absent : key ∉ l.map Prod.fst) :
    n.get? key = m.get? key := by
  induction l generalizing m with
  | nil =>
    cases h
    rfl
  | cons entry l ih =>
    rw [setAll_cons, bind_eq_ok_iff] at h
    obtain ⟨m', set, rest⟩ := h
    rw [List.map_cons, List.mem_cons, not_or] at absent
    rw [ih rest absent.2, get?_set set, if_neg absent.1]

/-- Each key of the list holds its value, if none comes twice. -/
theorem get?_setAll {l : List (String × Value)} {m n : Message}
    (distinct : (l.map Prod.fst).Nodup) (h : m.setAll l = .ok n) :
    ∀ entry ∈ l, n.get? entry.1 = some entry.2 := by
  induction l generalizing m with
  | nil => simp
  | cons entry l ih =>
    rw [setAll_cons, bind_eq_ok_iff] at h
    obtain ⟨m', set, rest⟩ := h
    rw [List.map_cons, List.nodup_cons] at distinct
    rw [List.forall_mem_cons]
    refine ⟨?_, ih distinct.2 rest⟩
    rw [get?_setAll_of_absent rest distinct.1, get?_set set, if_pos rfl]

/-- New entries add their bytes. -/
theorem size_setAll {l : List (String × Value)} {m n : Message} (fresh : m.Fresh l)
    (h : m.setAll l = .ok n) :
    n.size = m.size + sumOf (fun entry => entrySize entry.1 entry.2) l := by
  obtain ⟨method, -, perm⟩ := setAll_fresh fresh h
  have size : m.size = headerSize m.method
      + sumOf (fun entry => entrySize entry.1 entry.2) m.entries.entries := m.size_eq
  rw [n.size_eq, method, KeyMap.total, sumOf_perm perm, sumOf_append]
  omega

/-- A message that a list was put into keeps within its limit. -/
theorem size_setAll_le_limit {l : List (String × Value)} {m n : Message} (some : l ≠ [])
    (h : m.setAll l = .ok n) : n.size ≤ n.limit := by
  rcases List.eq_nil_or_concat l with rfl | ⟨before, last, rfl⟩
  · exact absurd rfl some
  · rw [List.concat_eq_append, setAll_append, bind_eq_ok_iff] at h
    obtain ⟨between, -, set⟩ := h
    rw [setAll_singleton] at set
    exact size_le_limit_of_set set

/-- A list is put in, or there is a first entry in it that has no room. -/
theorem setAll_cases (m : Message) (l : List (String × Value)) :
    (∃ n, m.setAll l = .ok n) ∨ ∃ before entry after n, l = before ++ entry :: after ∧
      m.setAll before = .ok n ∧ n.limit < n.needed entry.1 entry.2 ∧
      m.setAll l = .error (.bufferTooSmall (n.needed entry.1 entry.2) n.limit) := by
  induction l generalizing m with
  | nil => exact Or.inl ⟨m, rfl⟩
  | cons first l ih =>
    rcases set : m.set first.1 first.2 with e | m'
    · obtain ⟨full, rfl⟩ := set_eq_error_iff.mp set
      refine Or.inr ⟨[], first, l, m, rfl, rfl, full, ?_⟩
      rw [setAll_cons, set]
      rfl
    · have rest : ∀ k, m.setAll (first :: k) = m'.setAll k := by
        intro k
        rw [setAll_cons, set]
        rfl
      rcases ih m' with ⟨n, all⟩ | ⟨before, entry, after, n, rfl, before_set, full, refused⟩
      · exact Or.inl ⟨n, (rest l).trans all⟩
      · exact Or.inr ⟨first :: before, entry, after, n, rfl, (rest before).trans before_set, full,
          (rest _).trans refused⟩

/-- New entries that have no room are refused with the first that has none: the message would
hold all entries up to that one. -/
theorem setAll_of_full {l : List (String × Value)} {m : Message} (fresh : m.Fresh l)
    (some : l ≠ [])
    (full : m.limit < m.size + sumOf (fun entry => entrySize entry.1 entry.2) l) :
    ∃ before entry after, l = before ++ entry :: after ∧
      (before = [] ∨ m.size + sumOf (fun entry => entrySize entry.1 entry.2) before ≤ m.limit) ∧
      m.limit < m.size + sumOf (fun entry => entrySize entry.1 entry.2) (before ++ [entry]) ∧
      m.setAll l = .error (.bufferTooSmall
        (m.size + sumOf (fun entry => entrySize entry.1 entry.2) (before ++ [entry]))
        m.limit) := by
  rcases m.setAll_cases l with ⟨n, all⟩ | ⟨before, entry, after, n, rfl, set, exceeds, refused⟩
  · -- A message that took all of them keeps within its limit.
    have size := size_setAll fresh all
    have le := size_setAll_le_limit some all
    obtain ⟨-, limit, -⟩ := setAll_fresh fresh all
    omega
  · -- The entry that is refused is new to what the message holds by then.
    obtain ⟨distinct, absent⟩ := fresh
    rw [List.map_append, List.nodup_append] at distinct
    obtain ⟨distinct, -, apart⟩ := distinct
    have fresh : m.Fresh before :=
      ⟨distinct, fun entry mem => absent entry (List.mem_append_left _ mem)⟩
    have new : n.contains entry.1 = false := by
      have notIn : entry.1 ∉ before.map Prod.fst :=
        fun mem => apart _ mem _ List.mem_cons_self rfl
      have old := absent entry (by simp)
      rw [contains, KeyMap.contains] at old ⊢
      rw [← old]
      exact congrArg Option.isSome (get?_setAll_of_absent set notIn)
    obtain ⟨-, limit, -⟩ := setAll_fresh fresh set
    have needed : n.needed entry.1 entry.2
        = m.size + sumOf (fun entry => entrySize entry.1 entry.2) (before ++ [entry]) := by
      rw [needed_of_absent new, size_setAll fresh set, sumOf_append, sumOf_cons, sumOf_nil]
      omega
    rw [needed, limit] at exceeds refused
    refine ⟨before, entry, after, rfl, ?_, exceeds, refused⟩
    by_cases none : before = []
    · exact Or.inl none
    · have le := size_setAll_le_limit none set
      rw [size_setAll fresh set, limit] at le
      exact Or.inr le

end Message

/-! ## Writing -/

/-- Contents are written by putting in the entry that they take up, if any. -/
theorem WireType.write_apply (t : WireType) (x : t.Carrier) (c : Cursor) :
    t.write x c = match c.message.setAll (positioned c.next (t.values x)) with
      | .ok m => (.ok (), ⟨m, c.next + (t.values x).length⟩)
      | .error e => (.error e, c) := by
  cases t with
  | unit => rfl
  | keyed kind =>
    rw [values, positioned, positioned, Message.setAll_singleton]
    rfl

/-- Arguments are written by putting in their entries one after another. -/
theorem Args.write_cases (ts : List WireType) (xs : Args ts) (c : Cursor) :
    (∃ m, c.message.setAll (positioned c.next (values ts xs)) = .ok m ∧
      write ts xs c = (.ok (), ⟨m, c.next + (values ts xs).length⟩)) ∨
    ∃ e c', c.message.setAll (positioned c.next (values ts xs)) = .error e ∧
      write ts xs c = (.error e, c') := by
  induction ts generalizing c with
  | nil => exact Or.inl ⟨c.message, rfl, rfl⟩
  | cons t ts ih =>
    obtain ⟨x, xs⟩ := xs
    have step : write (t :: ts) (x, xs) c = _ := bind_apply (t.write x) (fun _ => write ts xs) c
    rw [step, t.write_apply, values, positioned_append, Message.setAll_append]
    rcases c.message.setAll (positioned c.next (t.values x)) with e | m
    · exact Or.inr ⟨e, c, rfl, rfl⟩
    · dsimp only
      rw [List.length_append, ← Nat.add_assoc]
      exact ih xs ⟨m, c.next + (t.values x).length⟩

namespace Method

variable (m : Method)

/-- Arguments are put into a request under the numbers of their positions. -/
theorem withArgs_eq_setAll (args : Args m.args) (request : Message) :
    m.withArgs args request = request.setAll (positioned 0 (Args.values m.args args)) := by
  have run : (Args.write m.args args).run (Cursor.start request)
      = Args.write m.args args (Cursor.start request) := rfl
  rw [withArgs, run]
  rcases Args.write_cases m.args args (Cursor.start request) with
    ⟨n, set, written⟩ | ⟨e, c, refused, written⟩
  · rw [written]
    exact set.symm
  · rw [written]
    exact refused.symm

/-- A result is put into a reply under the number of its position. -/
theorem withOutput_eq_setAll (output : m.output.Carrier) (reply : Message) :
    m.withOutput output reply = reply.setAll (positioned 0 (m.output.values output)) := by
  have run : (m.output.write output).run (Cursor.start reply)
      = m.output.write output (Cursor.start reply) := rfl
  rw [withOutput, run, WireType.write_apply]
  have start : (Cursor.start reply).message.setAll
      (positioned (Cursor.start reply).next (m.output.values output))
        = reply.setAll (positioned 0 (m.output.values output)) := rfl
  rw [start]
  cases reply.setAll (positioned 0 (m.output.values output)) <;> rfl

end Method

/-! ## Reading -/

/-- A message holds entries if each of their keys has its value. -/
def Message.Holds (m : Message) (l : List (String × Value)) : Prop :=
  ∀ entry ∈ l, m.get? entry.1 = some entry.2

theorem Message.holds_pair_iff {m : Message} {a b : String × Value} :
    m.Holds [a, b] ↔ m.get? a.1 = some a.2 ∧ m.get? b.1 = some b.2 := by
  rw [Message.Holds, List.forall_mem_cons, List.forall_mem_singleton]

/-- Contents are read from the entry that they take up, if any. -/
theorem WireType.read_of_holds {t : WireType} {x : t.Carrier} {c : Cursor}
    (holds : c.message.Holds (positioned c.next (t.values x))) :
    t.read c = (.ok x, ⟨c.message, c.next + (t.values x).length⟩) := by
  cases t with
  | unit => rfl
  | keyed kind =>
    have held : c.message.get kind c.key = .ok x :=
      Message.get_of_get? (holds _ List.mem_cons_self)
    show Cursor.pull kind c = _
    rw [Cursor.pull, held]
    rfl

/-- Arguments are read one after another, up to the first that fails. -/
theorem Args.read_cons (t : WireType) (ts : List WireType) (c : Cursor) :
    read (t :: ts) c = match t.read c with
      | (.error e, c) => (.error e, c)
      | (.ok x, c) => match read ts c with
        | (.error e, c) => (.error e, c)
        | (.ok xs, c) => (.ok (x, xs), c) := by
  have step : read (t :: ts) c = _ :=
    bind_apply t.read (fun x => read ts >>= fun xs => pure (x, xs)) c
  rw [step]
  rcases t.read c with ⟨e | x, between⟩
  · rfl
  · dsimp only
    rw [bind_apply]
    rcases read ts between with ⟨e | xs, after⟩ <;> rfl

/-- Arguments are read from a message that holds their entries. -/
theorem Args.read_of_holds {ts : List WireType} {xs : Args ts} {c : Cursor}
    (holds : c.message.Holds (positioned c.next (values ts xs))) :
    read ts c = (.ok xs, ⟨c.message, c.next + (values ts xs).length⟩) := by
  induction ts generalizing c with
  | nil => rfl
  | cons t ts ih =>
    obtain ⟨x, xs⟩ := xs
    rw [values, positioned_append] at holds
    obtain ⟨first, rest⟩ := List.forall_mem_append.mp holds
    have read_first := WireType.read_of_holds first
    have read_rest : read ts ⟨c.message, c.next + (t.values x).length⟩ = (.ok xs,
        ⟨c.message, c.next + (t.values x).length + (values ts xs).length⟩) := ih rest
    rw [read_cons, read_first]
    dsimp only
    rw [read_rest, values, List.length_append, ← Nat.add_assoc]

/-- A message from which contents are read holds the entry that they take up, if any. -/
theorem WireType.holds_of_read {t : WireType} {x : t.Carrier} {c c' : Cursor}
    (h : t.read c = (.ok x, c')) :
    c.message.Holds (positioned c.next (t.values x)) ∧
      c' = ⟨c.message, c.next + (t.values x).length⟩ := by
  cases t with
  | unit =>
    cases h
    exact ⟨List.forall_mem_nil _, rfl⟩
  | keyed kind =>
    have pulled : Cursor.pull kind c = (.ok x, c') := h
    unfold Cursor.pull at pulled
    rcases held : c.message.get kind c.key with e | contents
    · rw [held] at pulled
      cases pulled
    · rw [held] at pulled
      cases pulled
      exact ⟨List.forall_mem_singleton.mpr (Message.get?_of_get held), rfl⟩

/-- A message from which arguments are read holds their entries. -/
theorem Args.holds_of_read {ts : List WireType} {xs : Args ts} {c c' : Cursor}
    (h : read ts c = (.ok xs, c')) : c.message.Holds (positioned c.next (values ts xs)) := by
  induction ts generalizing c with
  | nil => exact List.forall_mem_nil _
  | cons t ts ih =>
    rw [read_cons] at h
    rcases first : t.read c with ⟨e | x, between⟩
    · rw [first] at h
      cases h
    · rw [first] at h
      dsimp only at h
      rcases others : read ts between with ⟨e | rest, after⟩
      · rw [others] at h
        cases h
      · rw [others] at h
        cases h
        obtain ⟨holds, rfl⟩ := WireType.holds_of_read first
        rw [values, positioned_append]
        exact List.forall_mem_append.mpr ⟨holds, ih others⟩

namespace Method

variable {m : Method}

/-- Arguments are found in a request if and only if it holds them at their positions. -/
theorem argsOf_eq_ok_iff {args : Args m.args} {request : Message} :
    m.argsOf request = .ok args ↔ request.Holds (positioned 0 (Args.values m.args args)) := by
  constructor
  · intro read
    exact Args.holds_of_read (c := Cursor.start request) (Prod.ext read rfl)
  · intro holds
    have read := Args.read_of_holds (c := Cursor.start request) holds
    exact congrArg Prod.fst read

/-- A result is found in a reply that holds it at its position. -/
theorem outputOf_of_holds {output : m.output.Carrier} {reply : Message}
    (holds : reply.Holds (positioned 0 (m.output.values output))) :
    m.outputOf reply = .ok output := by
  have read := WireType.read_of_holds (c := Cursor.start reply) holds
  exact congrArg Prod.fst read

end Method

end KeyedRpc
