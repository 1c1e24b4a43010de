/-
# Maps keyed by text

A `KeyMap` holds at most one value under each key and lists its entries in ascending
order of their keys' bytes, so a map has one list form: two maps with the same entries
are equal.
-/
import KeyedRpc.Measure
import KeyedRpc.Text.Utf8

namespace KeyedRpc

open Utf8 (Precedes)

universe u

/-- A finite map from texts, as the list of its entries in strictly ascending key order. -/
structure KeyMap (α : Type u) where
  entries : List (String × α)
  ascending : entries.Pairwise fun a b => Precedes a.1 b.1

namespace KeyMap

variable {α : Type u}

instance [DecidableEq α] : DecidableEq (KeyMap α) := fun m n =>
  decidable_of_iff (m.entries = n.entries) ⟨fun h => by cases m; cases n; cases h; rfl,
    fun h => h ▸ rfl⟩

/-- Maps with the same entries are the same. -/
@[ext] theorem ext {m n : KeyMap α} (h : m.entries = n.entries) : m = n := by
  cases m
  cases n
  cases h
  rfl

/-- The map without entries. -/
def empty : KeyMap α := ⟨[], List.Pairwise.nil⟩

instance : Inhabited (KeyMap α) := ⟨empty⟩

@[simp] theorem entries_empty : (empty : KeyMap α).entries = [] := rfl

/-- The number of entries. -/
def size (m : KeyMap α) : Nat := m.entries.length

/-- The value under a key. -/
def get? (m : KeyMap α) (key : String) : Option α := m.entries.lookup key

/-- Whether there is a value under a key. -/
def contains (m : KeyMap α) (key : String) : Bool := (m.get? key).isSome

/-! ## Putting a value under a key -/

/-- Puts a value in its place in an ascending list of entries; a value that the key had
is replaced. -/
def insertEntry (key : String) (value : α) : List (String × α) → List (String × α)
  | [] => [(key, value)]
  | entry :: rest =>
    if Precedes key entry.1 then (key, value) :: entry :: rest
    else if key = entry.1 then (key, value) :: rest
    else entry :: insertEntry key value rest

/-- An entry of the list after a value is put in is the new one, or was there before. -/
theorem mem_insertEntry {key : String} {value : α} {a : String × α} {l : List (String × α)}
    (h : a ∈ insertEntry key value l) : a = (key, value) ∨ a ∈ l := by
  induction l with
  | nil => exact Or.inl (List.mem_singleton.mp h)
  | cons entry rest ih =>
    unfold insertEntry at h
    by_cases before : Precedes key entry.1
    · rw [if_pos before] at h
      exact List.mem_cons.mp h
    rw [if_neg before] at h
    by_cases same : key = entry.1
    · rw [if_pos same] at h
      rcases List.mem_cons.mp h with eq | mem
      · exact Or.inl eq
      · exact Or.inr (List.mem_cons_of_mem _ mem)
    · rw [if_neg same] at h
      rcases List.mem_cons.mp h with eq | mem
      · exact Or.inr (eq ▸ List.mem_cons_self)
      · rcases ih mem with eq | old
        · exact Or.inl eq
        · exact Or.inr (List.mem_cons_of_mem _ old)

/-- Keys stay in ascending order when a value is put in. -/
theorem ascending_insertEntry (key : String) (value : α) {l : List (String × α)}
    (h : l.Pairwise fun a b => Precedes a.1 b.1) :
    (insertEntry key value l).Pairwise fun a b => Precedes a.1 b.1 := by
  induction l with
  | nil => exact List.pairwise_singleton _ _
  | cons entry rest ih =>
    obtain ⟨first, later⟩ := List.pairwise_cons.mp h
    unfold insertEntry
    by_cases before : Precedes key entry.1
    · rw [if_pos before]
      refine List.pairwise_cons.mpr ⟨fun b mem => ?_, h⟩
      rcases List.mem_cons.mp mem with eq | mem
      · exact eq ▸ before
      · exact before.trans (first b mem)
    rw [if_neg before]
    by_cases same : key = entry.1
    · rw [if_pos same]
      refine List.pairwise_cons.mpr ⟨fun b mem => ?_, later⟩
      exact same ▸ first b mem
    · rw [if_neg same]
      refine List.pairwise_cons.mpr ⟨fun b mem => ?_, ih later⟩
      rcases mem_insertEntry mem with eq | mem
      · exact eq ▸ Utf8.precedes_of_not before same
      · exact first b mem

/-- Puts a value under a key, in place of the value that the key had. -/
def insert (m : KeyMap α) (key : String) (value : α) : KeyMap α :=
  ⟨insertEntry key value m.entries, ascending_insertEntry key value m.ascending⟩

/-- A look-up stops at the first entry with the key. -/
theorem lookup_cons (key : String) (entry : String × α) (l : List (String × α)) :
    (entry :: l).lookup key = if key = entry.1 then some entry.2 else l.lookup key := by
  obtain ⟨k, v⟩ := entry
  rw [List.lookup_cons]
  by_cases same : key = k
  · rw [beq_iff_eq.mpr same, if_pos same]
  · rw [beq_eq_false_iff_ne.mpr same, if_neg same]

/-- The key that a value is put under has that value, and all other keys have what they had. -/
theorem get?_insert (m : KeyMap α) (key : String) (value : α) (k : String) :
    (m.insert key value).get? k = if k = key then some value else m.get? k := by
  obtain ⟨l, h⟩ := m
  show (insertEntry key value l).lookup k = if k = key then some value else l.lookup k
  clear h
  induction l with
  | nil => rw [insertEntry, lookup_cons]
  | cons entry rest ih =>
    by_cases before : Precedes key entry.1
    · rw [insertEntry, if_pos before, lookup_cons]
    · by_cases same : key = entry.1
      · rw [insertEntry, if_neg before, if_pos same, lookup_cons, lookup_cons, same]
        by_cases e : k = entry.1
        · rw [if_pos e, if_pos e]
        · rw [if_neg e, if_neg e, if_neg e]
      · rw [insertEntry, if_neg before, if_neg same, lookup_cons, lookup_cons, ih]
        by_cases e : k = entry.1
        · have other : k ≠ key := fun eq => same (eq.symm.trans e)
          rw [if_pos e, if_neg other, if_pos e]
        · rw [if_neg e, if_neg e]

/-! ## Keys -/

/-- A map with a value put in has one key more, unless it had the key before. -/
theorem contains_insert (m : KeyMap α) (key : String) (value : α) (k : String) :
    (m.insert key value).contains k = true ↔ k = key ∨ m.contains k = true := by
  unfold contains
  rw [get?_insert]
  by_cases e : k = key
  · simp [e]
  · simp [e]

/-- A key that stands in no entry is not in the map. -/
theorem contains_eq_false_iff (m : KeyMap α) (key : String) :
    m.contains key = false ↔ ∀ entry ∈ m.entries, entry.1 ≠ key := by
  have lookup : m.contains key = false ↔ m.entries.lookup key = none := by
    simp [contains, get?]
  rw [lookup, List.lookup_eq_none_iff]
  constructor
  · intro h entry mem same
    exact bne_iff_ne.mp (h entry mem) same.symm
  · intro h entry mem
    exact bne_iff_ne.mpr (h entry mem).symm

/-- No key stands in two entries. -/
theorem nodup_keys (m : KeyMap α) : (m.entries.map Prod.fst).Nodup := by
  rw [List.Nodup, List.pairwise_map]
  exact m.ascending.imp Precedes.ne

/-- In a list that has each key once, a key is looked up to the value that stands with it. -/
theorem lookup_eq_some_iff_mem {l : List (String × α)} (distinct : (l.map Prod.fst).Nodup)
    {key : String} {value : α} : l.lookup key = some value ↔ (key, value) ∈ l := by
  induction l with
  | nil => simp
  | cons entry rest ih =>
    rw [List.map_cons, List.nodup_cons] at distinct
    rw [lookup_cons, List.mem_cons]
    by_cases same : key = entry.1
    · subst same
      have other : (entry.1, value) ∉ rest := by
        intro mem
        exact distinct.1 (List.mem_map.mpr ⟨_, mem, rfl⟩)
      simp [other, Prod.ext_iff, eq_comm]
    · simp [same, Prod.ext_iff, ih distinct.2]

/-- The entries of a map are the keys with the values that they have. -/
theorem get?_eq_some_iff {m : KeyMap α} {key : String} {value : α} :
    m.get? key = some value ↔ (key, value) ∈ m.entries :=
  lookup_eq_some_iff_mem m.nodup_keys

/-- A value that a key has stands in an entry. -/
theorem mem_of_get? {m : KeyMap α} {key : String} {value : α} (h : m.get? key = some value) :
    (key, value) ∈ m.entries :=
  get?_eq_some_iff.mp h

/-! ## Entries in any order -/

/-- A map is given by its entries in any order. -/
theorem eq_of_perm {m n : KeyMap α} (h : m.entries.Perm n.entries) : m = n := by
  apply ext
  refine List.Perm.eq_of_pairwise ?_ m.ascending n.ascending h
  intro a b _ _ before after
  exact absurd after before.asymm

/-- Entries in any order are looked up as in the map. -/
theorem lookup_of_perm {m : KeyMap α} {l : List (String × α)} (h : m.entries.Perm l)
    (key : String) : l.lookup key = m.get? key := by
  have distinct : (l.map Prod.fst).Nodup := (h.map Prod.fst).nodup_iff.mp m.nodup_keys
  apply Option.ext
  intro value
  rw [lookup_eq_some_iff_mem distinct, get?_eq_some_iff, h.mem_iff]

/-- A map is given by the values that its keys have. -/
theorem eq_of_get? {m n : KeyMap α} (h : ∀ key, m.get? key = n.get? key) : m = n := by
  have nodup : ∀ k : KeyMap α, k.entries.Nodup := by
    intro k
    refine k.ascending.imp fun before same => ?_
    exact before.ne (congrArg Prod.fst same)
  apply eq_of_perm
  rw [List.perm_ext_iff_of_nodup (nodup m) (nodup n)]
  rintro ⟨key, value⟩
  rw [← get?_eq_some_iff, ← get?_eq_some_iff, h key]

/-- A value under a key that stands in no entry is one more entry. -/
theorem perm_insertEntry {key : String} (value : α) {l : List (String × α)}
    (absent : ∀ entry ∈ l, entry.1 ≠ key) :
    (insertEntry key value l).Perm ((key, value) :: l) := by
  induction l with
  | nil => exact List.Perm.refl _
  | cons entry rest ih =>
    obtain ⟨other, absent⟩ := List.forall_mem_cons.mp absent
    unfold insertEntry
    by_cases before : Precedes key entry.1
    · rw [if_pos before]
    · rw [if_neg before, if_neg other.symm]
      exact ((ih absent).cons entry).trans (List.Perm.swap _ _ _)

/-- A value under a new key is one more entry. -/
theorem perm_insert (m : KeyMap α) {key : String} (value : α) (absent : m.contains key = false) :
    (m.insert key value).entries.Perm ((key, value) :: m.entries) :=
  perm_insertEntry value ((m.contains_eq_false_iff key).mp absent)

/-! ## Sums over the entries -/

/-- The sum of a measure over all entries. -/
def total (measure : String → α → Nat) (m : KeyMap α) : Nat :=
  sumOf (fun entry => measure entry.1 entry.2) m.entries

@[simp] theorem total_empty (measure : String → α → Nat) : (empty : KeyMap α).total measure = 0 :=
  rfl

/-- A key that comes before all others is not found. -/
theorem lookup_eq_none_of_precedes {key : String} {l : List (String × α)}
    (h : ∀ entry ∈ l, Precedes key entry.1) : l.lookup key = none := by
  induction l with
  | nil => rfl
  | cons entry rest ih =>
    rw [lookup_cons, if_neg (h entry List.mem_cons_self).ne]
    exact ih fun e mem => h e (List.mem_cons_of_mem _ mem)

/-- Putting a value under a key adds its measure and takes away the measure of the value
it replaces. -/
theorem total_insert (measure : String → α → Nat) (m : KeyMap α) (key : String) (value : α) :
    (m.insert key value).total measure + ((m.get? key).map (measure key)).getD 0
      = m.total measure + measure key value := by
  obtain ⟨l, h⟩ := m
  simp only [total, insert, get?]
  induction l with
  | nil => simp [insertEntry]
  | cons entry rest ih =>
    obtain ⟨first, later⟩ := List.pairwise_cons.mp h
    -- The key comes before the first one and is new, is the first one, or comes later.
    by_cases before : Precedes key entry.1
    · have absent : (entry :: rest).lookup key = none := by
        apply lookup_eq_none_of_precedes
        intro e mem
        rcases List.mem_cons.mp mem with eq | mem
        · exact eq ▸ before
        · exact before.trans (first e mem)
      simp only [insertEntry, before, if_true, absent]
      simp [Nat.add_comm]
    · by_cases same : key = entry.1
      · have replaced : insertEntry key value (entry :: rest) = (key, value) :: rest := by
          rw [insertEntry, if_neg before, if_pos same]
        have found : (entry :: rest).lookup key = some entry.2 := by
          rw [lookup_cons, if_pos same]
        simp only [replaced, found, sumOf_cons, Option.map_some,
          Option.getD_some, ← same]
        omega
      · have sum := ih later
        simp only [insertEntry, before, same, if_false, lookup_cons, sumOf_cons]
        omega

/-- The measure of a value that the map holds is part of the sum. -/
theorem measure_get?_le_total (measure : String → α → Nat) (m : KeyMap α) (key : String) :
    ((m.get? key).map (measure key)).getD 0 ≤ m.total measure := by
  obtain ⟨l, h⟩ := m
  simp only [total, get?]
  clear h
  induction l with
  | nil => simp
  | cons entry rest ih =>
    by_cases same : key = entry.1
    · rw [lookup_cons, if_pos same, sumOf_cons, same]
      exact Nat.le_add_right _ _
    · rw [lookup_cons, if_neg same, sumOf_cons]
      omega

end KeyMap

end KeyedRpc
