/-
# Reads see what was written

An access to a store names words in a row, and goes through if it ends within the store. A read
gives the words that it names as they are. A write replaces the words that it names and no
others, so a read after it gives the new words where the two meet and the old ones elsewhere, and
writes that do not meet can change places (`Memory.reads_see_writes`). After any accesses each
word is the one that was written to it last, or as it was if none was
(`Memory.getElem?_words_afterAll`).

An access that goes past the end is refused, and so is one to no words if it starts there: it
touches no word at all, but its address is looked at all the same (`Memory.refused_iff`).
-/
import KeyedRpc.Proofs.Memory.Array

namespace KeyedRpc

/-! ## The words of an access -/

namespace Hub

/-- An access touches the words in a row from its address on. -/
def Touches (address : UInt32) (count i : Nat) : Prop :=
  address.toNat ≤ i ∧ i < address.toNat + count

instance (address : UInt32) (count i : Nat) : Decidable (Touches address count i) :=
  inferInstanceAs (Decidable (_ ∧ _))

theorem not_touches_zero (address : UInt32) (i : Nat) : ¬ Touches address 0 i :=
  fun touched => Nat.not_le_of_lt touched.2 touched.1

/-- An access exceeds a store if it touches a word past its end. -/
def Exceeded (hub : Hub) (address : UInt32) (count : Nat) : Prop :=
  ∃ i, Touches address count i ∧ hub.size ≤ i

theorem not_exceeded_zero (hub : Hub) (address : UInt32) : ¬ hub.Exceeded address 0 :=
  fun ⟨i, touched, _⟩ => not_touches_zero address i touched

/-- An access ends past the end of the store if it touches a word there. Only an access to no
words ends there without touching a word. -/
theorem size_lt_iff {hub : Hub} {address : UInt32} {count : Nat} :
    hub.size < address.toNat + count ↔
      hub.Exceeded address count ∨ count = 0 ∧ hub.size < address.toNat := by
  constructor
  · intro outside
    rcases Nat.eq_zero_or_pos count with rfl | positive
    · exact Or.inr ⟨rfl, outside⟩
    · -- The last word is past the end.
      refine Or.inl ⟨address.toNat + count - 1, ⟨?_, ?_⟩, ?_⟩
      all_goals omega
  · rintro (⟨i, touched, past⟩ | ⟨rfl, outside⟩)
    · exact Nat.lt_of_le_of_lt past touched.2
    · exact outside

/-- A store is told by its words. -/
theorem eq_of_getElem?_words {h h' : Hub} (same : ∀ i : Nat, h.words[i]? = h'.words[i]?) :
    h = h' := by
  cases h
  cases h'
  exact congrArg Hub.mk (List.ext_getElem? same)

/-- After a write, the words that it touches are new and all others are old. -/
theorem Wrote.getElem?_words {before after : Hub} {address : UInt32} {data : List UInt32}
    (wrote : before.Wrote after address data) (i : Nat) :
    after.words[i]? = if Touches address data.length i then data[i - address.toNat]?
      else before.words[i]? := by
  by_cases touched : Touches address data.length i
  · have within : i - address.toNat < data.length := by
      obtain ⟨le, lt⟩ := touched
      omega
    have new := wrote.replaced (i - address.toNat) within
    rw [Nat.add_sub_cancel' touched.1] at new
    rw [new, if_pos touched]
  · rw [if_neg touched]
    unfold Touches at touched
    exact wrote.kept i (by omega)

/-- Writes that touch no word in common leave the same store in either order. -/
theorem Wrote.comm {hub after after' both both' : Hub} {address address' : UInt32}
    {data data' : List UInt32}
    (apart : ∀ i, Touches address data.length i → ¬ Touches address' data'.length i)
    (first : hub.Wrote after address data) (second : after.Wrote both address' data')
    (first' : hub.Wrote after' address' data') (second' : after'.Wrote both' address data) :
    both = both' := by
  refine eq_of_getElem?_words fun i => ?_
  rw [second.getElem?_words, first.getElem?_words, second'.getElem?_words, first'.getElem?_words]
  by_cases touched : Touches address data.length i
  · rw [if_pos touched, if_pos touched, if_neg (apart i touched)]
  · rw [if_neg touched, if_neg touched]

/-! ## Ends in 64 bits -/

/-- Where an access ends, as a number of 64 bits, unless the sum wraps around. -/
def stop? (address : UInt32) (count : UInt64) : Option UInt64 :=
  let stop := address.toUInt64 + count
  if stop < count then none else some stop

/-- The sum wraps around just if it has no place in 64 bits. -/
theorem stop?_eq_some_iff {address : UInt32} {count stop : UInt64} :
    stop? address count = some stop ↔ stop.toNat = address.toNat + count.toNat := by
  have small := address.toNat_lt
  have sum : (address.toUInt64 + count).toNat = (address.toNat + count.toNat) % 2 ^ 64 := by
    rw [UInt64.toNat_add, UInt32.toNat_toUInt64]
  have bound := count.toNat_lt
  have bound' := stop.toNat_lt
  unfold stop?
  dsimp only
  by_cases wrapped : address.toUInt64 + count < count
  · rw [if_pos wrapped]
    rw [UInt64.lt_iff_toNat_lt, sum] at wrapped
    constructor
    · intro eq
      cases eq
    · intro exact
      omega
  · rw [if_neg wrapped]
    rw [UInt64.lt_iff_toNat_lt, sum] at wrapped
    rw [Option.some_inj, ← UInt64.toNat_inj, sum]
    omega

/-- An access ends within a store of a 64-bit machine if its end does, without wrapping around. -/
theorem exists_stop?_iff {hub : Hub} {address : UInt32} {count : UInt64}
    (size : hub.size < 2 ^ 64) :
    (∃ stop, stop? address count = some stop ∧ stop.toNat ≤ hub.size) ↔
      address.toNat + count.toNat ≤ hub.size := by
  constructor
  · rintro ⟨stop, exact, inside⟩
    rwa [stop?_eq_some_iff.mp exact] at inside
  · intro inside
    have stop : (UInt64.ofNat (address.toNat + count.toNat)).toNat
        = address.toNat + count.toNat :=
      UInt64.toNat_ofNat_of_lt (Nat.lt_of_le_of_lt inside size)
    exact ⟨_, stop?_eq_some_iff.mpr stop, Nat.le_trans (Nat.le_of_eq stop) inside⟩

end Hub

namespace Memory

open Hub (Touches stop?)

/-! ## One access -/

section

variable {hub : Hub} {address : UInt32}

/-- A read within the store gives the words that it touches. -/
theorem readWords_of_inside {count : UInt32} (inside : address.toNat + count.toNat ≤ hub.size) :
    ∃ words, readWords address count hub = (.ok words, hub) ∧ words.length = count.toNat ∧
      ∀ i, Touches address count.toNat i → words[i - address.toNat]? = hub.words[i]? := by
  refine ⟨(hub.words.drop address.toNat).take count.toNat, ?_, ?_, fun i touched => ?_⟩
  · unfold readWords Hub.read Hub.check
    rw [if_pos inside]
    rfl
  · unfold Hub.size at inside
    rw [List.length_take, List.length_drop]
    omega
  · obtain ⟨le, lt⟩ := touched
    rw [List.getElem?_take_of_lt (by omega), List.getElem?_drop, Nat.add_sub_cancel' le]

/-- An access past the end fails, and says where the end is. -/
theorem readWords_of_outside {count : UInt32} (outside : hub.size < address.toNat + count.toNat) :
    readWords address count hub = (.error (.outOfRange address count.toNat hub.size), hub) := by
  unfold readWords Hub.read Hub.check
  rw [if_neg (Nat.not_le_of_lt outside)]
  rfl

variable {data : List UInt32}

/-- A write within the store replaces the words that it touches. -/
theorem writeWords_of_inside (inside : address.toNat + data.length ≤ hub.size) :
    ∃ after, writeWords address data hub = (.ok (), after) ∧ hub.Wrote after address data := by
  obtain ⟨after, written⟩ : ∃ after, hub.write address data = .ok after := by
    unfold Hub.write Hub.check
    rw [if_pos inside]
    exact ⟨_, rfl⟩
  refine ⟨after, ?_, Hub.wrote_of_write written⟩
  rw [writeWords, written]

/-- A write past the end changes nothing. -/
theorem writeWords_of_outside (outside : hub.size < address.toNat + data.length) :
    writeWords address data hub = (.error (.outOfRange address data.length hub.size), hub) := by
  have refused : hub.write address data = .error (.outOfRange address data.length hub.size) := by
    unfold Hub.write Hub.check
    rw [if_neg (Nat.not_le_of_lt outside)]
    rfl
  rw [writeWords, refused]

/-- An access that goes through within the store, and fails past its end with one error, fails
nowhere else and with no other error. -/
theorem eq_error_iff {α : Type} {count : Nat} {result : Except MemoryError α} {e : MemoryError}
    (inside : address.toNat + count ≤ hub.size → ∃ x, result = .ok x)
    (outside : hub.size < address.toNat + count →
      result = .error (.outOfRange address count hub.size)) :
    result = .error e ↔
      hub.size < address.toNat + count ∧ e = .outOfRange address count hub.size := by
  rcases Nat.lt_or_ge hub.size (address.toNat + count) with past | within
  · rw [outside past, Except.error.injEq, and_iff_right past, eq_comm]
  · obtain ⟨x, through⟩ := inside within
    rw [through]
    exact iff_of_false (fun failed => by cases failed) fun ⟨past, _⟩ =>
      Nat.not_le_of_lt past within

/-- Reading fails only past the end. -/
theorem readWords_eq_error_iff {count : UInt32} {e : MemoryError} :
    (readWords address count hub).1 = .error e ↔
      hub.size < address.toNat + count.toNat ∧ e = .outOfRange address count.toNat hub.size := by
  refine eq_error_iff (fun inside => ?_) fun outside => by rw [readWords_of_outside outside]
  obtain ⟨words, read, -⟩ := readWords_of_inside inside
  exact ⟨words, by rw [read]⟩

theorem writeWords_eq_error_iff {e : MemoryError} :
    (writeWords address data hub).1 = .error e ↔
      hub.size < address.toNat + data.length ∧ e = .outOfRange address data.length hub.size := by
  refine eq_error_iff (fun inside => ?_) fun outside => by rw [writeWords_of_outside outside]
  obtain ⟨after, written, -⟩ := writeWords_of_inside inside
  exact ⟨(), by rw [written]⟩

/-- Writing succeeds within the store. -/
theorem writeWords_eq_ok_iff :
    (writeWords address data hub).1 = .ok () ↔ address.toNat + data.length ≤ hub.size := by
  constructor
  · intro written
    by_contra outside
    rw [writeWords_of_outside (Nat.lt_of_not_le outside)] at written
    cases written
  · intro inside
    obtain ⟨after, written, -⟩ := writeWords_of_inside inside
    rw [written]

/-- A write that goes through did so within the store. -/
theorem wrote_of_writeWords {after : Hub}
    (written : writeWords address data hub = (.ok (), after)) : hub.Wrote after address data := by
  have inside := writeWords_eq_ok_iff.mp (congrArg Prod.fst written)
  obtain ⟨after', written', wrote⟩ := writeWords_of_inside inside
  rw [written] at written'
  cases written'
  exact wrote

end

/-! ## Two accesses -/

/-- Writes that touch no word in common can change places. Each of them comes to the same, and so
does the store. -/
theorem writeWords_comm {hub : Hub} {address address' : UInt32} {data data' : List UInt32}
    (apart : ∀ i, Touches address data.length i → ¬ Touches address' data'.length i) :
    (do
      let first ← writeWords address data
      let second ← writeWords address' data'
      return (first, second) : StateM Hub _) hub
      = (do
        let second ← writeWords address' data'
        let first ← writeWords address data
        return (first, second) : StateM Hub _) hub := by
  show (((writeWords address data hub).1,
      (writeWords address' data' (writeWords address data hub).2).1),
      (writeWords address' data' (writeWords address data hub).2).2)
    = (((writeWords address data (writeWords address' data' hub).2).1,
      (writeWords address' data' hub).1),
      (writeWords address data (writeWords address' data' hub).2).2)
  rcases Nat.lt_or_ge hub.size (address.toNat + data.length) with outside | inside
  · rw [writeWords_of_outside outside]
    rcases Nat.lt_or_ge hub.size (address'.toNat + data'.length) with outside' | inside'
    · rw [writeWords_of_outside outside', writeWords_of_outside outside]
    · obtain ⟨after', written', wrote'⟩ := writeWords_of_inside inside'
      rw [written', writeWords_of_outside (wrote'.size ▸ outside), wrote'.size]
  · obtain ⟨after, written, wrote⟩ := writeWords_of_inside inside
    rw [written]
    rcases Nat.lt_or_ge hub.size (address'.toNat + data'.length) with outside' | inside'
    · rw [writeWords_of_outside outside', written,
        writeWords_of_outside (wrote.size ▸ outside'), wrote.size]
    · obtain ⟨after', written', wrote'⟩ := writeWords_of_inside inside'
      obtain ⟨both, second, wroteSecond⟩ := writeWords_of_inside (wrote.size ▸ inside')
      obtain ⟨both', second', wroteSecond'⟩ := writeWords_of_inside (wrote'.size ▸ inside)
      rw [second, written', second', wrote.comm apart wroteSecond wrote' wroteSecond']

/-! ## Sequences of accesses -/

namespace Access

/-- The store after an access. -/
def after : Access → Hub → Hub
  | read address count, hub => (readWords address count hub).2
  | write address data, hub => (writeWords address data hub).2

/-- The word that an access puts at an index of a store of so many words, if it puts one there. -/
def puts? (size i : Nat) : Access → Option UInt32
  | read _ _ => none
  | write address data =>
    if address.toNat + data.length ≤ size ∧ Touches address data.length i then
      data[i - address.toNat]?
    else none

/-- An access keeps the number of words. -/
theorem size_after (access : Access) (hub : Hub) : (access.after hub).size = hub.size := by
  cases access with
  | read address count => rfl
  | write address data =>
    show (writeWords address data hub).2.size = hub.size
    rcases Nat.lt_or_ge hub.size (address.toNat + data.length) with outside | inside
    · rw [writeWords_of_outside outside]
    · obtain ⟨after, written, wrote⟩ := writeWords_of_inside inside
      rw [written, wrote.size]

/-- An access changes the words that it puts, and no others. -/
theorem getElem?_words_after (access : Access) (hub : Hub) (i : Nat) :
    (access.after hub).words[i]? = (access.puts? hub.size i).or hub.words[i]? := by
  cases access with
  | read address count => rfl
  | write address data =>
    rw [after, puts?]
    rcases Nat.lt_or_ge hub.size (address.toNat + data.length) with outside | inside
    · rw [writeWords_of_outside outside, if_neg fun puts => Nat.not_le_of_lt outside puts.1,
        Option.none_or]
    · obtain ⟨after, written, wrote⟩ := writeWords_of_inside inside
      rw [written, wrote.getElem?_words]
      by_cases touched : Touches address data.length i
      · have within : i - address.toNat < data.length := by
          obtain ⟨le, lt⟩ := touched
          omega
        rw [if_pos touched, if_pos ⟨inside, touched⟩, List.getElem?_eq_getElem within,
          Option.some_or]
      · rw [if_neg touched, if_neg fun puts => touched puts.2, Option.none_or]

end Access

/-- The store after accesses, one after another. -/
def afterAll (accesses : List Access) (hub : Hub) : Hub :=
  accesses.foldl (fun hub access => access.after hub) hub

/-- Accesses keep the number of words. -/
theorem size_afterAll (accesses : List Access) (hub : Hub) :
    (afterAll accesses hub).size = hub.size := by
  induction accesses generalizing hub with
  | nil => rfl
  | cons access accesses ih => exact (ih (access.after hub)).trans (access.size_after hub)

/-- **A word is the one that was written to it last**, or the one that it was. -/
theorem getElem?_words_afterAll (accesses : List Access) (hub : Hub) (i : Nat) :
    (afterAll accesses hub).words[i]?
      = (accesses.reverse.findSome? (·.puts? hub.size i)).or hub.words[i]? := by
  induction accesses generalizing hub with
  | nil => rfl
  | cons access accesses ih =>
    have rest := ih (access.after hub)
    rw [access.size_after hub, access.getElem?_words_after hub i] at rest
    rw [List.reverse_cons, List.findSome?_append, List.findSome?_singleton, Option.or_assoc]
    exact rest

/-- **Reads see exactly the writes.** A read after a write that went through gives the new word
at each index that the write touched, and the old word elsewhere. A write goes through if it ends
within the store, where the end does not wrap around in 64 bits, and one that does not changes
nothing. Writes that touch no word in common can change places. No sequence of accesses changes
the number of words, and after it each word is the one that was written to it last. -/
theorem reads_see_writes (hub : Hub) :
    (∀ (address : UInt32) (data : List UInt32) (after : Hub),
      writeWords address data hub = (.ok (), after) →
        ∀ start count : UInt32, start.toNat + count.toNat ≤ hub.size →
          ∃ words, readWords start count after = (.ok words, after) ∧
            words.length = count.toNat ∧
            ∀ i, Touches start count.toNat i → words[i - start.toNat]?
              = if Touches address data.length i then data[i - address.toNat]?
                else hub.words[i]?) ∧
    (∀ (address : UInt32) (data : List UInt32),
      ((writeWords address data hub).1 = .ok () ↔ address.toNat + data.length ≤ hub.size) ∧
      (hub.size < 2 ^ 64 → ∀ length : UInt64, data.length = length.toNat →
        ((writeWords address data hub).1 = .ok () ↔
          ∃ stop, stop? address length = some stop ∧ stop.toNat ≤ hub.size)) ∧
      ∀ e after, writeWords address data hub = (.error e, after) → after = hub) ∧
    (∀ (address address' : UInt32) (data data' : List UInt32),
      (∀ i, Touches address data.length i → ¬ Touches address' data'.length i) →
        (do
          let first ← writeWords address data
          let second ← writeWords address' data'
          return (first, second) : StateM Hub _) hub
          = (do
            let second ← writeWords address' data'
            let first ← writeWords address data
            return (first, second) : StateM Hub _) hub) ∧
    ∀ accesses : List Access, (afterAll accesses hub).size = hub.size ∧
      ∀ i : Nat, (afterAll accesses hub).words[i]?
        = (accesses.reverse.findSome? (·.puts? hub.size i)).or hub.words[i]? := by
  refine ⟨fun address data after written start count inside => ?_,
    fun address data => ⟨writeWords_eq_ok_iff, fun size length eq => ?_, fun e after failed => ?_⟩,
    fun address address' data data' apart => writeWords_comm apart,
    fun accesses => ⟨size_afterAll accesses hub, getElem?_words_afterAll accesses hub⟩⟩
  · -- What was written is compared with the store before it word by word, so ranges may overlap.
    have wrote := wrote_of_writeWords written
    obtain ⟨words, read, length, shown⟩ := readWords_of_inside (wrote.size ▸ inside)
    refine ⟨words, read, length, fun i touched => ?_⟩
    rw [shown i touched, wrote.getElem?_words]
  · rw [writeWords_eq_ok_iff, Hub.exists_stop?_iff size, eq]
  · have outside := (writeWords_eq_error_iff.mp (congrArg Prod.fst failed)).1
    rw [writeWords_of_outside outside] at failed
    cases failed
    rfl

/-- A read that meets the end of a write, a write whose end would wrap around, and a write of no
words in the middle of another. -/
theorem reads_see_writes_overlapping :
    writeWords 0 [7, 8] (Hub.zeroed 4) = (.ok (), ⟨[7, 8, 0, 0]⟩) ∧
    (∃ words, readWords 1 2 ⟨[7, 8, 0, 0]⟩ = (.ok words, ⟨[7, 8, 0, 0]⟩) ∧
      words[0]? = some 8 ∧ words[1]? = some 0) ∧
    stop? 1 (UInt64.ofNat (2 ^ 64 - 1)) = none ∧
    (writeWords 3 [7, 8] (Hub.zeroed 4)).1 ≠ .ok () ∧
    (do
      let first ← writeWords 2 []
      let second ← writeWords 1 [7, 8]
      return (first, second) : StateM Hub _) (Hub.zeroed 4)
      = ((.ok (), .ok ()), ⟨[0, 7, 8, 0]⟩) := by
  obtain ⟨seen, through, apart, -⟩ := reads_see_writes (Hub.zeroed 4)
  refine ⟨rfl, ?_, by decide, fun ok => ?_, ?_⟩
  · obtain ⟨words, read, -, shown⟩ := seen 0 [7, 8] ⟨[7, 8, 0, 0]⟩ rfl 1 2 (by decide)
    exact ⟨words, read, shown 1 (by decide), shown 2 (by decide)⟩
  · have inside := ((through 3 [7, 8]).2.1 (by decide) 2 rfl).mp ok
    exact absurd inside (by decide)
  · exact (apart 2 1 [] [7, 8] fun i touched => absurd touched (Hub.not_touches_zero 2 i)).trans rfl

/-! ## Accesses to no words -/

/-- A read of no words gives none, if it starts within the store or at its end. -/
theorem readWords_zero_iff {hub : Hub} {address : UInt32} :
    readWords address 0 hub = (.ok [], hub) ↔ address.toNat ≤ hub.size := by
  constructor
  · intro read
    by_contra past
    have outside : hub.size < address.toNat + (0 : UInt32).toNat := Nat.lt_of_not_le past
    rw [readWords_of_outside outside] at read
    cases read
  · intro le
    have inside : address.toNat + (0 : UInt32).toNat ≤ hub.size := le
    obtain ⟨words, read, length, -⟩ := readWords_of_inside inside
    rw [read, List.eq_nil_of_length_eq_zero length]

/-- A write of no words changes none, if it starts within the store or at its end. -/
theorem writeWords_nil_iff {hub : Hub} {address : UInt32} :
    writeWords address [] hub = (.ok (), hub) ↔ address.toNat ≤ hub.size := by
  constructor
  · intro written
    exact writeWords_eq_ok_iff.mp (congrArg Prod.fst written)
  · intro le
    have inside : address.toNat + ([] : List UInt32).length ≤ hub.size := le
    obtain ⟨after, written, wrote⟩ := writeWords_of_inside inside
    have same : after = hub := by
      refine Hub.eq_of_getElem?_words fun i => ?_
      rw [wrote.getElem?_words]
      exact if_neg (Hub.not_touches_zero address i)
    rw [written, same]

/-- **What is refused.** An access is refused if it touches a word past the end of the store, and
if it touches no word but starts there. The error is the same in both cases, and no access is
refused otherwise: one to no words goes through if it starts within the store or at its end. -/
theorem refused_iff (hub : Hub) :
    (∀ (address count : UInt32) (e : MemoryError),
      (readWords address count hub).1 = .error e ↔
        (hub.Exceeded address count.toNat ∨ count.toNat = 0 ∧ hub.size < address.toNat) ∧
          e = .outOfRange address count.toNat hub.size) ∧
    (∀ (address : UInt32) (data : List UInt32) (e : MemoryError),
      (writeWords address data hub).1 = .error e ↔
        (hub.Exceeded address data.length ∨ data.length = 0 ∧ hub.size < address.toNat) ∧
          e = .outOfRange address data.length hub.size) ∧
    ∀ address : UInt32,
      (readWords address 0 hub = (.ok [], hub) ↔ address.toNat ≤ hub.size) ∧
      (writeWords address [] hub = (.ok (), hub) ↔ address.toNat ≤ hub.size) := by
  refine ⟨fun address count e => ?_, fun address data e => ?_,
    fun address => ⟨readWords_zero_iff, writeWords_nil_iff⟩⟩
  · rw [readWords_eq_error_iff, Hub.size_lt_iff]
  · rw [writeWords_eq_error_iff, Hub.size_lt_iff]

/-- An access is refused without touching a word past the end: one to no words at the address 9 of
8 words. -/
theorem refused_without_words :
    (¬ ∀ (hub : Hub) (address count : UInt32),
      (readWords address count hub).1 = .error (.outOfRange address count.toNat hub.size) ↔
        hub.Exceeded address count.toNat) ∧
    ¬ ∀ (hub : Hub) (address : UInt32) (data : List UInt32),
      (writeWords address data hub).1 = .error (.outOfRange address data.length hub.size) ↔
        hub.Exceeded address data.length := by
  refine ⟨fun exact => ?_, fun exact => ?_⟩
  · exact (Hub.zeroed 8).not_exceeded_zero 9 ((exact (Hub.zeroed 8) 9 0).mp rfl)
  · exact (Hub.zeroed 8).not_exceeded_zero 9 ((exact (Hub.zeroed 8) 9 []).mp rfl)

end Memory

end KeyedRpc
