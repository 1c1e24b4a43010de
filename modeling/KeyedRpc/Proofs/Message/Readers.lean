/-
# Readers that accept what is written

A reader is exact for a way to write if it takes off the front of the bytes a thing that
was written there, and accepts nothing else: neither another spelling of the thing nor
less than all of it. Numbers, strings and values are read exactly (`exact_value`), as
long as the lengths that they state have a place in four bytes.
-/
import KeyedRpc.Message.Decoding

namespace KeyedRpc

/-- Two steps give a result if and only if the first does and the second does from there. -/
theorem bind_eq_ok_iff {ε α β : Type} {x : Except ε α} {f : α → Except ε β} {b : β} :
    x >>= f = .ok b ↔ ∃ a, x = .ok a ∧ f a = .ok b := by
  cases x with
  | error e =>
    constructor
    · intro h
      cases h
    · rintro ⟨a, h, -⟩
      cases h
  | ok a =>
    constructor
    · intro h
      exact ⟨a, rfl, h⟩
    · rintro ⟨a', h, k⟩
      cases h
      exact k

/-- A result that is passed on comes from a result. -/
theorem map_eq_ok_iff {ε α β : Type} {x : Except ε α} {f : α → β} {b : β} :
    x.map f = .ok b ↔ ∃ a, x = .ok a ∧ f a = b := by
  cases x with
  | error e => simp [Except.map]
  | ok a => simp [Except.map]

/-- A failure stays as it is where results are passed on. -/
theorem map_eq_error_iff {ε α β : Type} {x : Except ε α} {f : α → β} {e : ε} :
    x.map f = .error e ↔ x = .error e := by
  cases x with
  | error e' => simp [Except.map]
  | ok a => simp [Except.map]

/-- A result stays as it is where failures are put in other words. -/
theorem mapError_eq_ok_iff {ε ε' α : Type} {x : Except ε α} {f : ε → ε'} {a : α} :
    x.mapError f = .ok a ↔ x = .ok a := by
  cases x with
  | error e =>
    constructor
    · intro h
      cases h
    · intro h
      cases h
  | ok b => exact ⟨fun h => congrArg _ (Except.ok.inj h), fun h => congrArg _ (Except.ok.inj h)⟩

/-- Other words for failures do not matter to whether there is a result. -/
theorem toOption_mapError {ε ε' α : Type} (x : Except ε α) (f : ε → ε') :
    (x.mapError f).toOption = x.toOption := by
  cases x with
  | error e => rfl
  | ok a => rfl

/-- What a value states as lengths has a place in four bytes. -/
def Value.Fits (v : Value) : Prop :=
  ∀ n ∈ v.lengths, n ≤ maxLength

instance (v : Value) : Decidable v.Fits :=
  inferInstanceAs (Decidable (∀ n ∈ v.lengths, n ≤ maxLength))

namespace Reader

variable {α : Type}

/-- A reader is exact for a way to write the things that fit: it reads a thing off the
front of the bytes if and only if that thing fits and is what is written there. -/
def Exact (read : Reader α) (write : α → List UInt8) (fits : α → Prop) : Prop :=
  ∀ input a rest, read input = .ok (a, rest) ↔ fits a ∧ input = write a ++ rest

/-! ## Numbers and tags -/

/-- The check for bytes that are left is right. -/
theorem holds_eq_true_iff (n : Nat) (input : List UInt8) :
    holds n input = true ↔ n ≤ input.length := by
  simp only [holds, beq_iff_eq, List.length_take]
  omega

/-- Some number of bytes are read if and only if they stand in front. -/
theorem take_eq_ok_iff {n : Nat} {input bytes rest : List UInt8} :
    take n input = .ok (bytes, rest) ↔ bytes.length = n ∧ input = bytes ++ rest := by
  unfold take
  constructor
  · intro h
    by_cases enough : holds n input = true
    · rw [if_pos enough] at h
      cases h
      rw [holds_eq_true_iff] at enough
      exact ⟨List.length_take_of_le enough, (List.take_append_drop n input).symm⟩
    · rw [if_neg enough] at h
      cases h
  · rintro ⟨rfl, rfl⟩
    have enough : holds bytes.length (bytes ++ rest) = true := by
      rw [holds_eq_true_iff, List.length_append]
      omega
    rw [if_pos enough, List.take_left, List.drop_left]

/-- Numbers are read exactly, if they have a place in four bytes. -/
theorem exact_number : Exact number littleEndian (· ≤ maxLength) := by
  intro input n rest
  constructor
  · intro h
    -- Fewer than four bytes are refused, so no other shape of the input is left.
    match input, h with
    | a :: b :: c :: d :: tail, h =>
      cases h
      exact ⟨ofLittleEndian_le a b c d, by rw [littleEndian_ofLittleEndian]; rfl⟩
  · rintro ⟨le, rfl⟩
    show Except.ok (ofLittleEndian (littleEndian n), rest) = _
    rw [ofLittleEndian_littleEndian le]

/-- A count is read if and only if it stands in front and enough bytes are left for it. -/
theorem count_eq_ok_iff {least n : Nat} {input rest : List UInt8} :
    count least input = .ok (n, rest) ↔
      n ≤ maxLength ∧ n * least ≤ rest.length ∧ input = littleEndian n ++ rest := by
  unfold count
  simp only [bind_eq_ok_iff, Prod.exists, exact_number _ _ _]
  constructor
  · rintro ⟨n, tail, ⟨le, rfl⟩, h⟩
    by_cases enough : holds (n * least) tail = true
    · rw [if_pos enough] at h
      cases h
      rw [holds_eq_true_iff] at enough
      exact ⟨le, enough, rfl⟩
    · rw [if_neg enough] at h
      cases h
  · rintro ⟨le, enough, rfl⟩
    rw [← holds_eq_true_iff] at enough
    refine ⟨n, rest, ⟨le, rfl⟩, ?_⟩
    rw [if_pos enough]
    rfl

/-- Tags are read exactly. -/
theorem exact_tag : Exact tag (fun kind => [kind.tag]) (fun _ => True) := by
  intro input kind rest
  cases input with
  | nil =>
    constructor
    · intro h
      cases h
    · rintro ⟨-, h⟩
      cases h
  | cons b tail =>
    constructor
    · intro h
      rcases known : Kind.ofTag? b with _ | k
      · simp only [tag, byte, bind, Except.bind, known] at h
        cases h
      · simp only [tag, byte, bind, Except.bind, known] at h
        cases h
        rw [Kind.ofTag?_eq_some_iff] at known
        exact ⟨trivial, known ▸ rfl⟩
    · rintro ⟨-, h⟩
      cases h
      simp only [tag, byte, bind, Except.bind, Kind.ofTag?_tag]
      rfl

/-! ## Strings and words -/

/-- The length and the text of a string are read exactly, if the length has a place in four bytes.
-/
theorem exact_text : Exact text (fun s => littleEndian s.utf8ByteSize ++ Utf8.encode s)
    (·.utf8ByteSize ≤ maxLength) := by
  intro input s rest
  unfold text
  simp only [bind_eq_ok_iff, Prod.exists, exact_number _ _ _, take_eq_ok_iff]
  constructor
  · rintro ⟨n, afterLength, ⟨le, rfl⟩, bytes, afterBytes, ⟨rfl, rfl⟩, h⟩
    rcases eq : Utf8.decode? bytes with _ | t
    · rw [eq] at h
      cases h
    · rw [eq] at h
      cases h
      -- Bytes that are a string are the bytes of that string, and no other bytes are.
      rw [Utf8.decode?_eq_some_iff] at eq
      subst eq
      rw [Utf8.length_encode] at le
      rw [Utf8.length_encode, List.append_assoc]
      exact ⟨le, rfl⟩
  · rintro ⟨le, rfl⟩
    refine ⟨s.utf8ByteSize, Utf8.encode s ++ rest, ⟨le, List.append_assoc _ _ _⟩, Utf8.encode s,
      rest, ⟨Utf8.length_encode s, rfl⟩, ?_⟩
    rw [Utf8.decode?_encode]
    rfl

/-- Strings with their tags are read exactly, if their lengths have a place in four bytes. -/
theorem exact_blob : Exact blob Value.blob (·.utf8ByteSize ≤ maxLength) := by
  intro input s rest
  unfold blob
  simp only [bind_eq_ok_iff, Prod.exists, exact_tag _ _ _]
  constructor
  · rintro ⟨kind, afterTag, ⟨-, rfl⟩, h⟩
    cases kind with
    | string =>
      obtain ⟨le, rfl⟩ := (exact_text _ _ _).mp h
      exact ⟨le, rfl⟩
    | word => cases h
    | words => cases h
    | strings => cases h
  · rintro ⟨le, rfl⟩
    exact ⟨.string, _, ⟨trivial, rfl⟩, (exact_text _ _ _).mpr ⟨le, rfl⟩⟩

/-- Words are read exactly. -/
theorem exact_word : Exact word (fun w => littleEndian w.toNat) (fun _ => True) := by
  intro input w rest
  unfold word
  simp only [bind_eq_ok_iff, Prod.exists, exact_number _ _ _]
  constructor
  · rintro ⟨n, tail, ⟨le, rfl⟩, h⟩
    cases h
    -- Nothing is cut off a number of four bytes.
    have fits : n % 2 ^ 32 = n := Nat.mod_eq_of_lt (by unfold maxLength at le; omega)
    refine ⟨trivial, ?_⟩
    rw [UInt32.toNat_ofNat', fits]
  · rintro ⟨-, rfl⟩
    refine ⟨w.toNat, rest, ⟨?_, rfl⟩, ?_⟩
    · have lt := w.toNat_lt
      unfold maxLength
      omega
    · rw [UInt32.ofNat_toNat]
      rfl

/-! ## Several things in a row -/

/-- A repeated step is the step, and then the rest of the repetition. -/
theorem iterate_succ (step : α → Reader α) (n : Nat) (a : α) (input : List UInt8) :
    iterate step (n + 1) a input = step a input >>= fun x => iterate step n x.1 x.2 := by
  rw [iterate]
  cases step a input <;> rfl

/-- A repeated step gives a result if and only if each of the steps does. -/
theorem iterate_succ_eq_ok_iff {step : α → Reader α} {n : Nat} {a b : α}
    {input rest : List UInt8} :
    iterate step (n + 1) a input = .ok (b, rest) ↔
      ∃ a' tail, step a input = .ok (a', tail) ∧ iterate step n a' tail = .ok (b, rest) := by
  rw [iterate_succ, bind_eq_ok_iff, Prod.exists]

/-- What is read piles up in front of what was read before. -/
theorem iterate_item_eq_ok_iff {item : Reader α} {write : α → List UInt8} {fits : α → Prop}
    (exact_item : Exact item write fits) {n : Nat} {done reversed : List α}
    {input rest : List UInt8} :
    iterate (fun done input => do
        let (a, rest) ← item input
        return (a :: done, rest)) n done input = .ok (reversed, rest) ↔
      ∃ l : List α, l.length = n ∧ (∀ a ∈ l, fits a) ∧ input = l.flatMap write ++ rest ∧
        reversed = l.reverse ++ done := by
  -- What was read before is general, since every item goes in front of it.
  induction n generalizing done input with
  | zero =>
    constructor
    · intro h
      cases h
      exact ⟨[], rfl, by simp, rfl, rfl⟩
    · rintro ⟨l, none, -, rfl, rfl⟩
      rw [List.length_eq_zero_iff] at none
      subst none
      rfl
  | succ n ih =>
    rw [iterate_succ_eq_ok_iff]
    simp only [ih, bind_eq_ok_iff, Prod.exists, exact_item _ _ _]
    constructor
    · rintro ⟨_, _, ⟨a, tail, ⟨fit, rfl⟩, h⟩, l, rfl, all, rfl, rfl⟩
      cases h
      refine ⟨a :: l, rfl, ?_, ?_, ?_⟩
      · exact List.forall_mem_cons.mpr ⟨fit, all⟩
      · rw [List.flatMap_cons, List.append_assoc]
      · rw [List.reverse_cons, List.append_assoc]
        rfl
    · rintro ⟨l, count, all, rfl, rfl⟩
      cases l with
      | nil => cases count
      | cons a l =>
        obtain ⟨fit, all⟩ := List.forall_mem_cons.mp all
        refine ⟨a :: done, l.flatMap write ++ rest, ⟨a, _, ⟨fit, ?_⟩, rfl⟩, l, ?_, all, rfl, ?_⟩
        · rw [List.flatMap_cons, List.append_assoc]
        · exact Nat.succ.inj count
        · rw [List.reverse_cons, List.append_assoc]
          rfl

/-- Items are read if and only if as many stand in front, one after another. -/
theorem items_eq_ok_iff {item : Reader α} {write : α → List UInt8} {fits : α → Prop}
    (exact_item : Exact item write fits) {n : Nat} {l : List α} {input rest : List UInt8} :
    items item n input = .ok (l, rest) ↔
      l.length = n ∧ (∀ a ∈ l, fits a) ∧ input = l.flatMap write ++ rest := by
  unfold items
  simp only [bind_eq_ok_iff, Prod.exists, iterate_item_eq_ok_iff exact_item]
  constructor
  · rintro ⟨_, _, ⟨l, rfl, all, rfl, rfl⟩, h⟩
    cases h
    rw [List.append_nil, List.reverse_reverse]
    exact ⟨rfl, all, rfl⟩
  · rintro ⟨rfl, all, rfl⟩
    refine ⟨l.reverse, rest, ⟨l, rfl, all, rfl, (List.append_nil _).symm⟩, ?_⟩
    rw [List.reverse_reverse]
    rfl

/-- Items of some least length take up that many bytes each in a row. -/
theorem mul_le_length_flatMap {write : α → List UInt8} {least : Nat}
    (least_le : ∀ a, least ≤ (write a).length) (l : List α) :
    l.length * least ≤ (l.flatMap write).length := by
  rw [length_flatMap_eq_sumOf (fun a => rfl), Nat.mul_comm]
  exact mul_length_le_sumOf fun a _ => least_le a

/-- The check of a count against the bytes that are left never refuses what is written: no
item takes up less than the least. -/
theorem exact_counted {item : Reader α} {write : α → List UInt8} {fits : α → Prop}
    (exact_item : Exact item write fits) {least : Nat}
    (least_le : ∀ a, least ≤ (write a).length) :
    Exact (fun input => do
        let (n, rest) ← count least input
        items item n rest)
      (fun l => littleEndian l.length ++ l.flatMap write)
      (fun l => l.length ≤ maxLength ∧ ∀ a ∈ l, fits a) := by
  intro input l rest
  simp only [bind_eq_ok_iff, Prod.exists, count_eq_ok_iff, items_eq_ok_iff exact_item]
  constructor
  · -- Reading the items makes the check superfluous.
    rintro ⟨n, _, ⟨le, -, rfl⟩, rfl, all, rfl⟩
    exact ⟨⟨le, all⟩, (List.append_assoc _ _ _).symm⟩
  · rintro ⟨⟨le, all⟩, rfl⟩
    have enough := mul_le_length_flatMap least_le l
    refine ⟨l.length, l.flatMap write ++ rest, ⟨le, ?_, List.append_assoc _ _ _⟩, rfl, all, rfl⟩
    rw [List.length_append]
    omega

/-! ## Values -/

/-- The bytes of the contents of a value, that is those that follow its tag. -/
def contentBytes : (kind : Kind) → kind.Carrier → List UInt8
  | .word, w => littleEndian w.toNat
  | .string, s => littleEndian s.utf8ByteSize ++ Utf8.encode s
  | .words, ws => littleEndian ws.length ++ ws.flatMap fun w => littleEndian w.toNat
  | .strings, ss => littleEndian ss.length ++ ss.flatMap Value.blob

/-- A value is written as its tag and its contents. -/
theorem bytes_of (kind : Kind) (x : kind.Carrier) :
    (Value.of kind x).bytes = kind.tag :: contentBytes kind x := by
  cases kind <;> rfl

/-- Contents of each kind are read exactly, if their lengths have a place in four bytes. -/
theorem exact_contents (kind : Kind) :
    Exact (contents kind) (contentBytes kind) (fun x => (Value.of kind x).Fits) := by
  cases kind with
  | word =>
    intro input w rest
    have fits : (Value.word w).Fits := by simp [Value.Fits, Value.lengths]
    rw [show contents .word = word from rfl, exact_word]
    exact and_congr_left fun _ => ⟨fun _ => fits, fun _ => trivial⟩
  | string =>
    intro input s rest
    rw [show contents .string = text from rfl, exact_text]
    simp [Value.Fits, Value.lengths, Value.of, contentBytes]
  | words =>
    intro input ws rest
    have least : ∀ w : UInt32, 4 ≤ (littleEndian w.toNat).length := fun _ => Nat.le_refl 4
    refine (exact_counted exact_word least input ws rest).trans ?_
    simp [Value.Fits, Value.lengths, Value.of, contentBytes]
  | strings =>
    intro input ss rest
    have least : ∀ s : String, 1 + 4 ≤ (Value.blob s).length := by
      intro s
      rw [Value.length_blob, Value.blobSize]
      omega
    refine (exact_counted exact_blob least input ss rest).trans ?_
    simp [Value.Fits, Value.lengths, Value.of, contentBytes]

/-- **Values are read exactly**, if their lengths have a place in four bytes. -/
theorem exact_value : Exact value Value.bytes Value.Fits := by
  intro input v rest
  unfold value
  simp only [bind_eq_ok_iff, Prod.exists, exact_tag _ _ _]
  constructor
  · rintro ⟨kind, _, ⟨-, rfl⟩, x, tail, h, done⟩
    obtain ⟨fits, rfl⟩ := (exact_contents kind _ _ _).mp h
    cases done
    refine ⟨fits, ?_⟩
    rw [bytes_of]
    rfl
  · rintro ⟨fits, rfl⟩
    obtain ⟨kind, x, rfl⟩ := v.exists_of
    refine ⟨kind, contentBytes kind x ++ rest, ⟨trivial, ?_⟩, x, rest, ?_, rfl⟩
    · rw [bytes_of]
      rfl
    · exact (exact_contents kind _ _ _).mpr ⟨fits, rfl⟩

end Reader

end KeyedRpc
