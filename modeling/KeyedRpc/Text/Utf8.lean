/-
# Text as bytes

A text travels as the bytes of its UTF-8 encoding, and texts are ordered by those
bytes. `Utf8.decode?` accepts exactly the byte sequences that `Utf8.encode` produces
(`decode?_eq_some_iff`), so a text has one encoded form and no other byte sequence
reads as a text.
-/

namespace KeyedRpc.Utf8

/-! ## Encoding and decoding -/

/-- The UTF-8 encoding of a text. -/
def encode (s : String) : List UInt8 :=
  s.toByteArray.data.toList

/-- The text that a byte sequence encodes, if it is well-formed UTF-8. -/
def decode? (bytes : List UInt8) : Option String :=
  String.fromUTF8? ⟨bytes.toArray⟩

/-- A text has as many bytes as its encoding. -/
@[simp] theorem length_encode (s : String) : (encode s).length = s.utf8ByteSize := by
  simp only [encode, Array.length_toList]
  rfl

/-- Different texts have different encodings. -/
theorem encode_injective {s t : String} (h : encode s = encode t) : s = t := by
  apply String.toByteArray_inj.mp
  apply ByteArray.ext
  apply Array.ext'
  exact h

/-- Texts are the same if and only if their encodings are. -/
@[simp] theorem encode_inj {s t : String} : encode s = encode t ↔ s = t :=
  ⟨encode_injective, fun h => h ▸ rfl⟩

/-- A text is read back from its encoding. -/
@[simp] theorem decode?_encode (s : String) : decode? (encode s) = some s := by
  have valid : s.toByteArray.IsValidUTF8 := s.isValidUTF8
  simp [decode?, encode, String.fromUTF8?, String.fromUTF8, valid]

/-- Bytes that read as a text are its encoding. -/
theorem encode_of_decode? {bytes : List UInt8} {s : String} (h : decode? bytes = some s) :
    encode s = bytes := by
  unfold decode? String.fromUTF8? at h
  by_cases valid : (⟨bytes.toArray⟩ : ByteArray).IsValidUTF8
  · rw [dif_pos valid] at h
    cases h
    rfl
  · rw [dif_neg valid] at h
    cases h

/-- **Bytes read as a text if and only if they are its encoding.** -/
theorem decode?_eq_some_iff {bytes : List UInt8} {s : String} :
    decode? bytes = some s ↔ bytes = encode s :=
  ⟨fun h => (encode_of_decode? h).symm, fun h => h ▸ decode?_encode s⟩

/-! ## The order of texts -/

/-- Texts are ordered by their encodings, byte by byte. -/
def Precedes (s t : String) : Prop :=
  encode s < encode t

instance (s t : String) : Decidable (Precedes s t) :=
  inferInstanceAs (Decidable (encode s < encode t))

theorem Precedes.trans {s t u : String} (h : Precedes s t) (k : Precedes t u) : Precedes s u :=
  List.lt_trans h k

/-- No text comes before itself. -/
theorem not_precedes_self (s : String) : ¬ Precedes s s :=
  List.lt_irrefl (encode s)

/-- A text that comes before another is another. -/
theorem Precedes.ne {s t : String} (h : Precedes s t) : s ≠ t := by
  intro e
  subst e
  exact not_precedes_self s h

theorem Precedes.asymm {s t : String} (h : Precedes s t) : ¬ Precedes t s :=
  fun k => not_precedes_self s (h.trans k)

/-- Of two different texts, one comes before the other. -/
theorem precedes_of_not {s t : String} (h : ¬ Precedes s t) (ne : s ≠ t) : Precedes t s := by
  rcases List.le_iff_lt_or_eq.mp (List.not_lt.mp h) with lt | eq
  · exact lt
  · exact absurd (encode_injective eq).symm ne

end KeyedRpc.Utf8
