/-
# Frames on streams

Reading a frame takes exactly its bytes off a stream, however these come in chunks and
whatever interrupts them (`Frame.bytes_read`), and writing one adds exactly its bytes
(`Frame.written_write`). On a stream that neither fails nor pauses, a frame that is there
is read (`Frame.read_steady`), whatever follows it (`Frame.read_append`).
-/
import KeyedRpc.Stream.Frame

namespace KeyedRpc

/-! ## Bytes to come -/

namespace Source

/-- The bytes that are still to come. -/
def bytes (source : Source) : List UInt8 :=
  source.flatMap fun
    | .chunk l => l
    | .fault _ => []

@[simp] theorem bytes_nil : bytes [] = [] := rfl

/-- The bytes of a chunk come before the others. -/
@[simp] theorem bytes_chunk (l : List UInt8) (rest : Source) :
    bytes (.chunk l :: rest) = l ++ bytes rest := rfl

/-- A failure brings no bytes. -/
@[simp] theorem bytes_fault (f : StreamFault) (rest : Source) :
    bytes (.fault f :: rest) = bytes rest := rfl

/-- The rest of a chunk that is put back comes before the others. -/
theorem bytes_leave (l : List UInt8) (rest : Source) :
    bytes (leave l rest) = l ++ bytes rest := by
  cases l with
  | nil => rfl
  | cons b l => rfl

/-- A byte that is read is the first of those to come. -/
theorem bytes_readByte {style : StreamStyle} {source rest : Source} {b : UInt8}
    (h : source.readByte style = (.ok (some b), rest)) : source.bytes = b :: rest.bytes := by
  fun_induction readByte style source with
  | case1 | case2 | case5 => cases h
  | case3 b' l tail =>
    cases h
    rw [bytes_chunk, bytes_leave, List.cons_append]
  | case4 tail f retry ih => rw [bytes_fault, ih h]

/-- A chunk that holds less than is asked for is taken whole. -/
theorem take_eq_of_short {n : Nat} {b : UInt8} {chunk : List UInt8}
    (short : (b :: chunk.take n).length < n + 1) : chunk.take n = chunk := by
  have le : chunk.length ≤ n := by
    rw [List.length_cons, List.length_take] at short
    omega
  exact List.take_of_length_le le

/-- Bytes that are read are the first of those to come, as many as were asked for. -/
theorem bytes_readExact {style : StreamStyle} {source rest : Source} {n : Nat} {l : List UInt8}
    (h : source.readExact style n = (.ok l, rest)) :
    l.length = n ∧ source.bytes = l ++ rest.bytes := by
  fun_induction readExact style source n generalizing l rest
  case case1 source =>
    cases h
    exact ⟨rfl, rfl⟩
  case case2 | case3 | case5 | case8 =>
    -- The stream ends or fails before there are enough bytes.
    cases h
  case case4 n b chunk tail taken short more rest' eq ih =>
    cases h
    obtain ⟨length, bytes_tail⟩ := ih eq
    have all : taken = b :: chunk := congrArg (b :: ·) (take_eq_of_short short)
    refine ⟨?_, ?_⟩
    · rw [List.length_append, length]
      omega
    · rw [bytes_chunk, bytes_tail, all, List.append_assoc]
  case case6 n b chunk tail taken long =>
    cases h
    refine ⟨?_, ?_⟩
    · simp only [taken, List.length_cons, List.length_take] at long ⊢
      omega
    · rw [bytes_chunk, bytes_leave, ← List.append_assoc]
      show b :: chunk ++ _ = b :: (chunk.take n ++ chunk.drop n) ++ _
      rw [List.take_append_drop]
  case case7 n f tail retry ih =>
    rw [bytes_fault]
    exact ih h

/-! ## Streams that do not fail -/

/-- A stream is steady if it hands on bytes in chunks, and neither fails nor pauses. -/
def Steady (source : Source) : Prop :=
  ∀ event ∈ source, ∃ b l, event = .chunk (b :: l)

/-- A stream is steady if it begins with a chunk that is not empty and goes on so. -/
theorem steady_cons_iff {event : ReadEvent} {rest : Source} :
    Steady (event :: rest) ↔ (∃ b l, event = .chunk (b :: l)) ∧ Steady rest :=
  List.forall_mem_cons

theorem steady_singleton {chunk l : List UInt8} {b : UInt8} (some : chunk = b :: l) :
    Steady [.chunk chunk] :=
  steady_cons_iff.mpr ⟨⟨b, l, congrArg ReadEvent.chunk some⟩, List.forall_mem_nil _⟩

/-- A steady stream is so with the rest of a chunk put back. -/
theorem steady_leave (l : List UInt8) {rest : Source} (h : rest.Steady) :
    (leave l rest).Steady := by
  unfold leave
  cases l with
  | nil => exact h
  | cons b l => exact steady_cons_iff.mpr ⟨⟨b, l, rfl⟩, h⟩

/-- A steady stream without bytes has ended. -/
theorem eq_nil_of_steady {source : Source} (h : source.Steady) (none : source.bytes = []) :
    source = [] := by
  cases source with
  | nil => rfl
  | cons event rest =>
    obtain ⟨⟨b, l, rfl⟩, -⟩ := steady_cons_iff.mp h
    cases none

/-- The first byte is read off a steady stream. -/
theorem readByte_steady (style : StreamStyle) {source : Source} {b : UInt8}
    {tail : List UInt8} (h : source.Steady) (bytes_eq : source.bytes = b :: tail) :
    ∃ rest, source.readByte style = (.ok (some b), rest) ∧ rest.Steady ∧ rest.bytes = tail := by
  cases source with
  | nil => cases bytes_eq
  | cons event rest =>
    obtain ⟨⟨b', l, rfl⟩, steady⟩ := steady_cons_iff.mp h
    rw [bytes_chunk, List.cons_append] at bytes_eq
    cases bytes_eq
    exact ⟨leave l rest, rfl, steady_leave l steady, bytes_leave l rest⟩

/-- What a chunk falls short of comes after it. -/
theorem le_length_of_short {n : Nat} {b : UInt8} {chunk : List UInt8} {tail : Source}
    (short : (b :: chunk.take n).length < n + 1)
    (enough : n + 1 ≤ (bytes (.chunk (b :: chunk) :: tail)).length) :
    n + 1 - (b :: chunk.take n).length ≤ (bytes tail).length := by
  rw [bytes_chunk, List.length_append, List.length_cons] at enough
  rw [take_eq_of_short short, List.length_cons]
  omega

/-- As many bytes as a steady stream has are read off it. -/
theorem exists_readExact (style : StreamStyle) {source : Source} {n : Nat}
    (h : source.Steady) (enough : n ≤ source.bytes.length) :
    ∃ l rest, source.readExact style n = (.ok l, rest) ∧ rest.Steady := by
  fun_induction readExact style source n with
  | case1 source => exact ⟨[], source, rfl, h⟩
  | case2 => cases enough
  | case3 | case7 | case8 =>
    -- A steady stream hands on neither an empty chunk nor a failure.
    obtain ⟨⟨b, l, eq⟩, -⟩ := steady_cons_iff.mp h
    cases eq
  | case4 n b chunk tail taken short more rest' eq ih =>
    obtain ⟨-, steady⟩ := steady_cons_iff.mp h
    have left : n + 1 - taken.length ≤ (bytes tail).length := le_length_of_short short enough
    obtain ⟨l, rest, read, steady⟩ := ih steady left
    rw [eq] at read
    cases read
    exact ⟨taken ++ more, rest', rfl, steady⟩
  | case5 n b chunk tail taken short f rest' eq ih =>
    obtain ⟨-, steady⟩ := steady_cons_iff.mp h
    have left : n + 1 - taken.length ≤ (bytes tail).length := le_length_of_short short enough
    obtain ⟨l, rest, read, -⟩ := ih steady left
    rw [eq] at read
    cases read
  | case6 n b chunk tail taken long =>
    obtain ⟨-, steady⟩ := steady_cons_iff.mp h
    exact ⟨taken, leave (chunk.drop n) tail, rfl, steady_leave _ steady⟩

/-- The bytes that come first on a steady stream are read off it. -/
theorem readExact_steady (style : StreamStyle) {source : Source} {l tail : List UInt8}
    (h : source.Steady) (bytes_eq : source.bytes = l ++ tail) :
    ∃ rest, source.readExact style l.length = (.ok l, rest) ∧ rest.Steady ∧
      rest.bytes = tail := by
  have enough : l.length ≤ source.bytes.length := by
    rw [bytes_eq, List.length_append]
    omega
  obtain ⟨l', rest, read, steady⟩ := exists_readExact style h enough
  obtain ⟨length, split⟩ := bytes_readExact read
  obtain ⟨rfl, rfl⟩ := List.append_inj (split.symm.trans bytes_eq) length
  exact ⟨rest, read, steady, rfl⟩

/-! ## Reading on -/

/-- The rest of a chunk is put back in front of what comes after the stream as well. -/
theorem leave_append (l : List UInt8) (rest more : Source) :
    leave l rest ++ more = leave l (rest ++ more) := by
  cases l with
  | nil => rfl
  | cons b l => rfl

/-- What is read does not depend on what comes after it. -/
theorem readByte_append {style : StreamStyle} {source rest : Source} {b : UInt8}
    (h : source.readByte style = (.ok (some b), rest)) (more : Source) :
    (source ++ more).readByte style = (.ok (some b), rest ++ more) := by
  fun_induction readByte style source with
  | case1 | case2 | case5 => cases h
  | case3 b' l tail =>
    cases h
    rw [List.cons_append, readByte, leave_append]
  | case4 tail f retry ih =>
    rw [List.cons_append, readByte, if_pos retry]
    exact ih h

/-- Nor do bytes that are read depend on what comes after them. -/
theorem readExact_append {style : StreamStyle} {source rest : Source} {n : Nat} {l : List UInt8}
    (more : Source) (h : source.readExact style n = (.ok l, rest)) :
    (source ++ more).readExact style n = (.ok l, rest ++ more) := by
  fun_induction readExact style source n generalizing l rest
  case case1 source =>
    cases h
    rw [readExact]
  case case2 | case3 | case5 | case8 => cases h
  case case4 n b chunk tail taken short following rest' eq ih =>
    cases h
    rw [List.cons_append, readExact, if_pos short, ih eq]
  case case6 n b chunk tail taken long =>
    cases h
    rw [List.cons_append, readExact, if_neg long, leave_append]
  case case7 n f tail retry ih =>
    rw [List.cons_append, readExact, if_pos retry]
    exact ih h

end Source

/-! ## Writing -/

/-- An interrupted write is tried again, and any other failure of a write ends it. -/
theorem WriteEvent.offer_fault (style : StreamStyle) (f : StreamFault) (rest : List WriteEvent)
    (b : UInt8) (bytes : List UInt8) : offer style (.fault f :: rest) (b :: bytes)
      = if f.isInterruption then offer style rest (b :: bytes) else (.error f, [], rest) := by
  rw [offer]
  exact List.cons_ne_nil b bytes

/-- Bytes that are written without a failure are all taken. -/
theorem taken_offer {style : StreamStyle} {events rest : List WriteEvent}
    {bytes taken : List UInt8}
    (h : WriteEvent.offer style events bytes = (.ok (), taken, rest)) : taken = bytes := by
  fun_induction WriteEvent.offer style events bytes generalizing taken rest with
  | case1 | case2 =>
    cases h
    rfl
  | case3 | case6 => cases h
  | case4 b bytes n events' result taken' rest' offered ih =>
    cases h
    rw [ih offered, List.cons_append, List.take_append_drop]
  | case5 bytes f events' nonempty retry ih => exact ih h

/-- Bytes that are written come after those that were written before. -/
theorem Sink.written_writeAll {style : StreamStyle} {sink sink' : Sink} {bytes : List UInt8}
    (h : sink.writeAll style bytes = (.ok (), sink')) : sink'.written = sink.written ++ bytes := by
  unfold writeAll at h
  cases offered : WriteEvent.offer style sink.writes bytes with
  | mk result rest =>
    obtain ⟨taken, writes⟩ := rest
    rw [offered] at h
    obtain ⟨rfl, rfl⟩ := Prod.mk.inj h
    rw [taken_offer offered]

/-- A flush writes nothing. -/
theorem Sink.written_flush (sink : Sink) : (sink.flush).2.written = sink.written := by
  unfold flush
  rcases sink.flushes with _ | ⟨_ | f, rest⟩
  · rfl
  · rfl
  · rfl

/-! ## Frames -/

/-- Four bytes are those of a number that has a place in them. -/
theorem ofLittleEndian_of_length {l : List UInt8} (h : l.length = 4) :
    littleEndian (ofLittleEndian l) = l ∧ ofLittleEndian l ≤ maxLength := by
  match l, h with
  | [a, b, c, d], _ => exact ⟨littleEndian_ofLittleEndian a b c d, ofLittleEndian_le a b c d⟩

namespace Frame

/-- **A frame that is read is the one whose bytes come first**, and these are taken. -/
theorem bytes_read {style : StreamStyle} {max : Nat} {source rest : Source} {f : Frame}
    (h : Frame.read style max source = (.ok (some f), rest)) :
    source.bytes = f.bytes ++ rest.bytes ∧ f.body.length ≤ max ∧ f.body.length ≤ maxLength := by
  obtain ⟨afterCode, l, afterLength, readCode, readLength, within, readBody⟩ :=
    read_eq_ok_iff.mp h
  have first := Source.bytes_readByte readCode
  obtain ⟨length, second⟩ := Source.bytes_readExact readLength
  obtain ⟨bodyLength, third⟩ := Source.bytes_readExact readBody
  -- The four bytes are those that the length of the body is written as.
  obtain ⟨written, le⟩ := ofLittleEndian_of_length length
  rw [← bodyLength] at written within le
  refine ⟨?_, within, le⟩
  rw [first, second, third, bytes, header, written, List.append_assoc, List.cons_append]

/-- A frame that comes first on a steady stream is read. -/
theorem read_steady (style : StreamStyle) {max : Nat} {source : Source} {f : Frame}
    {tail : List UInt8} (steady : source.Steady) (bytes_eq : source.bytes = f.bytes ++ tail)
    (within : f.body.length ≤ max) (le : f.body.length ≤ maxLength) :
    ∃ rest, Frame.read style max source = (.ok (some f), rest) ∧ rest.Steady ∧
      rest.bytes = tail := by
  obtain ⟨kind, body⟩ := f
  have split : source.bytes = kind.code :: (littleEndian body.length ++ (body ++ tail)) := by
    rw [bytes_eq, bytes, header, List.append_assoc, List.cons_append]
  obtain ⟨afterCode, readCode, steady, bytes_eq⟩ :=
    Source.readByte_steady style steady split
  obtain ⟨afterLength, readLength, steady, bytes_eq⟩ :=
    Source.readExact_steady style steady bytes_eq
  obtain ⟨afterBody, readBody, steady, bytes_eq⟩ :=
    Source.readExact_steady style steady bytes_eq
  rw [length_littleEndian] at readLength
  rw [← ofLittleEndian_littleEndian le] at readBody within
  exact ⟨afterBody, read_eq_ok_iff.mpr
    ⟨afterCode, _, afterLength, readCode, readLength, within, readBody⟩, steady, bytes_eq⟩

/-- A frame that is read does not depend on what comes after it. -/
theorem read_append {style : StreamStyle} {max : Nat} {source rest : Source} {f : Frame}
    (h : Frame.read style max source = (.ok (some f), rest)) (more : Source) :
    Frame.read style max (source ++ more) = (.ok (some f), rest ++ more) := by
  obtain ⟨afterCode, l, afterLength, readCode, readLength, within, readBody⟩ :=
    read_eq_ok_iff.mp h
  refine read_eq_ok_iff.mpr ⟨afterCode ++ more, l, afterLength ++ more, ?_, ?_, within, ?_⟩
  · exact Source.readByte_append readCode more
  · exact Source.readExact_append more readLength
  · exact Source.readExact_append more readBody

/-- The write of a frame ends with a write of its header or of its body that fails, or with
the flush. -/
theorem parts_of_write {style : StreamStyle} {f : Frame} {sink after : Sink}
    {result : Except TransportError Unit} (le : f.body.length ≤ maxLength)
    (h : f.write style sink = (result, after)) :
    (∃ e, sink.writeAll style f.header = (.error e, after) ∧ result = .error (.ofStreamFault e)) ∨
      ∃ begun, sink.writeAll style f.header = (.ok (), begun) ∧
        ((∃ e, begun.writeAll style f.body = (.error e, after) ∧
            result = .error (.ofStreamFault e)) ∨
          ∃ whole flushed, begun.writeAll style f.body = (.ok (), whole) ∧
            whole.flush = (flushed, after) ∧ result = flushed.mapError .ofStreamFault) := by
  unfold write at h
  rw [if_neg (Nat.not_lt.mpr le)] at h
  -- Header, body and flush come one after another, and the first to fail is the last.
  rcases header : sink.writeAll style f.header with ⟨e | _, begun⟩
  · rw [header] at h
    cases h
    exact Or.inl ⟨e, rfl, rfl⟩
  · rw [header] at h
    dsimp only at h
    refine Or.inr ⟨begun, rfl, ?_⟩
    rcases body : begun.writeAll style f.body with ⟨e | _, whole⟩
    · rw [body] at h
      cases h
      exact Or.inl ⟨e, rfl, rfl⟩
    · rw [body] at h
      dsimp only at h
      refine Or.inr ⟨whole, whole.flush.1, rfl, ?_⟩
      rcases flush : whole.flush with ⟨e | _, flushed⟩
      · rw [flush] at h
        cases h
        exact ⟨rfl, rfl⟩
      · rw [flush] at h
        cases h
        exact ⟨rfl, rfl⟩

/-- A frame whose length has no place in its header is not begun, and that is a failure. -/
theorem le_of_write {style : StreamStyle} {f : Frame} {sink after : Sink}
    (h : f.write style sink = (.ok (), after)) : f.body.length ≤ maxLength := by
  refine Nat.not_lt.mp fun exceeds => ?_
  rw [write, if_pos exceeds] at h
  cases h

/-- **Writing a frame adds its bytes** to what was written. -/
theorem written_write {style : StreamStyle} {f : Frame} {sink sink' : Sink}
    (h : f.write style sink = (.ok (), sink')) : sink'.written = sink.written ++ f.bytes := by
  rcases parts_of_write (le_of_write h) h with ⟨e, -, failed⟩ | ⟨begun, header, ⟨e, -, failed⟩ |
    ⟨whole, flushed, body, flush, -⟩⟩
  · cases failed
  · cases failed
  · have unchanged := Sink.written_flush whole
    rw [flush] at unchanged
    rw [unchanged, Sink.written_writeAll body, Sink.written_writeAll header, List.append_assoc,
      bytes]

/-- A frame whose length has a place in its header is written on a stream without
failures. -/
theorem write_faultless (style : StreamStyle) {f : Frame} (le : f.body.length ≤ maxLength)
    (written : List UInt8) :
    f.write style ⟨[], [], written⟩ = (.ok (), ⟨[], [], written ++ f.bytes⟩) := by
  have all : ∀ l written, Sink.writeAll style l ⟨[], [], written⟩
      = (.ok (), ⟨[], [], written ++ l⟩) := by
    intro l written
    cases l <;> rfl
  unfold write
  rw [if_neg (Nat.not_lt.mpr le), all]
  dsimp only
  rw [all, List.append_assoc]
  rfl

/-! ## Frames from their bytes -/

/-- Where a frame ends is told by its own bytes. -/
theorem bytes_append_inj {f g : Frame} {r s : List UInt8} (hf : f.body.length ≤ maxLength)
    (hg : g.body.length ≤ maxLength) (h : f.bytes ++ r = g.bytes ++ s) : f = g ∧ r = s := by
  obtain ⟨kindF, bodyF⟩ := f
  obtain ⟨kindG, bodyG⟩ := g
  simp only [bytes, header, List.append_assoc, List.cons_append, List.cons.injEq] at h
  -- The codes give the kinds, and the lengths say where the bodies end.
  obtain ⟨code, rest⟩ := h
  have kinds : kindF = kindG := by
    have known := FrameKind.ofCode?_code kindF
    rw [code, FrameKind.ofCode?_code] at known
    exact (Option.some.inj known).symm
  obtain ⟨lengths, rest⟩ := List.append_inj rest (by simp only [length_littleEndian])
  have same : bodyF.length = bodyG.length := by
    rw [← ofLittleEndian_littleEndian hf, ← ofLittleEndian_littleEndian hg]
    exact congrArg ofLittleEndian lengths
  obtain ⟨rfl, rfl⟩ := List.append_inj rest same
  exact ⟨by rw [kinds], rfl⟩

/-- As many frames as are known to lead some bytes are found there in one way only. -/
theorem flatMap_bytes_append_inj {l k : List Frame} {r s : List UInt8}
    (hl : ∀ f ∈ l, f.body.length ≤ maxLength) (hk : ∀ f ∈ k, f.body.length ≤ maxLength)
    (length : l.length = k.length) (h : l.flatMap bytes ++ r = k.flatMap bytes ++ s) :
    l = k ∧ r = s := by
  induction l generalizing k with
  | nil =>
    rw [List.length_nil, eq_comm, List.length_eq_zero_iff] at length
    subst length
    exact ⟨rfl, h⟩
  | cons f l ih =>
    cases k with
    | nil => cases length
    | cons g k =>
      rw [List.forall_mem_cons] at hl hk
      rw [List.flatMap_cons, List.flatMap_cons, List.append_assoc, List.append_assoc] at h
      rw [List.length_cons, List.length_cons, Nat.add_right_cancel_iff] at length
      obtain ⟨rfl, rest⟩ := bytes_append_inj hl.1 hk.1 h
      obtain ⟨rfl, rfl⟩ := ih hl.2 hk.2 length rest
      exact ⟨rfl, rfl⟩

end Frame

end KeyedRpc
