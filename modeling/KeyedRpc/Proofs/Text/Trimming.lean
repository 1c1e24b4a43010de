/-
# Trimmed lines

Trimming a line takes blanks off its ends until none is left there, and a line without blanks at
its ends stays as it is. The lines of a text have no line feeds in them, and lines that have none
are read back after they were joined by line feeds (`Blank.lines_intercalate`).
-/
import KeyedRpc.Text.Blank

namespace KeyedRpc.Blank

/-! ## Trimming -/

/-- A line is trimmed if it neither begins nor ends with a blank. -/
structure Trimmed (line : List Char) : Prop where
  head : ∀ c ∈ line.head?, isBlank c = false
  last : ∀ c ∈ line.getLast?, isBlank c = false

/-- After the blanks in front, there is none at the head. -/
theorem isBlank_head?_dropWhile (line : List Char) :
    ∀ c ∈ (line.dropWhile isBlank).head?, isBlank c = false := by
  intro c mem
  have stopped := List.head?_dropWhile_not isBlank line
  rw [Option.mem_def.mp mem] at stopped
  exact stopped

/-- Nothing is taken off a line that does not begin with a blank. -/
theorem dropWhile_of_head? {line : List Char} (head : ∀ c ∈ line.head?, isBlank c = false) :
    line.dropWhile isBlank = line := by
  cases line with
  | nil => rfl
  | cons c line => exact List.dropWhile_cons_of_neg (by simp [head c rfl])

/-- Trimming leaves the beginning of what comes after the blanks in front. -/
theorem trim_isPrefix (line : List Char) : trim line <+: line.dropWhile isBlank := by
  have suffix := List.dropWhile_suffix isBlank (l := (line.dropWhile isBlank).reverse)
  rwa [← List.reverse_prefix, List.reverse_reverse] at suffix

/-- Trimming adds no characters. -/
theorem mem_of_mem_trim {line : List Char} {c : Char} (mem : c ∈ trim line) : c ∈ line :=
  (List.dropWhile_suffix isBlank).subset ((trim_isPrefix line).subset mem)

/-- **Trimming takes all blanks off both ends.** -/
theorem trimmed_trim (line : List Char) : Trimmed (trim line) := by
  constructor
  · -- What is taken off the end leaves the first character, if it leaves any.
    intro c mem
    obtain ⟨rest, parts⟩ := trim_isPrefix line
    have head : (line.dropWhile isBlank).head? = some c := by
      rw [← parts, List.head?_append, Option.mem_def.mp mem, Option.some_or]
    exact isBlank_head?_dropWhile line c head
  · intro c mem
    rw [trim, List.getLast?_reverse] at mem
    exact isBlank_head?_dropWhile _ c mem

/-- A line that is trimmed stays as it is. -/
theorem Trimmed.trim_eq {line : List Char} (trimmed : Trimmed line) : trim line = line := by
  have last : ∀ c ∈ line.reverse.head?, isBlank c = false := by
    rw [List.head?_reverse]
    exact trimmed.last
  rw [trim, dropWhile_of_head? trimmed.head, dropWhile_of_head? last, List.reverse_reverse]

/-! ## Lines -/

/-- No piece has the character in it at which it was split off. -/
theorem not_mem_of_mem_splitOn {a : Char} {chars piece : List Char}
    (mem : piece ∈ chars.splitOn a) : a ∉ piece := by
  induction chars generalizing piece with
  | nil =>
    rw [List.splitOn_nil, List.mem_singleton] at mem
    exact mem ▸ List.not_mem_nil
  | cons c chars ih =>
    obtain ⟨first, others, parts⟩ :=
      List.exists_cons_of_ne_nil (List.splitOn_ne_nil a chars)
    rw [List.splitOn_cons_eq_if_modifyHead, parts, List.modifyHead_cons] at mem
    rw [parts] at ih
    by_cases same : (c == a) = true
    · rw [if_pos same] at mem
      rcases List.mem_cons.mp mem with rfl | mem
      · exact List.not_mem_nil
      · exact ih mem
    · rw [if_neg same] at mem
      rcases List.mem_cons.mp mem with rfl | mem
      · have other : a ≠ c := fun eq => same (by simp [eq])
        exact List.not_mem_cons_of_ne_of_not_mem other (ih List.mem_cons_self)
      · exact ih (List.mem_cons_of_mem first mem)

/-- A line has no line feed in it. -/
theorem not_mem_of_mem_lines {text : String} {line : List Char} (mem : line ∈ lines text) :
    '\n' ∉ line :=
  not_mem_of_mem_splitOn mem

/-- Lines that are joined by line feeds are read back, if they have none in them. -/
theorem lines_intercalate {joined : List String} (nonempty : joined ≠ [])
    (oneLine : ∀ line ∈ joined, '\n' ∉ line.toList) :
    lines (String.intercalate "\n" joined) = joined.map String.toList := by
  rw [lines, String.toList_intercalate]
  refine List.splitOn_intercalate '\n' ?_ ?_
  · intro line mem
    obtain ⟨text, held, rfl⟩ := List.mem_map.mp mem
    exact oneLine text held
  · intro empty
    exact nonempty (List.map_eq_nil_iff.mp empty)

end KeyedRpc.Blank
