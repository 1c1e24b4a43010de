/-
# Frames of a call stack

The lines of a call stack are cut into groups. A group begins at a line with a number and a colon
and goes on up to the next such line, so there is one cut only, and what stands before the first
group belongs to none. A frame is the text of a group, and the frames that are shown are the first
of them (`Backtrace.render_groups`). They can be found line by line, without looking at what comes
after the line that would begin one frame too many (`Backtrace.reverse_collect`).

Frames have no line feeds and no blanks at their ends, and each begins as a frame does. So frames
that are printed one on a line are their own frames again (`Backtrace.render_printed`).
-/
import KeyedRpc.Proofs.Text.Trimming
import KeyedRpc.Remote.Error
import Mathlib.Data.List.TakeWhile

namespace KeyedRpc.Backtrace

open Blank (trim lines Trimmed)

/-! ## Lines that begin a frame -/

/-- A line begins a frame if a number stands at its start, and a colon behind it. -/
def BeginsFrame (line : List Char) : Prop :=
  ∃ number rest, line = number ++ ':' :: rest ∧ number ≠ [] ∧ ∀ c ∈ number, c.isDigit = true

/-- What is looked for in a line is just that it begins a frame. -/
theorem beginsFrame_iff {line : List Char} : beginsFrame line = true ↔ BeginsFrame line := by
  simp only [beginsFrame, Bool.and_eq_true, List.contains_iff_mem, Bool.not_eq_true',
    List.isEmpty_eq_false_iff, List.all_eq_true]
  constructor
  · rintro ⟨⟨colon, nonempty⟩, digits⟩
    -- What is left after the number begins with the colon.
    have left : line.dropWhile (· ≠ ':') ≠ [] := by
      intro empty
      exact absurd (List.dropWhile_eq_nil_iff.mp empty ':' colon) (by decide)
    obtain ⟨c, rest, parts⟩ := List.exists_cons_of_ne_nil left
    have stopped := List.head?_dropWhile_not (· ≠ ':') line
    rw [parts] at stopped
    obtain rfl : c = ':' := by simpa using stopped
    refine ⟨line.takeWhile (· ≠ ':'), rest, ?_, nonempty, digits⟩
    rw [← parts, List.takeWhile_append_dropWhile]
  · rintro ⟨number, rest, rfl, nonempty, digits⟩
    have whole : (number ++ ':' :: rest).takeWhile (· ≠ ':') = number := by
      rw [List.takeWhile_append_of_pos]
      · simp
      · intro c mem
        have digit := digits c mem
        have other : c ≠ ':' := by
          rintro rfl
          exact absurd digit (by decide)
        simpa using other
    rw [whole]
    exact ⟨⟨by simp, nonempty⟩, digits⟩

instance (line : List Char) : Decidable (BeginsFrame line) :=
  decidable_of_iff _ beginsFrame_iff

/-- A line that begins a frame does so whatever is put after it. -/
theorem BeginsFrame.append {line : List Char} (begins : BeginsFrame line) (more : List Char) :
    BeginsFrame (line ++ more) := by
  obtain ⟨number, rest, rfl, nonempty, digits⟩ := begins
  rw [List.append_assoc, List.cons_append]
  exact ⟨number, rest ++ more, rfl, nonempty, digits⟩

/-! ## Groups of lines -/

/-- A group is a line that begins a frame, with lines after it that do not. -/
inductive Group : List (List Char) → Prop
  | intro {first : List Char} {following : List (List Char)} (begins : BeginsFrame first)
      (continued : ∀ line ∈ following, ¬ BeginsFrame line) : Group (first :: following)

/-- A cut of lines into groups: one after another, they are the lines from the first on that
begins a frame. -/
structure Cut (ls : List (List Char)) (groups : List (List (List Char))) : Prop where
  whole : ∃ before, ls = before ++ groups.flatten ∧ ∀ line ∈ before, ¬ BeginsFrame line
  grouped : ∀ g ∈ groups, Group g

/-- The first line of groups begins a frame. -/
theorem begins_of_flatten {groups : List (List (List Char))} {line : List Char}
    {ls : List (List Char)} (grouped : ∀ g ∈ groups, Group g)
    (eq : groups.flatten = line :: ls) : BeginsFrame line := by
  cases groups with
  | nil => cases eq
  | cons g groups =>
    obtain ⟨begins, -⟩ := grouped g List.mem_cons_self
    cases eq
    exact begins

/-- Lines that begin no frame end where the groups after them begin. -/
theorem append_flatten_inj {ls ls' : List (List Char)} {groups groups' : List (List (List Char))}
    (continued : ∀ line ∈ ls, ¬ BeginsFrame line) (grouped : ∀ g ∈ groups, Group g)
    (continued' : ∀ line ∈ ls', ¬ BeginsFrame line) (grouped' : ∀ g ∈ groups', Group g)
    (same : ls ++ groups.flatten = ls' ++ groups'.flatten) :
    ls = ls' ∧ groups.flatten = groups'.flatten := by
  induction ls generalizing ls' with
  | nil =>
    cases ls' with
    | nil => exact ⟨rfl, same⟩
    | cons line' ls' =>
      exact absurd (begins_of_flatten grouped same) (continued' line' List.mem_cons_self)
  | cons line ls ih =>
    cases ls' with
    | nil => exact absurd (begins_of_flatten grouped' same.symm) (continued line List.mem_cons_self)
    | cons line' ls' =>
      rw [List.cons_append, List.cons_append, List.cons.injEq] at same
      obtain ⟨rfl, same⟩ := same
      rw [List.forall_mem_cons] at continued continued'
      obtain ⟨rfl, rest⟩ := ih continued.2 continued'.2 same
      exact ⟨rfl, rest⟩

/-- Groups are told by their lines. -/
theorem groups_eq_of_flatten {groups groups' : List (List (List Char))}
    (grouped : ∀ g ∈ groups, Group g) (grouped' : ∀ g ∈ groups', Group g)
    (same : groups.flatten = groups'.flatten) : groups = groups' := by
  induction groups generalizing groups' with
  | nil =>
    cases groups' with
    | nil => rfl
    | cons g' groups' =>
      obtain ⟨-, -⟩ := grouped' g' List.mem_cons_self
      cases same
  | cons g groups ih =>
    obtain @⟨first, following, -, continued⟩ := grouped g List.mem_cons_self
    cases groups' with
    | nil => cases same
    | cons g' groups' =>
      obtain @⟨first', following', -, continued'⟩ := grouped' g' List.mem_cons_self
      rw [List.forall_mem_cons] at grouped grouped'
      rw [List.flatten_cons, List.flatten_cons, List.cons_append, List.cons_append,
        List.cons.injEq] at same
      obtain ⟨rfl, same⟩ := same
      -- Both first groups go on up to the same line.
      obtain ⟨rfl, rest⟩ :=
        append_flatten_inj continued grouped.2 continued' grouped'.2 same
      rw [ih grouped.2 grouped'.2 rest]

/-- Lines are cut in one way only. -/
theorem Cut.unique {ls : List (List Char)} {groups groups' : List (List (List Char))}
    (cut : Cut ls groups) (cut' : Cut ls groups') : groups' = groups := by
  obtain ⟨before, parts, outside⟩ := cut.whole
  obtain ⟨before', parts', outside'⟩ := cut'.whole
  obtain ⟨-, same⟩ :=
    append_flatten_inj outside cut.grouped outside' cut'.grouped (parts.symm.trans parts')
  exact groups_eq_of_flatten cut'.grouped cut.grouped same.symm

/-! ## The frames of lines -/

/-- The lines of a group in one, with a space between each and the next. -/
def joined (g : List (List Char)) : List Char :=
  [' '].intercalate g

theorem joined_cons (first : List Char) (following : List (List Char)) :
    joined (first :: following) = join first following := by
  induction following generalizing first with
  | nil => simp [joined, join]
  | cons line following ih =>
    rw [joined, List.intercalate_cons_cons, ← joined, ih line, join, join, List.flatMap_cons]
    simp

/-- The lines that follow go to the frame of the latest line that begins one. -/
theorem group_cons (line : List Char) (ls : List (List Char)) :
    group (line :: ls) = if beginsFrame line then ([], join line (group ls).1 :: (group ls).2)
      else (line :: (group ls).1, (group ls).2) := rfl

/-- The frames of lines are those of the groups of their cut. -/
theorem exists_cut (ls : List (List Char)) :
    ∃ groups, Cut ls groups ∧ (group ls).2 = groups.map joined := by
  -- The lines that belong to no frame yet are the lines before the first group.
  have parts : ∃ groups : List (List (List Char)), ls = (group ls).1 ++ groups.flatten ∧
      (∀ line ∈ (group ls).1, ¬ BeginsFrame line) ∧ (∀ g ∈ groups, Group g) ∧
      (group ls).2 = groups.map joined := by
    induction ls with
    | nil => exact ⟨[], rfl, List.forall_mem_nil _, List.forall_mem_nil _, rfl⟩
    | cons line ls ih =>
      obtain ⟨groups, whole, before, grouped, eq⟩ := ih
      by_cases begins : beginsFrame line = true
      · rw [group_cons, if_pos begins]
        refine ⟨(line :: (group ls).1) :: groups, ?_, List.forall_mem_nil _,
          List.forall_mem_cons.mpr ⟨.intro (beginsFrame_iff.mp begins) before, grouped⟩, ?_⟩
        · rw [List.nil_append, List.flatten_cons, List.cons_append, ← whole]
        · rw [List.map_cons, joined_cons, eq]
      · rw [group_cons, if_neg begins]
        refine ⟨groups, ?_, List.forall_mem_cons.mpr ⟨?_, before⟩, grouped, eq⟩
        · rw [List.cons_append, ← whole]
        · rwa [← beginsFrame_iff]
  obtain ⟨groups, whole, before, grouped, eq⟩ := parts
  exact ⟨groups, ⟨⟨_, whole, before⟩, grouped⟩, eq⟩

/-! ## Line by line -/

/-- What a line adds to the frames that were found, the latest first. Nothing is added by a line
that would begin one frame more than `depth`. -/
def addLine (depth : Nat) (found : List (List Char)) (line : List Char) :
    Option (List (List Char)) :=
  if beginsFrame line then
    if found.length = depth then none else some (line :: found)
  else
    match found with
    | [] => some []
    | latest :: earlier => some ((latest ++ ' ' :: line) :: earlier)

/-- Finds frames line by line, and stops where no more are to be added. -/
def collect (depth : Nat) (found : List (List Char)) : List (List Char) → List (List Char)
  | [] => found
  | line :: rest =>
    if (trim line).isEmpty then collect depth found rest
    else
      match addLine depth found (trim line) with
      | none => found
      | some found => collect depth found rest

/-- The frames that were found, with all that the lines to come add to them. -/
def completed (found ls : List (List Char)) : List (List Char) :=
  match found with
  | [] => (group ls).2
  | latest :: earlier => earlier.reverse ++ join latest (group ls).1 :: (group ls).2

theorem completed_nil (found : List (List Char)) : completed found [] = found.reverse := by
  cases found with
  | nil => rfl
  | cons latest earlier => simp [completed, group, join]

/-- A line that begins a frame is the latest frame for the lines to come. -/
theorem completed_cons_of_begins (found : List (List Char)) {line : List Char}
    (begins : beginsFrame line = true) (rest : List (List Char)) :
    completed found (line :: rest) = completed (line :: found) rest := by
  cases found <;> simp [completed, group_cons, begins, join]

/-- A line that is added leaves what the frames will come to as it is, and there are no more of
them than there may be. -/
theorem completed_of_addLine {depth : Nat} {found found' : List (List Char)} {line : List Char}
    (few : found.length ≤ depth) (added : addLine depth found line = some found')
    (rest : List (List Char)) :
    found'.length ≤ depth ∧ completed found' rest = completed found (line :: rest) := by
  unfold addLine at added
  by_cases begins : beginsFrame line = true
  · by_cases full : found.length = depth
    · rw [if_pos begins, if_pos full] at added
      cases added
    · rw [if_pos begins, if_neg full] at added
      cases added
      rw [List.length_cons]
      exact ⟨by omega, (completed_cons_of_begins found begins rest).symm⟩
  · rw [if_neg begins] at added
    cases found with
    | nil =>
      cases added
      exact ⟨few, by simp [completed, group_cons, begins]⟩
    | cons latest earlier =>
      cases added
      exact ⟨few, by simp [completed, group_cons, begins, join]⟩

/-- Where no more is added, the frames that were found are all that is to be shown. -/
theorem take_completed_of_stopped {depth : Nat} {found : List (List Char)} {line : List Char}
    (stopped : addLine depth found line = none) (rest : List (List Char)) :
    (completed found (line :: rest)).take depth = found.reverse := by
  unfold addLine at stopped
  by_cases begins : beginsFrame line = true
  · by_cases full : found.length = depth
    · have length : found.reverse.length = depth := by rw [List.length_reverse, full]
      rw [completed_cons_of_begins found begins, completed, List.take_left' length]
    · rw [if_pos begins, if_neg full] at stopped
      cases stopped
  · -- A line that begins no frame can always be added.
    rw [if_neg begins] at stopped
    cases found with
    | nil => cases stopped
    | cons latest earlier => cases stopped

/-- **Frames are found line by line.** What is found at the end are the first frames of the lines
that are not blank. -/
theorem reverse_collect {depth : Nat} {found : List (List Char)} (few : found.length ≤ depth)
    (ls : List (List Char)) : (collect depth found ls).reverse
      = (completed found ((ls.map trim).filter (!·.isEmpty))).take depth := by
  induction ls generalizing found with
  | nil =>
    rw [collect, List.map_nil, List.filter_nil, completed_nil, List.take_of_length_le]
    rwa [List.length_reverse]
  | cons line ls ih =>
    rw [collect, List.map_cons, List.filter_cons]
    by_cases blank : (trim line).isEmpty = true
    · rw [if_pos blank, ih few]
      simp [blank]
    · rw [if_neg blank, if_pos (by simpa using blank)]
      cases added : addLine depth found (trim line) with
      | none => exact (take_completed_of_stopped added _).symm
      | some found' =>
        obtain ⟨few', completed⟩ := completed_of_addLine few added
          ((ls.map trim).filter (!·.isEmpty))
        rw [← completed]
        exact ih few'

/-! ## What is shown -/

/-- The frame of a group. -/
def frameOf (g : List (List Char)) : String :=
  String.ofList (joined g)

/-- Nothing is shown only if there are no frames to show. -/
theorem render_eq_none_iff {text : String} {depth : Nat} :
    render text depth = none ↔ (frames text).take depth = [] := by
  unfold render
  cases shown : (frames text).take depth with
  | nil => exact iff_of_true rfl rfl
  | cons first others => exact iff_of_false (Option.some_ne_none _) (List.cons_ne_nil first others)

/-- What is shown are the first frames of the text. -/
theorem render_eq_some_iff {text : String} {depth : Nat} {shown : List String} :
    render text depth = some shown ↔ shown = (frames text).take depth ∧ shown ≠ [] := by
  unfold render
  cases (frames text).take depth with
  | nil =>
    constructor
    · intro eq
      cases eq
    · rintro ⟨rfl, nonempty⟩
      exact absurd rfl nonempty
  | cons first others =>
    constructor
    · intro eq
      cases eq
      exact ⟨rfl, List.cons_ne_nil first others⟩
    · rintro ⟨rfl, -⟩
      rfl

/-- The frames that are shown are at least one and no more than asked for. -/
theorem length_render {text : String} {depth : Nat} {shown : List String}
    (eq : render text depth = some shown) : 1 ≤ shown.length ∧ shown.length ≤ depth := by
  obtain ⟨rfl, nonempty⟩ := render_eq_some_iff.mp eq
  exact ⟨List.length_pos_iff.mpr nonempty, List.length_take_le depth (frames text)⟩

/-- Fewer frames are the first of more of them. -/
theorem render_of_le {depth more : Nat} (le : depth ≤ more) (text : String) :
    render text depth = (render text more).bind fun shown =>
      if depth = 0 then none else some (shown.take depth) := by
  have first : (frames text).take depth = ((frames text).take more).take depth := by
    rw [List.take_take, Nat.min_eq_left le]
  cases shown : render text more with
  | none =>
    rw [Option.bind_none, render_eq_none_iff, first, render_eq_none_iff.mp shown, List.take_nil]
  | some shown =>
    obtain ⟨rfl, nonempty⟩ := render_eq_some_iff.mp shown
    rw [Option.bind_some, ← first]
    by_cases zero : depth = 0
    · rw [if_pos zero, render_eq_none_iff, zero, List.take_zero]
    · rw [if_neg zero]
      refine render_eq_some_iff.mpr ⟨rfl, fun empty => ?_⟩
      rw [first] at empty
      rcases List.take_eq_nil_iff.mp empty with none | without
      · exact zero none
      · exact nonempty without

/-- **Frames are the groups of lines, and none of their lines is lost.** The lines of a text that
are not blank are cut into groups in one way only. The frames that are shown are those of the
first `depth` groups, with all lines of each of them, the last one included, and nothing is shown
only if there are no such groups. A smaller depth shows the first of the frames of a larger one,
and frames that are found line by line, up to a line that would begin one more, are the same. -/
theorem render_groups (text : String) :
    ∃ groups, Cut (contentLines text) groups ∧
      (∀ groups', Cut (contentLines text) groups' → groups' = groups) ∧
      ∀ depth,
        (render text depth = none ↔ groups.take depth = []) ∧
        (∀ shown, render text depth = some shown ↔
          groups.take depth ≠ [] ∧ shown = (groups.take depth).map frameOf) ∧
        (∀ shown, render text depth = some shown →
          shown.length ≤ depth ∧ ∀ i < depth, shown[i]? = groups[i]?.map frameOf) ∧
        (∀ more, depth ≤ more → render text depth = (render text more).bind fun shown =>
          if depth = 0 then none else some (shown.take depth)) ∧
        (collect depth [] (lines text)).reverse = (groups.take depth).map joined := by
  obtain ⟨groups, cut, eq⟩ := exists_cut (contentLines text)
  have all : frames text = groups.map frameOf := by
    rw [frames, eq, List.map_map]
    rfl
  refine ⟨groups, cut, fun _ => cut.unique, fun depth => ⟨?_, fun shown => ?_, fun shown eq => ?_,
    fun more le => render_of_le le text, ?_⟩⟩
  · rw [render_eq_none_iff, all, ← List.map_take, List.map_eq_nil_iff]
  · rw [render_eq_some_iff, all, ← List.map_take]
    constructor
    · rintro ⟨rfl, nonempty⟩
      exact ⟨fun empty => nonempty (by rw [empty, List.map_nil]), rfl⟩
    · rintro ⟨nonempty, rfl⟩
      exact ⟨rfl, fun empty => nonempty (List.map_eq_nil_iff.mp empty)⟩
  · refine ⟨(length_render eq).2, fun i lt => ?_⟩
    obtain ⟨rfl, -⟩ := render_eq_some_iff.mp eq
    rw [List.getElem?_take_of_lt lt, all, List.getElem?_map]
  · rw [reverse_collect (Nat.zero_le depth), List.map_take]
    show ((group (contentLines text)).2).take depth = _
    rw [eq]

/-- Two lines before the first frame are left out, and a line after a blank one goes to the frame
that came before. -/
theorem render_groups_continued :
    render "stack:\n at w\n 3: f\r\n\n  at x\n4 : g\n 5:" 1 = some ["3: f at x 4 : g"] ∧
    render "stack:\n at w\n 3: f\r\n\n  at x\n4 : g\n 5:" 2 = some ["3: f at x 4 : g", "5:"] := by
  obtain ⟨groups, -, only, first⟩ :=
    render_groups "stack:\n at w\n 3: f\r\n\n  at x\n4 : g\n 5:"
  have cut : groups
      = [["3: f".toList, "at x".toList, "4 : g".toList], ["5:".toList]] := by
    refine (only _ ⟨⟨["stack:".toList, "at w".toList], by decide, by decide⟩, ?_⟩).symm
    rw [List.forall_mem_cons, List.forall_mem_singleton]
    exact ⟨.intro (by decide) (by decide), .intro (by decide) (by decide)⟩
  subst cut
  obtain ⟨-, -, -, truncated, -⟩ := first 1
  obtain ⟨-, shown, -⟩ := first 2
  have both := (shown _).mpr ⟨by decide, rfl⟩
  rw [truncated 2 (by decide), both]
  exact ⟨rfl, by decide⟩

/-- No frame is shown at depth 0. -/
example : render "3: f" 0 = none := by decide

/-! ## Frames as lines -/

/-- What every line that is not blank is, after trimming. -/
structure IsContent (line : List Char) : Prop where
  nonempty : line ≠ []
  oneLine : '\n' ∉ line
  trimmed : Trimmed line

/-- What every frame is. -/
structure IsFrame (line : List Char) : Prop extends IsContent line where
  begins : BeginsFrame line

/-- The lines that are cut into groups are trimmed, and not empty. -/
theorem isContent_of_mem {text : String} {line : List Char} (mem : line ∈ contentLines text) :
    IsContent line := by
  obtain ⟨mem, nonempty⟩ := List.mem_filter.mp mem
  obtain ⟨whole, held, rfl⟩ := List.mem_map.mp mem
  refine ⟨by simpa using nonempty, fun feed => ?_, Blank.trimmed_trim whole⟩
  exact Blank.not_mem_of_mem_lines held (Blank.mem_of_mem_trim feed)

/-- Two lines with a space between them are one line without blanks at its ends. -/
theorem isContent_append {first line : List Char} (content : IsContent first)
    (content' : IsContent line) : IsContent (first ++ ' ' :: line) := by
  obtain ⟨nonempty, oneLine, ⟨head, -⟩⟩ := content
  obtain ⟨nonempty', oneLine', ⟨-, last⟩⟩ := content'
  refine ⟨by simp, ?_, ⟨?_, ?_⟩⟩
  · simp [oneLine, oneLine']
  · obtain ⟨c, first, rfl⟩ := List.exists_cons_of_ne_nil nonempty
    exact head
  · rwa [List.getLast?_append, List.getLast?_cons_of_ne_nil nonempty', Option.or_of_isSome]
    rwa [List.getLast?_isSome]

/-- A line joined with others is still one line without blanks at its ends. -/
theorem isContent_join {first : List Char} {following : List (List Char)}
    (content : IsContent first) (contents : ∀ line ∈ following, IsContent line) :
    IsContent (join first following) := by
  induction following generalizing first with
  | nil => simpa [join] using content
  | cons line following ih =>
    rw [List.forall_mem_cons] at contents
    have longer := ih (isContent_append content contents.1) contents.2
    simpa [join] using longer

/-- The frames of a text are what frames are. -/
theorem isFrame_of_mem_frames {text : String} {frame : String} (mem : frame ∈ frames text) :
    IsFrame frame.toList := by
  obtain ⟨groups, ⟨⟨before, whole, -⟩, grouped⟩, eq⟩ := exists_cut (contentLines text)
  rw [frames, eq, List.map_map] at mem
  obtain ⟨g, held, rfl⟩ := List.mem_map.mp mem
  obtain @⟨first, following, begins, -⟩ := grouped g held
  have contents : ∀ line ∈ first :: following, IsContent line := by
    intro line inGroup
    have inText : line ∈ contentLines text := by
      rw [whole]
      exact List.mem_append_right before (List.mem_flatten_of_mem held inGroup)
    exact isContent_of_mem inText
  rw [List.forall_mem_cons] at contents
  rw [Function.comp_apply, String.toList_ofList, joined_cons]
  exact ⟨isContent_join contents.1 contents.2, begins.append _⟩

/-! ## Frames that are printed -/

/-- Lines that begin frames are frames of one line each. -/
theorem group_of_begins {ls : List (List Char)} (begins : ∀ line ∈ ls, BeginsFrame line) :
    group ls = ([], ls) := by
  induction ls with
  | nil => rfl
  | cons line ls ih =>
    rw [List.forall_mem_cons] at begins
    rw [group_cons, if_pos (beginsFrame_iff.mpr begins.1), ih begins.2]
    simp [join]

/-- Frames that are printed one on a line are read back. -/
theorem frames_intercalate {shown : List String} (are : ∀ frame ∈ shown, IsFrame frame.toList) :
    frames (String.intercalate "\n" shown) = shown := by
  by_cases empty : shown = []
  · subst empty
    decide
  · have printed := Blank.lines_intercalate empty fun frame mem => (are frame mem).oneLine
    have trimmed : (shown.map String.toList).map trim = shown.map String.toList := by
      rw [List.map_map]
      exact List.map_congr_left fun frame mem => (are frame mem).trimmed.trim_eq
    have begins : ∀ line ∈ shown.map String.toList, BeginsFrame line := by
      intro line mem
      obtain ⟨frame, held, rfl⟩ := List.mem_map.mp mem
      exact (are frame held).begins
    have content : contentLines (String.intercalate "\n" shown) = shown.map String.toList := by
      rw [contentLines, printed, trimmed, List.filter_eq_self]
      intro line mem
      obtain ⟨frame, held, rfl⟩ := List.mem_map.mp mem
      simpa using (are frame held).nonempty
    rw [frames, content, group_of_begins begins, List.map_map]
    simp

/-- Frames that are shown are shown again after they were printed. -/
theorem render_intercalate {text : String} {depth more : Nat} {shown : List String}
    (eq : render text depth = some shown) (le : shown.length ≤ more) :
    render (String.intercalate "\n" shown) more = some shown := by
  obtain ⟨rfl, nonempty⟩ := render_eq_some_iff.mp eq
  have are : ∀ frame ∈ (frames text).take depth, IsFrame frame.toList :=
    fun frame mem => isFrame_of_mem_frames (List.mem_of_mem_take mem)
  rw [render_eq_some_iff, frames_intercalate are, List.take_of_length_le le]
  exact ⟨rfl, nonempty⟩

/-- What an error prints for the frames of a text is read back as these frames, and so is what it
prints if there are none. -/
theorem render_backtraceText {text : String} {depth more : Nat} {e : RemoteError}
    (eq : e.backtrace = render text depth) (le : depth ≤ more) :
    render e.backtraceText more = e.backtrace := by
  unfold RemoteError.backtraceText
  cases held : e.backtrace with
  | none =>
    have without : frames "no backtrace available" = [] := by decide
    rw [render_eq_none_iff, without, List.take_nil]
  | some shown =>
    rw [held] at eq
    exact render_intercalate eq.symm (Nat.le_trans (length_render eq.symm).2 le)

/-- **Frames that are printed are their own frames again.** A frame has no line feed in it and no
blank at its ends. If frames are printed one on a line, the text shows just these frames, at every
depth that leaves room for them, and so what an error prints for the frames of a text tells which
frames it has. -/
theorem render_printed (text : String) (depth : Nat) :
    (∀ shown, render text depth = some shown →
      (∀ frame ∈ shown, '\n' ∉ frame.toList ∧ Trimmed frame.toList) ∧
      ∀ more, shown.length ≤ more →
        render (String.intercalate "\n" shown) more = some shown) ∧
    ∀ (text' : String) (depth' : Nat) (e e' : RemoteError), e.backtrace = render text depth →
      e'.backtrace = render text' depth' → e.backtraceText = e'.backtraceText →
        e.backtrace = e'.backtrace := by
  refine ⟨fun shown eq => ⟨fun frame mem => ?_, fun more le => render_intercalate eq le⟩,
    fun text' depth' e e' eq eq' same => ?_⟩
  · obtain ⟨rfl, -⟩ := render_eq_some_iff.mp eq
    have is := isFrame_of_mem_frames (List.mem_of_mem_take mem)
    exact ⟨is.oneLine, is.trimmed⟩
  · -- Both are read back from the same text, at a depth that leaves room for either.
    rw [← render_backtraceText eq (Nat.le_max_left depth depth'), same,
      render_backtraceText eq' (Nat.le_max_right depth depth')]

/-- A carriage return within a line stays in its frame, and a line that looks like a frame within
a frame does not begin one when the frame is printed. -/
theorem render_printed_return :
    render "1: a\r2: b\n at 3: c\n" 30 = some ["1: a\r2: b at 3: c"] ∧
    render (String.intercalate "\n" ["1: a\r2: b at 3: c"]) 1 = some ["1: a\r2: b at 3: c"] ∧
    '\n' ∉ "1: a\r2: b at 3: c".toList ∧
    ∀ e : RemoteError, e.backtrace = render "" 30 → e.backtraceText ≠ "1: a\r2: b at 3: c" := by
  have shown : render "1: a\r2: b\n at 3: c\n" 30 = some ["1: a\r2: b at 3: c"] := by decide
  obtain ⟨again, told⟩ := render_printed "1: a\r2: b\n at 3: c\n" 30
  obtain ⟨lines, same⟩ := again _ shown
  refine ⟨shown, same 1 (Nat.le_refl 1), (lines _ List.mem_cons_self).1,
    fun e without printed => ?_⟩
  have equal := told "" 30 ⟨"", some ["1: a\r2: b at 3: c"]⟩ e shown.symm without printed.symm
  rw [without] at equal
  cases equal

end KeyedRpc.Backtrace
