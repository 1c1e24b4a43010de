/-
# Backtraces

The text of a call stack is folded into one line for each frame. A frame begins at a
line that starts with a number and a colon, and the lines which follow belong to it.
-/
import KeyedRpc.Text.Blank

namespace KeyedRpc.Backtrace

open Blank (trim lines)

/-- The largest number of frames that a failure reports. -/
def depth : Nat := 30

/-- Whether a line begins a frame: digits, one at least, stand before its first colon. -/
def beginsFrame (line : List Char) : Bool :=
  let number := line.takeWhile (· ≠ ':')
  line.contains ':' && !number.isEmpty && number.all Char.isDigit

/-- The lines of a text that are not blank, trimmed. -/
def contentLines (text : String) : List (List Char) :=
  ((lines text).map trim).filter (!·.isEmpty)

/-- Joins a line with the lines that follow it, a space before each. -/
def join (line : List Char) (following : List (List Char)) : List Char :=
  line ++ following.flatMap (' ' :: ·)

/-- The lines before the first that begins a frame, and the frames from there on. -/
def group (lines : List (List Char)) : List (List Char) × List (List Char) :=
  lines.foldr (fun line (following, frames) =>
    if beginsFrame line then ([], join line following :: frames)
    else (line :: following, frames)) ([], [])

/-- The frames of a text. -/
def frames (text : String) : List String :=
  (group (contentLines text)).2.map String.ofList

/-- The first frames of a text, at most `depth` of them, if it has any. -/
def render (text : String) (depth : Nat) : Option (List String) :=
  match (frames text).take depth with
  | [] => none
  | shown => some shown

end KeyedRpc.Backtrace
