/-
# Errors in replies

A responder reports a failure by the key `"error"` in place of a result, and may add the
frames of its call stack under `"backtrace"`.
-/
import KeyedRpc.Message.Basic
import KeyedRpc.Remote.Backtrace

namespace KeyedRpc

/-- The key that holds the text of a failure. -/
def errorKey : String := "error"

/-- The key that holds the frames of a call stack. -/
def backtraceKey : String := "backtrace"

/-- A failure that a responder reports in place of a result. -/
structure RemoteError where
  message : String
  backtrace : Option (List String)
  deriving DecidableEq, Repr

namespace RemoteError

/-- The failure that a reply reports. It does so if it has the key `"error"`, also where
that key holds no text; frames that are no array of strings do not count. -/
def ofReply? (reply : Message) : Option RemoteError :=
  if reply.contains errorKey then
    some
      { message :=
          match reply.get .string errorKey with
          | .ok text => text
          | .error e => "malformed error reply: " ++ e.text
        backtrace := (reply.get .strings backtraceKey).toOption }
  else none

/-- The frames as lines of one text. -/
def backtraceText (e : RemoteError) : String :=
  match e.backtrace with
  | some frames => String.intercalate "\n" frames
  | none => "no backtrace available"

/-- The text that reports a failure. -/
def text (e : RemoteError) : String :=
  "remote error: " ++ e.message

end RemoteError

/-! ## Writing a report -/

/-- Replaces what a reply holds by the report of a failure. The frames of the call stack
are added if there are any and they fit. A reply that has no room for the text of the
failure is left empty. -/
def Message.report (reply : Message) (text : String) (stack : Option String) :
    Except MessageError Unit × Message :=
  match reply.clear.set errorKey (.string text) with
  | .error e => (.error e, reply.clear)
  | .ok report =>
    match stack.bind (Backtrace.render · Backtrace.depth) with
    | none => (.ok (), report)
    | some frames =>
      match report.set backtraceKey (.strings frames) with
      | .ok withFrames => (.ok (), withFrames)
      | .error _ => (.ok (), report)

end KeyedRpc
