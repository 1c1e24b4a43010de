/-
# Sessions

A session knows the modules that one connection has loaded. A request is answered only
if the module that its tag names is among them.
-/
import KeyedRpc.Serving.Registry

namespace KeyedRpc

/-- The modules that a connection has loaded. -/
structure Session where
  loaded : List String
  deriving DecidableEq, Repr

namespace Session

variable {σ : Type}

/-- The session that has loaded nothing. -/
def empty : Session := ⟨[]⟩

/-- Whether a session has loaded a module. -/
def isLoaded (s : Session) (module : String) : Bool :=
  s.loaded.contains module

/-- The session that has loaded one more module. -/
def insert (s : Session) (module : String) : Session :=
  if s.isLoaded module then s else ⟨module :: s.loaded⟩

/-- A session that loads a module has loaded it, and what it had loaded before. -/
theorem isLoaded_insert (s : Session) (module module' : String) :
    (s.insert module').isLoaded module = true ↔ module = module' ∨ s.isLoaded module = true := by
  unfold insert
  by_cases loaded : s.isLoaded module' = true
  · rw [if_pos loaded]
    constructor
    · exact Or.inr
    · rintro (rfl | loaded')
      · exact loaded
      · exact loaded'
  · rw [if_neg loaded]
    simp [isLoaded]

/-- Loads a module under a version. -/
def load (s : Session) (r : Registry σ) (module version : String) :
    Except TransportError Session :=
  (r.checkLoad module version).map fun () => s.insert module

/-- Answers a request if its module is loaded. -/
def dispatch (s : Session) (r : Registry σ) (request : Message) :
    ExceptT TransportError (Serving σ) Message :=
  match moduleOf? request.method with
  | none => throw (.unknownMethod request.method)
  | some module =>
    if s.isLoaded module then r.dispatch request else throw (.moduleNotLoaded module)

end Session

end KeyedRpc
