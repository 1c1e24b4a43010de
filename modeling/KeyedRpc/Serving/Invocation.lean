/-
# Invocation

However a handler ends, its caller gets a reply: the one that the handler filled in, or
the report of its failure with nothing else in it. Only a failure whose report does not
fit into the reply has no answer; the responder then stops for good.
-/
import KeyedRpc.Remote.Error
import KeyedRpc.Serving.Handler

namespace KeyedRpc

variable {σ : Type}

/-- Why a responder stops for good: the failure of a method could not be reported. -/
structure Abort where
  method : String
  failure : String
  cause : MessageError
  deriving DecidableEq, Repr

/-- Work of a responder on a state; it may stop for good. -/
abbrev Serving (σ α : Type) : Type :=
  ExceptT Abort (StateM σ) α

/-- Work that fails, or stops for good, ends there. -/
theorem Serving.bind_apply {ε τ α β : Type} (x : ExceptT ε (Serving τ) α)
    (f : α → ExceptT ε (Serving τ) β) (s : τ) :
    (x >>= f) s = match x s with
      | (.ok (.ok a), s) => f a s
      | (.ok (.error e), s) => (.ok (.error e), s)
      | (.error abort, s) => (.error abort, s) := by
  simp only [bind, ExceptT.bind, ExceptT.mk, StateT.bind]
  cases x s with
  | mk result s =>
    cases result with
    | error abort => rfl
    | ok result => cases result <;> rfl

/-- Runs a handler on a request and a reply. The report of a failure takes the place of what
the handler left in the reply, and may hold the call stack that `stackAt` finds. -/
def Handler.invoke (handle : Handler σ) (stackAt : σ → Option String)
    (request reply : Message) : Serving σ Message := fun s =>
  match handle request (reply, s) with
  | (.ok (), filled, s) => (.ok filled, s)
  | (.error failure, left, s) =>
    match left.report failure.text (stackAt s) with
    | (.ok (), report) => (.ok report, s)
    | (.error e, _) => (.error ⟨left.method, failure.text, e⟩, s)

/-- Whether a failure is reported or not, the state is what the handler left. -/
theorem Handler.state_invoke (handle : Handler σ) (stackAt : σ → Option String)
    (request reply : Message) (s : σ) :
    (handle.invoke stackAt request reply s).2 = (handle request (reply, s)).2.2 := by
  unfold invoke
  rcases handle request (reply, s) with ⟨failure | ⟨⟩, left, s'⟩
  · dsimp only
    rcases left.report failure.text (stackAt s') with ⟨e | ⟨⟩, report⟩
    · rfl
    · rfl
  · rfl

end KeyedRpc
