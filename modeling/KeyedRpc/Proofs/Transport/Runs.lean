/-
# Runs over transports

Requests are answered one after another over a transport, and each answer stands beside the
state that it leaves behind. If single answers over one transport are matched by another,
then so are whole runs (`Transport.MatchedBy.trace`).
-/
import KeyedRpc.Serving.Responder
import KeyedRpc.Stream.Request
import KeyedRpc.Transport.Basic
import Mathlib.Data.List.Forall2

namespace KeyedRpc

variable {σ τ υ : Type}

/-! ## Answers -/

/-- What comes back for a request. -/
inductive Answer where
  /-- The module is loaded. -/
  | loaded
  /-- The request is answered. -/
  | replied (m : Message)
  /-- Nothing is loaded or answered. -/
  | failed (e : TransportError)

namespace Answer

/-- What comes back for a load. -/
def ofLoad : Except TransportError Unit → Answer
  | .ok () => loaded
  | .error e => failed e

/-- What comes back for a request that is sent. -/
def ofSend : Except TransportError Message → Answer
  | .ok m => replied m
  | .error e => failed e

end Answer

namespace Transport

/-- The transport that hands messages as they are to the responder, with nothing in
between. -/
def direct (r : Registry σ) : Transport (Serving (Responder σ)) where
  load := Responder.load r
  send := Responder.dispatch r

/-- Has a request answered. -/
def ask (t : Transport (Serving τ)) : Request → Serving τ Answer
  | .load module version => Answer.ofLoad <$> (t.load module version).run
  | .call m => Answer.ofSend <$> (t.send m).run

/-- Has requests answered one after another. Each answer comes with the state after it; the
responder must not stop. -/
def trace (t : Transport (Serving τ)) : List Request → τ → Except Abort (List (Answer × τ))
  | [], _ => .ok []
  | request :: requests, s =>
    match t.ask request s with
    | (.ok answer, s) => (trace t requests s).map ((answer, s) :: ·)
    | (.error abort, _) => .error abort

/-! ## Matching runs -/

/-- Two lists that are each matched with a third are matched with each other. -/
theorem forall₂_join {α β γ : Type} {R : α → β → Prop} {S : α → γ → Prop} {T : β → γ → Prop}
    (join : ∀ {a b c}, R a b → S a c → T b c) {as : List α} {bs : List β} {cs : List γ}
    (left : List.Forall₂ R as bs) (right : List.Forall₂ S as cs) : List.Forall₂ T bs cs := by
  induction left generalizing cs with
  | nil =>
    cases right
    exact .nil
  | cons first _ ih =>
    cases right with
    | cons first' rest' => exact .cons (join first first') (ih rest')

theorem trace_cons_eq_ok_iff {t : Transport (Serving τ)} {request : Request}
    {requests : List Request} {s : τ} {told : List (Answer × τ)} :
    t.trace (request :: requests) s = .ok told ↔
      ∃ answer next rest, t.ask request s = (.ok answer, next) ∧
        t.trace requests next = .ok rest ∧ told = (answer, next) :: rest := by
  rw [trace]
  constructor
  · intro h
    rcases asked : t.ask request s with ⟨abort | answer, next⟩
    · rw [asked] at h
      cases h
    · rw [asked] at h
      dsimp only at h
      cases traced : trace t requests next with
      | error abort =>
        rw [traced] at h
        cases h
      | ok rest =>
        rw [traced] at h
        cases h
        exact ⟨answer, next, rest, rfl, traced, rfl⟩
  · rintro ⟨answer, next, rest, asked, traced, rfl⟩
    rw [asked]
    dsimp only
    rw [traced]
    rfl

/-- A transport is matched by another if answers over the one are matched by answers over
the other that `agree`, and both leave behind states in the relation `rel` if they start in
such states. Requests and answers need to be matched if they fit. -/
def MatchedBy (t : Transport (Serving τ)) (u : Transport (Serving υ)) (rel : τ → υ → Prop)
    (agree : Answer → Answer → Prop) (fitsRequest : Request → Prop) (fitsAnswer : Answer → Prop) :
    Prop :=
  ∀ (request : Request) (s next : τ) (s' : υ) (answer : Answer), fitsRequest request →
    fitsAnswer answer → rel s s' → t.ask request s = (.ok answer, next) →
      ∃ answer' next', u.ask request s' = (.ok answer', next') ∧ agree answer answer' ∧
        rel next next'

/-- **If single answers are matched, whole runs are.** -/
theorem MatchedBy.trace {t : Transport (Serving τ)} {u : Transport (Serving υ)}
    {rel : τ → υ → Prop} {agree : Answer → Answer → Prop} {fitsRequest : Request → Prop}
    {fitsAnswer : Answer → Prop} (step : t.MatchedBy u rel agree fitsRequest fitsAnswer)
    {requests : List Request} {s : τ} {s' : υ} {told : List (Answer × τ)}
    (requests_fit : ∀ request ∈ requests, fitsRequest request)
    (answers_fit : ∀ turn ∈ told, fitsAnswer turn.1) (start : rel s s')
    (run : t.trace requests s = .ok told) :
    ∃ told', u.trace requests s' = .ok told' ∧
      List.Forall₂ (fun a b => agree a.1 b.1 ∧ rel a.2 b.2) told told' := by
  -- The states are general: a step changes both, and they are related again.
  induction requests generalizing s s' told with
  | nil =>
    cases run
    exact ⟨[], rfl, List.Forall₂.nil⟩
  | cons request requests ih =>
    obtain ⟨answer, next, rest, asked, traced, rfl⟩ := trace_cons_eq_ok_iff.mp run
    obtain ⟨fits, requests_fit⟩ := List.forall_mem_cons.mp requests_fit
    obtain ⟨fits', answers_fit⟩ := List.forall_mem_cons.mp answers_fit
    obtain ⟨answer', next', asked', agrees, related⟩ :=
      step request s next s' answer fits fits' start asked
    obtain ⟨rest', traced', matched⟩ := ih requests_fit answers_fit related traced
    exact ⟨(answer', next') :: rest', trace_cons_eq_ok_iff.mpr ⟨_, _, _, asked', traced', rfl⟩,
      List.Forall₂.cons ⟨agrees, related⟩ matched⟩

end Transport

end KeyedRpc
