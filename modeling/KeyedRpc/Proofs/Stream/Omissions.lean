/-
# Frames that may be left out

A frame that is answered by a refusal has done nothing: no handler ran for it, and the
connection has loaded what it had loaded before (`Responder.Reacts.refused_cases`). So it may
as well not have been sent. Whichever of the refused frames are left out, the others get the
same answers, and the responder ends up with the same modules loaded and in the same state
(`Service.serve_without_refused`). Two kinds of refusals are exceptions: that of a reply that
cannot be written, as its handler has run, and that of a frame that is too long, as nothing after
it is read (`Service.serve_without_refused_exceptions`).
-/
import KeyedRpc.Proofs.Stream.Service

namespace KeyedRpc

variable {σ : Type}

/-! ## What a refused frame leaves behind -/

namespace Responder

/-- A responder loses the reply to a call if it has one that cannot be written. -/
def LosesReply (r : Registry σ) (c : Responder σ) (f : Frame) : Prop :=
  ∃ request reply state e, f.kind = .call ∧ Message.decode f.body = .ok request ∧
    c.session.dispatch r request c.state = (.ok (.ok reply), state) ∧ reply.encode = .error e

/-- **An error leaves the responder as it was**, unless it says that a reply was lost. -/
theorem Reacts.refused_cases {r : Registry σ} {c c' : Responder σ} {f : Frame}
    {e : TransportError} (h : Reacts r c f (.error e) c') : c' = c ∨ LosesReply r c f := by
  rcases h with _ | ⟨read, refused⟩ | _ | ⟨read, replied, unwritten⟩ | _ | _ | _ | _
  · exact Or.inl rfl
  · left
    rw [Session.state_of_refused refused]
  · exact Or.inr ⟨_, _, _, _, rfl, read, replied, unwritten⟩
  · exact Or.inl rfl
  · exact Or.inl rfl
  · exact Or.inl rfl

/-- No reply is lost if the limit on replies has a place in four bytes and handlers of messages
only edit replies. -/
theorem not_losesReply {r : Registry σ} (limit : r.replyLimit ≤ maxLength) (editing : r.Editing)
    {c : Responder σ} {f : Frame} (le : f.body.length ≤ maxLength) : ¬ LosesReply r c f := by
  rintro ⟨request, reply, state, e, -, read, replied, unwritten⟩
  have header := Nat.le_trans (Message.headerSize_le_of_decode read) le
  have size := Session.reply_size_le editing limit header replied
  rw [Message.encode_of_size_le size] at unwritten
  simp at unwritten

/-- A frame that is answered by a refusal leaves the responder as it was, unless its reply was
lost. -/
theorem refused_cases {r : Registry σ} {c c' : Responder σ} {f g : Frame}
    (answered : answer r f c = (.ok (.ok g), c')) (refused : g.kind = .refused) :
    c' = c ∨ LosesReply r c f := by
  obtain ⟨e | body, reacts, framed⟩ := exists_reacts answered
  · exact reacts.refused_cases
  · -- A reply is not a refusal.
    simp only [frameOf, Except.ok.injEq] at framed
    rw [framed] at refused
    simp at refused

end Responder

/-! ## Lists without some members -/

/-- A list without some of its members that have a property. -/
inductive Omits {α : Type} (P : α → Prop) : List α → List α → Prop where
  | nil : Omits P [] []
  | keep {a : α} {l k : List α} (others : Omits P l k) : Omits P (a :: l) (a :: k)
  | leaveOut {a : α} {l k : List α} (property : P a) (others : Omits P l k) : Omits P (a :: l) k

/-- What is left is in the order it was in. -/
theorem Omits.sublist {α : Type} {P : α → Prop} {l k : List α} (h : Omits P l k) :
    k.Sublist l := by
  induction h with
  | nil => exact List.Sublist.refl []
  | keep _ ih => exact ih.cons_cons _
  | leaveOut _ _ ih => exact ih.cons _

/-- What may be left out for a reason may be for a weaker one. -/
theorem Omits.mono {α : Type} {P Q : α → Prop} {l k : List α} (h : Omits P l k)
    (imp : ∀ a ∈ l, P a → Q a) : Omits Q l k := by
  induction h with
  | nil => exact .nil
  | keep _ ih => exact .keep (ih fun a mem => imp a (List.mem_cons_of_mem _ mem))
  | leaveOut property _ ih =>
    exact .leaveOut (imp _ List.mem_cons_self property)
      (ih fun a mem => imp a (List.mem_cons_of_mem _ mem))

/-! ## Answers that agree -/

/-- Frames agree if they are the same, or replies that agree. -/
inductive Frame.Agrees : Frame → Frame → Prop where
  | same (g : Frame) : Agrees g g
  | replies {m n : Message} (agrees : m.Agrees n) : Agrees ⟨.reply, m.bytes⟩ ⟨.reply, n.bytes⟩

/-- What is registered is the same, and so it only edits replies as well. -/
theorem Registry.Alike.editing {r r' : Registry σ} (alike : r.Alike r') (editing : r.Editing) :
    r'.Editing := by
  unfold Registry.Editing at editing ⊢
  rw [← alike.endpoints]
  exact editing

namespace Responder

variable {r r' : Registry σ} {c c' : Responder σ} {f : Frame}

/-- The same comes of a frame at responders that are set up alike, but for the call stacks that
replies report. -/
theorem Reacts.alike {reaction : Except TransportError (List UInt8)} (h : Reacts r c f reaction c')
    (alike : r.Alike r') (limit : r.replyLimit ≤ maxLength) (editing : r.Editing)
    (le : f.body.length ≤ maxLength) :
    Reacts r' c f reaction c' ∨ ∃ m n : Message, m.Agrees n ∧ n.size ≤ maxLength ∧
      reaction = .ok m.bytes ∧ Reacts r' c f (.ok n.bytes) c' := by
  rcases h with read | ⟨read, refused⟩ | ⟨read, replied, written⟩ | ⟨read, replied, unwritten⟩ |
    read | ⟨read, refused⟩ | ⟨read, loaded⟩ | answers
  · exact Or.inl (.unreadCall read)
  · left
    obtain ⟨result, refused', agrees⟩ := alike.session_dispatch c.session refused
    rcases result with e' | reply
    · simp only [Answer.ofSend] at agrees
      rcases agrees with _ | _ | _
      exact .refusedCall read refused'
    · rcases agrees with _ | _ | _
  · right
    obtain ⟨result, replied', agrees⟩ := alike.session_dispatch c.session replied
    obtain ⟨-, rfl⟩ := Message.encode_eq_ok_iff.mp written
    -- The other reply may be longer by a call stack, but keeps within the same limit.
    have header := Nat.le_trans (Message.headerSize_le_of_decode read) le
    rcases result with e' | reply'
    · rcases agrees with _ | _ | _
    · rcases agrees with _ | agrees | _
      rw [alike.replyLimit] at limit
      have size := Session.reply_size_le (alike.editing editing) limit header replied'
      exact ⟨_, reply', agrees, size, rfl, .replied read replied' (Message.encode_of_size_le size)⟩
  · exact absurd ⟨_, _, _, _, rfl, read, replied, unwritten⟩ (not_losesReply limit editing le)
  · exact Or.inl (.unreadLoad read)
  · left
    rw [alike.load] at refused
    exact .refusedLoad read refused
  · left
    rw [alike.load] at loaded
    exact .loaded read loaded
  · exact Or.inl (.notTaken answers)

/-- **Responders that are set up alike answer a frame by frames that agree**, and go on alike. -/
theorem answer_alike {g : Frame} (alike : r.Alike r') (limit : r.replyLimit ≤ maxLength)
    (editing : r.Editing) (le : f.body.length ≤ maxLength)
    (answered : answer r f c = (.ok (.ok g), c')) (told_le : g.body.length ≤ maxLength) :
    ∃ g', answer r' f c = (.ok (.ok g'), c') ∧ g.Agrees g' ∧ g'.body.length ≤ maxLength := by
  obtain ⟨reaction, reacts, framed⟩ := exists_reacts answered
  rcases reacts.alike alike limit editing le with reacts' | ⟨m, n, agrees, size, rfl, reacts'⟩
  · refine ⟨g, ?_, .same g, told_le⟩
    rw [answer_of_reacts reacts', framed]
  · simp only [frameOf, Except.ok.injEq] at framed
    rw [framed]
    exact ⟨_, answer_of_reacts reacts', .replies agrees, Message.length_bytes_le size⟩

end Responder

namespace Service

/-! ## Turns -/

/-- A frame that is served: the responder that it comes to, and the frame that answers it. -/
structure Turn (σ : Type) where
  before : Responder σ
  asked : Frame
  told : Frame

/-- A responder answers frames one after another, each as those before have left it. -/
inductive Turns (r : Registry σ) : Responder σ → List (Turn σ) → Responder σ → Prop where
  | nil {c : Responder σ} : Turns r c [] c
  | cons {c c' c'' : Responder σ} {f g : Frame} {turns : List (Turn σ)}
      (answered : Responder.answer r f c = (.ok (.ok g), c')) (others : Turns r c' turns c'') :
      Turns r c (⟨c, f, g⟩ :: turns) c''

/-- What is left of the frames after some turns, and how serving ends there: none are left at the
end of the stream, and those from one on whose reply is too long for a frame are not answered. -/
inductive Closes (r : Registry σ) (c : Responder σ) :
    List Frame → Except TransportError Unit → Responder σ → Prop where
  | ended : Closes r c [] (.ok ()) c
  | unframed {c' : Responder σ} {f : Frame} {unread : List Frame} {body : List UInt8}
      (reacts : Responder.Reacts r c f (.ok body) c') (exceeds : maxLength < body.length) :
      Closes r c (f :: unread) (.error (.frameTooLarge body.length maxLength)) c'

namespace Turn

/-- A turn is refused if a refusal answers its frame. -/
def Refused (t : Turn σ) : Prop :=
  t.told.kind = .refused

/-- A turn loses its reply if the responder does so. -/
def LosesReply (r : Registry σ) (t : Turn σ) : Prop :=
  Responder.LosesReply r t.before t.asked

/-- The frames of a turn have a place in frames that the responder accepts, and in any. -/
structure Fits (max : Nat) (t : Turn σ) : Prop where
  within : t.asked.body.length ≤ max
  asked_le : t.asked.body.length ≤ maxLength
  told_le : t.told.body.length ≤ maxLength

end Turn

section

variable {r : Registry σ} {max : Nat} {c c' c'' : Responder σ} {turns kept : List (Turn σ)}
  {last : List Frame} {result : Except TransportError Unit}

/-- **Refused turns may be left out**: the others follow each other as they did before. -/
theorem Turns.omit (h : Turns r c turns c')
    (omits : Omits (fun t => t.Refused ∧ ¬ t.LosesReply r) turns kept) : Turns r c kept c' := by
  induction h generalizing kept with
  | nil =>
    have none := omits.sublist
    rw [List.sublist_nil] at none
    rw [none]
    exact .nil
  | cons answered others ih =>
    rcases omits with _ | omits | ⟨⟨refused, written⟩, omits⟩
    · exact .cons answered (ih omits)
    · -- The responder is as it was before the turn, so the next may come in its place.
      have same := (Responder.refused_cases answered refused).resolve_right written
      rw [same] at ih
      exact ih omits

/-- What is left after some turns ends serving, in whatever chunks it comes. -/
theorem Closes.serve (h : Closes r c last result c')
    (fit : ∀ f ∈ last, f.body.length ≤ max ∧ f.body.length ≤ maxLength) {source : Source}
    (holds : Holds source last []) (written : List UInt8) :
    ∃ rest, serve r max ⟨source, ⟨[], [], written⟩, c⟩
      = (.ok result, ⟨rest, ⟨[], [], written⟩, c'⟩) := by
  rcases h with _ | ⟨reacts, exceeds⟩
  · rw [Source.eq_nil_of_steady holds.steady holds.bytes_eq, serve_nil]
    exact ⟨[], rfl⟩
  · rw [List.forall_mem_cons] at fit
    obtain ⟨rest, -, read⟩ := holds.exists_rest fit.1
    exact ⟨rest, serve_unframed read reacts exceeds⟩

/-- Nothing is left if handlers of messages only edit replies: then each has a frame. -/
theorem Closes.of_editing (h : Closes r c last result c') (limit : r.replyLimit ≤ maxLength)
    (editing : r.Editing) (fit : ∀ f ∈ last, f.body.length ≤ max ∧ f.body.length ≤ maxLength) :
    last = [] ∧ result = .ok () ∧ c' = c := by
  rcases h with _ | ⟨reacts, exceeds⟩
  · exact ⟨rfl, rfl, rfl⟩
  · have le := reacts.length_le limit editing (fit _ List.mem_cons_self).2
    exact absurd le (Nat.not_le_of_lt exceeds)

/-- Turns in a row are served with what is left after them, in whatever chunks the frames come. -/
theorem Turns.serve (h : Turns r c turns c') (closes : Closes r c' last result c'')
    (fits : ∀ t ∈ turns, t.Fits max)
    (fit : ∀ f ∈ last, f.body.length ≤ max ∧ f.body.length ≤ maxLength) {source : Source}
    (holds : Holds source (turns.map (·.asked) ++ last) []) (written : List UInt8) :
    ∃ rest, serve r max ⟨source, ⟨[], [], written⟩, c⟩
      = (.ok result, ⟨rest, ⟨[], [], written ++ turns.flatMap (·.told.bytes)⟩, c''⟩) := by
  induction h generalizing source written with
  | nil =>
    rw [List.flatMap_nil, List.append_nil]
    exact closes.serve fit holds written
  | cons answered others ih =>
    rw [List.forall_mem_cons] at fits
    have bytes_eq := holds.bytes_eq
    rw [List.map_cons, List.cons_append, List.flatMap_cons, List.append_assoc] at bytes_eq
    obtain ⟨rest, steady, bytes_eq, served⟩ := serve_frame written holds.steady bytes_eq
      fits.1.within fits.1.asked_le answered fits.1.told_le
    rw [served, List.flatMap_cons, ← List.append_assoc]
    exact ih closes fits.2 ⟨steady, bytes_eq⟩ _

/-- A responder that serves frames takes a turn for each of them, up to one whose reply is too long
for a frame if there is such, unless an error has no refusal. -/
theorem exists_turns {fs : List Frame}
    (fit : ∀ f ∈ fs, f.body.length ≤ max ∧ f.body.length ≤ maxLength) {source : Source}
    (holds : Holds source fs []) {written : List UInt8} {s' : Service σ}
    (served : serve r max ⟨source, ⟨[], [], written⟩, c⟩ = (.ok result, s'))
    (refusable : ∀ e, result ≠ .error (.codec e)) :
    ∃ turns last c', Turns r c turns c' ∧ Closes r c' last result s'.responder ∧
      turns.map (·.asked) ++ last = fs ∧ (∀ t ∈ turns, t.Fits max) ∧
      s'.sink = ⟨[], [], written ++ turns.flatMap (·.told.bytes)⟩ := by
  induction fs generalizing source written c with
  | nil =>
    rw [Source.eq_nil_of_steady holds.steady holds.bytes_eq, serve_nil] at served
    cases served
    refine ⟨[], [], c, .nil, .ended, rfl, List.forall_mem_nil _, ?_⟩
    rw [List.flatMap_nil, List.append_nil]
  | cons f fs ih =>
    rw [List.forall_mem_cons] at fit
    obtain ⟨rest, others, read⟩ := holds.exists_rest fit.1
    rcases answered : Responder.answer r f c with ⟨abort | e | g, c'⟩
    · rw [serve_of_read read, answered] at served
      cases served
    · -- Only an error without a refusal has no frame for an answer.
      rw [serve_of_read read, answered] at served
      cases served
      obtain ⟨e' | body, reacts, framed⟩ := Responder.exists_reacts answered
      · obtain ⟨-, rfl⟩ := Refusal.frame_eq_error_iff.mp framed.symm
        exact absurd rfl (refusable _)
      · cases framed
    · by_cases le : g.body.length ≤ maxLength
      · rw [serve_eq_of_read read answered (Frame.write_faultless .interleaved le written)] at served
        obtain ⟨turns, last, between, taken, closes, asked, fits, sink⟩ := ih fit.2 others served
        refine ⟨⟨c, f, g⟩ :: turns, last, between, .cons answered taken, closes, ?_, ?_, ?_⟩
        · rw [List.map_cons, List.cons_append, asked]
        · exact List.forall_mem_cons.mpr ⟨⟨fit.1.1, fit.1.2, le⟩, fits⟩
        · rw [sink, List.flatMap_cons, List.append_assoc]
      · obtain ⟨e | body, reacts, framed⟩ := Responder.exists_reacts answered
        · exact absurd (Refusal.spec_frame framed.symm).2.2 le
        · cases framed
          have exceeds : maxLength < body.length := Nat.lt_of_not_le le
          rw [serve_unframed read reacts exceeds] at served
          cases served
          refine ⟨[], f :: fs, c, .nil, .unframed reacts exceeds, rfl, List.forall_mem_nil _, ?_⟩
          rw [List.flatMap_nil, List.append_nil]

/-- The frames alone tell which turns are taken. -/
theorem Turns.unique {c'' : Responder σ} {turns' : List (Turn σ)} (h : Turns r c turns c')
    (h' : Turns r c turns' c'') (asked : turns'.map (·.asked) = turns.map (·.asked)) :
    turns' = turns := by
  induction h generalizing turns' with
  | nil =>
    rw [List.map_nil, List.map_eq_nil_iff] at asked
    exact asked
  | cons answered others ih =>
    rcases h' with _ | ⟨answered', others'⟩
    · simp at asked
    · simp only [List.map_cons, List.cons.injEq] at asked
      obtain ⟨rfl, asked⟩ := asked
      rw [answered, Prod.mk.injEq, Except.ok.injEq, Except.ok.injEq] at answered'
      obtain ⟨rfl, rfl⟩ := answered'
      rw [ih others' asked]

/-- Responders that are set up alike take turns with answers that agree. -/
theorem Turns.alike {r' : Registry σ} (h : Turns r c turns c') (fits : ∀ t ∈ turns, t.Fits max)
    (alike : r.Alike r') (limit : r.replyLimit ≤ maxLength) (editing : r.Editing) :
    ∃ turns', Turns r' c turns' c' ∧ (∀ t ∈ turns', t.Fits max) ∧
      turns'.map (·.asked) = turns.map (·.asked) ∧
      List.Forall₂ (fun t t' => t.told.Agrees t'.told) turns turns' := by
  induction h with
  | nil => exact ⟨[], .nil, by simp, rfl, .nil⟩
  | cons answered others ih =>
    rw [List.forall_mem_cons] at fits
    obtain ⟨⟨within, asked_le, told_le⟩, fits⟩ := fits
    obtain ⟨g', answered', agrees, told_le'⟩ :=
      Responder.answer_alike alike limit editing asked_le answered told_le
    obtain ⟨turns', others', fits', asked, matched⟩ := ih fits
    refine ⟨⟨_, _, g'⟩ :: turns', .cons answered' others', ?_, ?_, .cons agrees matched⟩
    · exact List.forall_mem_cons.mpr ⟨⟨within, asked_le, told_le'⟩, fits'⟩
    · rw [List.map_cons, List.map_cons, asked]

end

/-! ## Leaving out what was refused -/

/-- **A refusal means that nothing happened.** Frames are served, and each error among them has a
refusal; so they are answered up to one whose reply is too long for a frame, if there is such. Then
whichever of the refused frames are left out, in whatever chunks the others come, these get the
same answers, serving ends in the same way, and the responder has the same modules loaded and is in
the same state in the end. No refusal says that a reply was lost, and all frames are answered, if
handlers of messages only edit replies; then the same comes of a responder that is set up alike, but
for the call stacks that its replies report. -/
theorem serve_without_refused {r : Registry σ} (limit : r.replyLimit ≤ maxLength) {max : Nat}
    {source : Source} {fs : List Frame} {c : Responder σ} {s' : Service σ}
    {result : Except TransportError Unit}
    (fit : ∀ f ∈ fs, f.body.length ≤ max ∧ f.body.length ≤ maxLength)
    (holds : Holds source fs [])
    (served : serve r max ⟨source, Sink.faultless, c⟩ = (.ok result, s'))
    (refusable : ∀ e, result ≠ .error (.codec e)) :
    ∃ turns last c', Turns r c turns c' ∧ Closes r c' last result s'.responder ∧
      turns.map (·.asked) ++ last = fs ∧ s'.sink.written = turns.flatMap (·.told.bytes) ∧
      (∀ kept, Omits (fun t => t.Refused ∧ ¬ t.LosesReply r) turns kept →
        Turns r c kept c' ∧
        ∀ chunks : Source, chunks.Steady →
          chunks.bytes = (kept.map (·.asked) ++ last).flatMap Frame.bytes →
          ∃ rest, serve r max ⟨chunks, Sink.faultless, c⟩ = (.ok result,
            ⟨rest, ⟨[], [], kept.flatMap (·.told.bytes)⟩, s'.responder⟩)) ∧
      (r.Editing → last = [] ∧ result = .ok () ∧ (∀ t ∈ turns, ¬ t.LosesReply r) ∧
        ∀ kept, Omits Turn.Refused turns kept → ∀ r', r.Alike r' →
          ∃ answers, List.Forall₂ (fun t g => t.told.Agrees g) kept answers ∧
            ∀ chunks : Source, chunks.Steady → chunks.bytes = kept.flatMap (·.asked.bytes) →
              ∃ rest, serve r' max ⟨chunks, Sink.faultless, c⟩ = (.ok (.ok ()),
                ⟨rest, ⟨[], [], answers.flatMap Frame.bytes⟩, s'.responder⟩)) := by
  obtain ⟨turns, last, c', taken, closes, asked, fits, sink⟩ :=
    exists_turns fit holds served refusable
  have fit : ∀ f ∈ last, f.body.length ≤ max ∧ f.body.length ≤ maxLength := fun f mem =>
    fit f (asked ▸ List.mem_append_right _ mem)
  have written : ∀ t ∈ turns, r.Editing → ¬ t.LosesReply r := fun t mem editing =>
    Responder.not_losesReply limit editing (fits t mem).asked_le
  refine ⟨turns, last, c', taken, closes, asked, ?_, ?_, ?_⟩
  · rw [sink, List.nil_append]
  · intro kept omits
    have taken := taken.omit omits
    refine ⟨taken, fun chunks steady bytes_eq => ?_⟩
    have fits : ∀ t ∈ kept, t.Fits max := fun t mem => fits t (omits.sublist.subset mem)
    exact taken.serve closes fits fit ⟨steady, bytes_eq.trans (List.append_nil _).symm⟩ []
  · -- Nothing is lost then, so any refused turn may be left out.
    intro editing
    obtain ⟨rfl, rfl, rfl⟩ := closes.of_editing limit editing fit
    refine ⟨rfl, rfl, fun t mem => written t mem editing, fun kept omits r' alike => ?_⟩
    have omits := omits.mono (Q := fun t => t.Refused ∧ ¬ t.LosesReply r)
      fun t mem refused => ⟨refused, written t mem editing⟩
    obtain ⟨turns', taken', fits', asked, matched⟩ := (taken.omit omits).alike
      (fun t mem => fits t (omits.sublist.subset mem)) alike limit editing
    refine ⟨turns'.map (·.told), ?_, fun chunks steady bytes_eq => ?_⟩
    · rw [List.forall₂_map_right_iff]
      exact matched
    · have holds : Holds chunks (turns'.map (·.asked) ++ []) [] := by
        refine ⟨steady, ?_⟩
        rw [bytes_eq, asked, List.append_nil, List.append_nil, List.flatMap_map]
      rw [List.flatMap_map]
      exact taken'.serve .ended fits' (List.forall_mem_nil _) holds []

/-- A call before its module is loaded, loads under the right and a wrong version, and the call
again. -/
def pingTries : List Frame :=
  [pingCall, pingLoad, ⟨.load, Message.spelling "ping" [(Request.versionKey, .string "2")]⟩,
    pingCall]

/-- Turns for these, with the answers to the calls and to the wrong version. -/
def pingTurns (unloaded mismatch reply : Frame) : List (Turn Nat) :=
  [⟨Responder.start 0, pingTries[0], unloaded⟩, ⟨Responder.start 0, pingTries[1], ⟨.reply, []⟩⟩,
    ⟨⟨⟨["ping"]⟩, 0⟩, pingTries[2], mismatch⟩, ⟨⟨⟨["ping"]⟩, 0⟩, pingTries[3], reply⟩]

/-- The first call and the second load are refused. Without them the other load and the other
call are answered as before, in other chunks. -/
theorem serve_without_refused_ping :
    ∃ refused refused' reply : Frame, refused.kind = .refused ∧ refused'.kind = .refused ∧
      (∃ rest, serve pingRegistry 64 ⟨(Source.cut [9] (pingTries.flatMap Frame.bytes)).1,
          Sink.faultless, Responder.start 0⟩
        = (.ok (.ok ()), ⟨rest, ⟨[], [], [refused, ⟨.reply, []⟩, refused', reply].flatMap
          Frame.bytes⟩, ⟨⟨["ping"]⟩, 1⟩⟩)) ∧
      ∃ rest, serve pingRegistry 64 ⟨(Source.cut [3, 20]
          ([pingTries[1], pingTries[3]].flatMap Frame.bytes)).1, Sink.faultless, Responder.start 0⟩
        = (.ok (.ok ()), ⟨rest, ⟨[], [], [⟨.reply, []⟩, reply].flatMap Frame.bytes⟩,
          ⟨⟨["ping"]⟩, 1⟩⟩) := by
  -- What comes of the frames.
  obtain ⟨m, -, framed⟩ := Refusal.frame_of_room (e := .moduleNotLoaded "ping") (by decide)
  obtain ⟨m', -, framed'⟩ := Refusal.frame_of_room
    (e := .versionMismatch "ping" "1" "2") (by decide)
  have unloaded : Responder.Reacts pingRegistry (Responder.start 0) pingTries[0]
      (.error (.moduleNotLoaded "ping")) (Responder.start 0) := .refusedCall decode_pingCall rfl
  have mismatch : Responder.Reacts pingRegistry ⟨⟨["ping"]⟩, 0⟩ pingTries[2]
      (.error (.versionMismatch "ping" "1" "2")) ⟨⟨["ping"]⟩, 0⟩ := .refusedLoad rfl rfl
  obtain ⟨body, replied⟩ : ∃ body, Responder.Reacts pingRegistry ⟨⟨["ping"]⟩, 0⟩ pingTries[3]
      (.ok body) ⟨⟨["ping"]⟩, 1⟩ := ⟨_, .replied decode_pingCall rfl rfl⟩
  have taken : Turns pingRegistry (Responder.start 0)
      (pingTurns ⟨.refused, m.bytes⟩ ⟨.refused, m'.bytes⟩ ⟨.reply, body⟩) ⟨⟨["ping"]⟩, 1⟩ := by
    have first : Responder.answer pingRegistry pingTries[0] (Responder.start 0)
        = (.ok (.ok ⟨.refused, m.bytes⟩), Responder.start 0) := by
      rw [Responder.answer_of_reacts unloaded, Responder.frameOf, framed]
    have second : Responder.answer pingRegistry pingTries[1] (Responder.start 0)
        = (.ok (.ok ⟨.reply, []⟩), ⟨⟨["ping"]⟩, 0⟩) :=
      Responder.answer_of_reacts (.loaded rfl rfl)
    have third : Responder.answer pingRegistry pingTries[2] ⟨⟨["ping"]⟩, 0⟩
        = (.ok (.ok ⟨.refused, m'.bytes⟩), ⟨⟨["ping"]⟩, 0⟩) := by
      rw [Responder.answer_of_reacts mismatch, Responder.frameOf, framed']
    exact .cons first (.cons second (.cons third
      (.cons (Responder.answer_of_reacts replied) .nil)))
  -- They are served, so the theorem applies, and its turns are these.
  have limit : pingRegistry.replyLimit ≤ maxLength := by decide
  have fit : ∀ f ∈ pingTries, f.body.length ≤ 64 ∧ f.body.length ≤ maxLength := by decide
  have fits : ∀ t ∈ pingTurns ⟨.refused, m.bytes⟩ ⟨.refused, m'.bytes⟩ ⟨.reply, body⟩,
      t.Fits 64 := by
    obtain ⟨-, -, le⟩ := Refusal.spec_frame framed
    obtain ⟨-, -, le'⟩ := Refusal.spec_frame framed'
    have reply_le := replied.length_le limit editing_pingRegistry (by decide)
    have of_mem {c : Responder Nat} {f g : Frame} (mem : f ∈ pingTries)
        (le : g.body.length ≤ maxLength) : Turn.Fits 64 ⟨c, f, g⟩ :=
      ⟨(fit f mem).1, (fit f mem).2, le⟩
    simp only [pingTurns, List.forall_mem_cons]
    exact ⟨of_mem (List.getElem_mem _) le, of_mem (List.getElem_mem _) (Nat.zero_le _),
      of_mem (List.getElem_mem _) le', of_mem (List.getElem_mem _) reply_le, by simp⟩
  have holds : Holds (Source.cut [9] (pingTries.flatMap Frame.bytes)).1 pingTries [] :=
    ⟨Source.steady_cut _ _, by rw [Source.bytes_cut, List.append_nil]⟩
  obtain ⟨rest, served⟩ := taken.serve .ended fits (List.forall_mem_nil _) holds []
  obtain ⟨turns, last, c', taken', -, asked, -, omitted, editing⟩ :=
    serve_without_refused limit fit holds served (fun e eq => by cases eq)
  obtain ⟨rfl, -, written, -⟩ := editing editing_pingRegistry
  rw [List.append_nil] at asked
  obtain rfl := taken.unique taken' asked
  simp only [pingTurns, List.forall_mem_cons] at written
  obtain ⟨written, -, written', -⟩ := written
  obtain ⟨-, again⟩ := omitted _ (.leaveOut ⟨rfl, written⟩ (.keep (.leaveOut ⟨rfl, written'⟩
    (.keep .nil))))
  exact ⟨⟨.refused, m.bytes⟩, ⟨.refused, m'.bytes⟩, ⟨.reply, body⟩, rfl, rfl, ⟨rest, served⟩,
    again _ (Source.steady_cut _ _) (Source.bytes_cut _ _)⟩

/-! ## Exceptions -/

/-- A frame that is too long for a responder which accepts 31 bytes. -/
def longFrame : Frame :=
  ⟨.call, List.replicate 32 0⟩

/-- The load of the module is served, if the responder accepts it. -/
theorem serve_pingLoad {r : Registry σ} {max : Nat} {c c' : Responder σ}
    (accepts : pingLoad.body.length ≤ max) (reacts : Responder.Reacts r c pingLoad (.ok []) c') :
    ∃ rest, serve r max ⟨[.chunk pingLoad.bytes], Sink.faultless, c⟩
      = (.ok (.ok ()), ⟨rest, ⟨[], [], (Frame.mk .reply []).bytes⟩, c'⟩) := by
  have le : pingLoad.body.length ≤ maxLength := by decide
  have holds : Holds [.chunk pingLoad.bytes] [pingLoad] [] := ⟨Source.steady_singleton rfl, rfl⟩
  have serves : Serves r (.ok ()) c [pingLoad] [⟨.reply, []⟩] (.ok ()) c' :=
    .replied reacts (Nat.zero_le _) .ended
  exact serves.serve (List.forall_mem_singleton.mpr ⟨accepts, le⟩) .clean holds []

/-- A frame that is too long is refused, and then nothing else is answered; a call whose reply
cannot be written is refused as well, and its handler has run. Without them the load is answered,
and the handler has not run. -/
theorem serve_without_refused_exceptions :
    (∃ (refusal : Frame) (rest rest' : Source), refusal.kind = .refused ∧
      serve pingRegistry 31 ⟨[.chunk (longFrame.bytes ++ pingLoad.bytes)], Sink.faultless,
          Responder.start 0⟩
        = (.ok (.error (.frameTooLarge 32 31)),
            ⟨rest, ⟨[], [], refusal.bytes⟩, Responder.start 0⟩) ∧
      serve pingRegistry 31 ⟨[.chunk pingLoad.bytes], Sink.faultless, Responder.start 0⟩
        = (.ok (.ok ()), ⟨rest', ⟨[], [], (Frame.mk .reply []).bytes⟩, ⟨⟨["ping"]⟩, 0⟩⟩)) ∧
    ∃ (refusal : Frame) (rest rest' : Source), refusal.kind = .refused ∧
      serve (replacingRegistry fun _ => Message.empty (longTag (maxLength + 1))) 64
          ⟨[.chunk (pingLoad.bytes ++ pingCall.bytes)], Sink.faultless, Responder.start 0⟩
        = (.ok (.ok ()), ⟨rest, ⟨[], [], [⟨.reply, []⟩, refusal].flatMap Frame.bytes⟩,
            ⟨⟨["ping"]⟩, 1⟩⟩) ∧
      serve (replacingRegistry fun _ => Message.empty (longTag (maxLength + 1))) 64
          ⟨[.chunk pingLoad.bytes], Sink.faultless, Responder.start 0⟩
        = (.ok (.ok ()), ⟨rest', ⟨[], [], (Frame.mk .reply []).bytes⟩, ⟨⟨["ping"]⟩, 0⟩⟩) := by
  constructor
  · -- The first frame is where the stream ends for the responder.
    obtain ⟨m, -, framed⟩ := Refusal.frame_of_room (e := .frameTooLarge 32 31) (by decide)
    have told : parting (.error (.frameTooLarge 32 31)) = [⟨.refused, m.bytes⟩] := by
      rw [parting, framed]
      rfl
    have ends : Frame.Ends 31 (longFrame.bytes ++ pingLoad.bytes) []
        (.error (.frameTooLarge 32 31)) :=
      @Frame.Ends.tooLarge 31 .call (littleEndian 32) _ [] rfl (by decide)
    have holds : Holds [.chunk (longFrame.bytes ++ pingLoad.bytes)] []
        (longFrame.bytes ++ pingLoad.bytes) := ⟨Source.steady_singleton rfl, rfl⟩
    obtain ⟨rest, served⟩ := Serves.serve (r := pingRegistry) (c := Responder.start 0) .ended
      (List.forall_mem_nil _) ends holds []
    rw [told, List.flatMap_singleton] at served
    have accepts : pingLoad.body.length ≤ 31 := by decide
    have loaded : Responder.Reacts pingRegistry (Responder.start 0) pingLoad (.ok [])
        ⟨⟨["ping"]⟩, 0⟩ := .loaded rfl rfl
    obtain ⟨rest', alone⟩ := serve_pingLoad accepts loaded
    exact ⟨⟨.refused, m.bytes⟩, rest, rest', rfl, served, alone⟩
  · -- The call is counted before its reply turns out to have no bytes.
    have unwritten := encode_longTag (maxLength + 1)
    rw [if_pos (Nat.lt_succ_self maxLength)] at unwritten
    obtain ⟨m, -, framed⟩ := Refusal.frame_of_room
      (e := .codec (.blobTooLarge (maxLength + 1))) (by decide)
    have reacts : Responder.Reacts
        (replacingRegistry fun _ => Message.empty (longTag (maxLength + 1))) ⟨⟨["ping"]⟩, 0⟩
        pingCall (.error (.codec (.blobTooLarge (maxLength + 1)))) ⟨⟨["ping"]⟩, 1⟩ :=
      .unwritten decode_pingCall (dispatch_replacing _ 0) unwritten
    have serves : Serves (replacingRegistry fun _ => Message.empty (longTag (maxLength + 1)))
        (.ok ()) (Responder.start 0) [pingLoad, pingCall] [⟨.reply, []⟩, ⟨.refused, m.bytes⟩]
        (.ok ()) ⟨⟨["ping"]⟩, 1⟩ :=
      .replied (reacts_load_replacing _ 0) (Nat.zero_le _) (.refused reacts framed .ended)
    have holds : Holds [.chunk (pingLoad.bytes ++ pingCall.bytes)] [pingLoad, pingCall] [] :=
      ⟨Source.steady_singleton rfl, rfl⟩
    have fit : ∀ f ∈ [pingLoad, pingCall], f.body.length ≤ 64 ∧ f.body.length ≤ maxLength := by
      decide
    obtain ⟨rest, served⟩ := serves.serve fit .clean holds []
    obtain ⟨rest', alone⟩ := serve_pingLoad (fit pingLoad List.mem_cons_self).1
      (reacts_load_replacing (fun _ => Message.empty (longTag (maxLength + 1))) 0)
    exact ⟨⟨.refused, m.bytes⟩, rest, rest', rfl, served, alone⟩

end Service

end KeyedRpc
