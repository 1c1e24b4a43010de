/-
# What was registered last counts

A registry is filled by registrations, one after another, each for the tag of its operation.
Different operations may have the same tag, and then the later registration takes the place of
the earlier one, with its endpoint and its signature. So a tag is answered by the endpoint that
was registered for it last, and the listing shows the signatures of the tags whose last
registration has one, in the order of the tags (`Registry.last_counts`). In which order a
listing comes upon the endpoints makes no difference to it (`Registry.listing_eq_signatures`).
-/
import KeyedRpc.Serving.Registry
import Mathlib.Data.List.Induction
import Mathlib.Data.List.Nodup

namespace KeyedRpc

open Utf8 (Precedes)

variable {σ : Type}

/-! ## Registrations -/

/-- What is registered at a registry: a handler of a method, or a handler of messages for an
operation of a module. -/
inductive Registration (σ : Type) where
  | typed (m : Method) (handle : MethodHandler σ m)
  | raw (module name : String) (handle : Handler σ)

namespace Registration

/-- The tag that a registration is for. -/
def tag : Registration σ → String
  | typed m _ => m.tag
  | raw module name _ => methodTag module name

/-- The endpoint that a registration gives to its tag. -/
def endpoint : Registration σ → Endpoint σ
  | typed m handle => .typed m handle
  | raw _ _ handle => .raw handle

/-- A registration is the last for its tag, if none for the same tag comes after it. -/
def LastIn (history : List (Registration σ)) (registration : Registration σ) : Prop :=
  ∃ before after, history = before ++ registration :: after ∧
    ∀ later ∈ after, later.tag ≠ registration.tag

theorem LastIn.mem {history : List (Registration σ)} {registration : Registration σ}
    (last : LastIn history registration) : registration ∈ history := by
  obtain ⟨before, after, rfl, -⟩ := last
  exact List.mem_append_right before List.mem_cons_self

/-- The latest registration is the last under its tag, and takes the place of earlier ones. -/
theorem lastIn_append_singleton {history : List (Registration σ)}
    {latest registration : Registration σ} :
    LastIn (history ++ [latest]) registration ↔
      registration = latest ∨ LastIn history registration ∧ latest.tag ≠ registration.tag := by
  constructor
  · rintro ⟨before, after, parts, others⟩
    -- The registration is the one that was added, or stands before it.
    rcases List.eq_nil_or_concat after with rfl | ⟨between, last, rfl⟩
    · obtain ⟨-, same⟩ := List.append_inj' parts rfl
      cases same
      exact Or.inl rfl
    · rw [List.concat_eq_append, ← List.cons_append, ← List.append_assoc] at parts
      obtain ⟨rfl, same⟩ := List.append_inj' parts rfl
      cases same
      rw [List.concat_eq_append, List.forall_mem_append, List.forall_mem_singleton] at others
      exact Or.inr ⟨⟨before, between, rfl, others.1⟩, others.2⟩
  · rintro (rfl | ⟨⟨before, after, rfl, others⟩, other⟩)
    · exact ⟨history, [], rfl, List.forall_mem_nil _⟩
    · refine ⟨before, after ++ [latest], by simp, ?_⟩
      rw [List.forall_mem_append, List.forall_mem_singleton]
      exact ⟨others, other⟩

end Registration

open Registration (LastIn)

namespace Registry

/-- The registry after one more registration. -/
def add (r : Registry σ) : Registration σ → Registry σ
  | .typed m handle => r.register m handle
  | .raw module name handle => r.registerRaw module name handle

/-- The registry after a history of registrations. -/
def addAll (r : Registry σ) (history : List (Registration σ)) : Registry σ :=
  history.foldl add r

theorem addAll_append_singleton (r : Registry σ) (history : List (Registration σ))
    (latest : Registration σ) : r.addAll (history ++ [latest]) = (r.addAll history).add latest := by
  rw [addAll, List.foldl_append]
  rfl

/-! ## Endpoints -/

/-- A registration puts its endpoint under its tag, and leaves all other tags alone. -/
theorem get?_add (r : Registry σ) (registration : Registration σ) (tag : String) :
    (r.add registration).endpoints.get? tag
      = if tag = registration.tag then some registration.endpoint else r.endpoints.get? tag := by
  cases registration with
  | typed m handle => exact KeyMap.get?_insert _ _ _ _
  | raw module name handle => exact KeyMap.get?_insert _ _ _ _

theorem settings_addAll (r : Registry σ) (history : List (Registration σ)) :
    (r.addAll history).replyLimit = r.replyLimit ∧ (r.addAll history).stackAt = r.stackAt := by
  induction history generalizing r with
  | nil => exact ⟨rfl, rfl⟩
  | cons registration history ih =>
    have settings := ih (r.add registration)
    cases registration with
    | typed m handle => exact settings
    | raw module name handle => exact settings

section Filled

variable {limit : Nat} {stackAt : σ → Option String} {history : List (Registration σ)}

/-- **A tag has the endpoint that was registered for it last**, and no other. -/
theorem get?_addAll_eq_some_iff {tag : String} {e : Endpoint σ} :
    ((withReplyLimit limit stackAt).addAll history).endpoints.get? tag = some e ↔
      ∃ registration, LastIn history registration ∧ registration.tag = tag ∧
        registration.endpoint = e := by
  -- The induction takes registrations away from the end: what is last decides.
  induction history using List.reverseRecOn with
  | nil =>
    constructor
    · intro h
      cases h
    · rintro ⟨registration, last, -⟩
      cases last.mem
  | append_singleton history latest ih =>
    rw [addAll_append_singleton, get?_add]
    by_cases same : tag = latest.tag
    · rw [if_pos same, Option.some.injEq]
      constructor
      · rintro rfl
        exact ⟨latest, Registration.lastIn_append_singleton.mpr (Or.inl rfl), same.symm, rfl⟩
      · rintro ⟨registration, last, rfl, rfl⟩
        rcases Registration.lastIn_append_singleton.mp last with rfl | ⟨-, other⟩
        · rfl
        · exact absurd same.symm other
    · rw [if_neg same, ih]
      constructor
      · rintro ⟨registration, last, rfl, rfl⟩
        exact ⟨registration, Registration.lastIn_append_singleton.mpr
          (Or.inr ⟨last, Ne.symm same⟩), rfl, rfl⟩
      · rintro ⟨registration, last, rfl, rfl⟩
        rcases Registration.lastIn_append_singleton.mp last with rfl | ⟨last, -⟩
        · exact absurd rfl same
        · exact ⟨registration, last, rfl, rfl⟩

/-- A tag that was registered has a last registration. -/
theorem exists_lastIn_iff {tag : String} :
    (∃ registration, LastIn history registration ∧ registration.tag = tag) ↔
      ∃ registration ∈ history, registration.tag = tag := by
  constructor
  · rintro ⟨registration, last, tagged⟩
    exact ⟨registration, last.mem, tagged⟩
  · rintro ⟨registration, mem, tagged⟩
    induction history using List.reverseRecOn with
    | nil => cases mem
    | append_singleton history latest ih =>
      by_cases same : latest.tag = tag
      · exact ⟨latest, Registration.lastIn_append_singleton.mpr (Or.inl rfl), same⟩
      · rcases List.mem_append.mp mem with mem | mem
        · obtain ⟨last, lastIn, rfl⟩ := ih mem
          exact ⟨last, Registration.lastIn_append_singleton.mpr (Or.inr ⟨lastIn, same⟩), rfl⟩
        · rw [List.mem_singleton.mp mem] at tagged
          exact absurd tagged same

/-- Nothing stands under a tag only if nothing was registered under it. -/
theorem get?_addAll_eq_none_iff {tag : String} :
    ((withReplyLimit limit stackAt).addAll history).endpoints.get? tag = none ↔
      ∀ registration ∈ history, registration.tag ≠ tag := by
  rw [Option.eq_none_iff_forall_ne_some]
  constructor
  · intro none registration mem tagged
    obtain ⟨last, lastIn, tagged⟩ := exists_lastIn_iff.mpr ⟨registration, mem, tagged⟩
    exact none _ (get?_addAll_eq_some_iff.mpr ⟨last, lastIn, tagged, rfl⟩)
  · intro untagged e found
    obtain ⟨last, lastIn, tagged, -⟩ := get?_addAll_eq_some_iff.mp found
    exact untagged last lastIn.mem tagged

/-- There is a method for a tag just if one was registered under it. -/
theorem hasMethod_addAll {tag : String} :
    ((withReplyLimit limit stackAt).addAll history).hasMethod tag = true ↔
      ∃ registration ∈ history, registration.tag = tag := by
  rw [hasMethod, KeyMap.contains, Option.isSome_iff_ne_none, Ne, get?_addAll_eq_none_iff]
  simp

/-- A request is answered by the endpoint that was registered for its tag last, which starts
from an empty reply with the tag and the limit of the registry. -/
theorem dispatch_addAll {registration : Registration σ} (last : LastIn history registration)
    {request : Message} (tagged : registration.tag = request.method) :
    ((withReplyLimit limit stackAt).addAll history).dispatch request
      = ExceptT.lift (registration.endpoint.handler.invoke stackAt request
          (Message.withLimit request.method limit)) := by
  obtain ⟨replyLimit, stack⟩ := settings_addAll (withReplyLimit limit stackAt) history
  rw [dispatch, get?_addAll_eq_some_iff.mpr ⟨registration, last, tagged, rfl⟩, replyLimit, stack]
  rfl

/-- A request with a tag that nothing was registered under is refused. -/
theorem dispatch_addAll_untagged {request : Message}
    (untagged : ∀ registration ∈ history, registration.tag ≠ request.method) :
    ((withReplyLimit limit stackAt).addAll history).dispatch request
      = throw (.unknownMethod request.method) := by
  rw [dispatch, get?_addAll_eq_none_iff.mpr untagged]

/-! ## Signatures -/

/-- The signatures of a registry that was filled are those of the methods that were registered
last for their tags. -/
theorem mem_signatures_addAll {s : Signature} :
    s ∈ ((withReplyLimit limit stackAt).addAll history).signatures ↔
      ∃ m handle, LastIn history (.typed m handle) ∧ m.signature = s := by
  rw [signatures, List.mem_filterMap]
  constructor
  · rintro ⟨⟨tag, e⟩, mem, signed⟩
    obtain ⟨registration, last, -, rfl⟩ :=
      get?_addAll_eq_some_iff.mp (KeyMap.get?_eq_some_iff.mpr mem)
    cases registration with
    | typed m handle => exact ⟨m, handle, last, Option.some.inj signed⟩
    | raw module name handle => cases signed
  · rintro ⟨m, handle, last, rfl⟩
    have found : ((withReplyLimit limit stackAt).addAll history).endpoints.get? m.tag
        = some (.typed m handle) := get?_addAll_eq_some_iff.mpr ⟨_, last, rfl, rfl⟩
    exact ⟨_, KeyMap.get?_eq_some_iff.mp found, rfl⟩

/-- A signature is listed under its own tag. -/
theorem tag_of_signature? {tag : String} {e : Endpoint σ} {s : Signature}
    (mem : (tag, e) ∈ ((withReplyLimit limit stackAt).addAll history).endpoints.entries)
    (signed : e.signature? = some s) : s.tag = tag := by
  obtain ⟨registration, -, rfl, rfl⟩ :=
    get?_addAll_eq_some_iff.mp (KeyMap.get?_eq_some_iff.mpr mem)
  cases registration with
  | typed m handle =>
    cases signed
    rfl
  | raw module name handle => cases signed

theorem ascending_signatures :
    ((withReplyLimit limit stackAt).addAll history).signatures.Pairwise
      fun a b => Precedes a.tag b.tag := by
  rw [signatures, List.pairwise_filterMap]
  refine List.Pairwise.imp_of_mem ?_ (KeyMap.ascending _)
  intro a b memA memB before s signed s' signed'
  rw [tag_of_signature? memA signed, tag_of_signature? memB signed']
  exact before

end Filled

/-! ## Listings -/

/-- A listing that comes upon the endpoints in some order: the signatures among them, sorted by
their tags. -/
def listing (order : List (String × Endpoint σ)) : List Signature :=
  (order.filterMap fun entry => entry.2.signature?).mergeSort
    fun a b => !decide (Precedes b.tag a.tag)

/-- A listing is sorted by tags, in whatever order the endpoints come. -/
theorem pairwise_listing (order : List (String × Endpoint σ)) :
    (listing order).Pairwise fun a b => ¬ Precedes b.tag a.tag := by
  have sorted : (listing order).Pairwise fun a b => (!decide (Precedes b.tag a.tag)) = true := by
    refine List.pairwise_mergeSort ?_ ?_ _
    · intro a b c first second
      have first : ¬ Precedes b.tag a.tag := by simpa using first
      have second : ¬ Precedes c.tag b.tag := by simpa using second
      have both : ¬ Precedes c.tag a.tag :=
        List.not_lt.mpr (List.le_trans (List.not_lt.mp first) (List.not_lt.mp second))
      simpa using both
    · intro a b
      by_cases before : Precedes b.tag a.tag
      · simp [before.asymm]
      · simp [before]
  exact sorted.imp fun h => by simpa using h

/-- **The order in which a listing comes upon the endpoints does not matter**, if the signatures
have different tags. -/
theorem listing_eq_signatures {r : Registry σ} {order : List (String × Endpoint σ)}
    (ascending : r.signatures.Pairwise fun a b => Precedes a.tag b.tag)
    (perm : order.Perm r.endpoints.entries) : listing order = r.signatures := by
  have perm : (listing order).Perm r.signatures :=
    (List.mergeSort_perm _ _).trans (perm.filterMap _)
  have distinct : (r.signatures.map Signature.tag).Nodup := by
    rw [List.Nodup, List.pairwise_map]
    exact ascending.imp Precedes.ne
  refine List.Perm.eq_of_pairwise ?_ (pairwise_listing order)
    (ascending.imp fun before => before.asymm) perm
  intro a b memA memB notAfter notBefore
  have same : a.tag = b.tag := by
    by_contra other
    exact notBefore (Utf8.precedes_of_not notAfter (Ne.symm other))
  exact List.inj_on_of_nodup_map distinct (perm.mem_iff.mp memA) memB same

/-- **What was registered last for a tag counts**, after any history of registrations. A tag has
a method if something was registered for it, a request is answered by the endpoint that was
registered for its tag last, and one for any other tag is refused. In whatever order a listing
comes upon the endpoints, it shows the signatures in strictly ascending order of their tags, and
these are the signatures of the methods that were registered last for their tags. -/
theorem last_counts (limit : Nat) (stackAt : σ → Option String)
    (history : List (Registration σ)) :
    (∀ tag, ((withReplyLimit limit stackAt).addAll history).hasMethod tag = true ↔
      ∃ registration ∈ history, registration.tag = tag) ∧
    (∀ request : Message,
      (∀ registration, LastIn history registration → registration.tag = request.method →
        ((withReplyLimit limit stackAt).addAll history).dispatch request
          = ExceptT.lift (registration.endpoint.handler.invoke stackAt request
              (Message.withLimit request.method limit))) ∧
      ((¬ ∃ registration, LastIn history registration ∧ registration.tag = request.method) →
        ((withReplyLimit limit stackAt).addAll history).dispatch request
          = throw (.unknownMethod request.method))) ∧
    ∃ signatures : List Signature,
      ((withReplyLimit limit stackAt).addAll history).signatures = signatures ∧
      (∀ order, order.Perm ((withReplyLimit limit stackAt).addAll history).endpoints.entries →
        listing order = signatures) ∧
      (signatures.Pairwise fun a b => Precedes a.tag b.tag) ∧
      ∀ s, s ∈ signatures ↔ ∃ m handle, LastIn history (.typed m handle) ∧ m.signature = s := by
  refine ⟨fun tag => hasMethod_addAll, fun request => ⟨?_, ?_⟩, _, rfl, fun order perm => ?_,
    ascending_signatures, fun s => mem_signatures_addAll⟩
  · intro registration last tagged
    exact dispatch_addAll last tagged
  · intro without
    refine dispatch_addAll_untagged fun registration mem tagged => without ?_
    exact exists_lastIn_iff.mpr ⟨registration, mem, tagged⟩
  · exact listing_eq_signatures ascending_signatures perm

/-- Two pairs of a module and a name have the tag `a.b.c`, and the second takes the place of
the first. A handler of messages gives way to a method, and a third tag has one throughout. -/
def colliding : List (Registration Nat) :=
  [.typed ⟨"a", "b.c", [], .unit⟩ fun _ => set 1, .raw "x" "y" fun _ => Filling.aside (set 2),
    .typed ⟨"m", "n", [], .unit⟩ fun _ => set 3, .raw "a.b" "c" fun _ => Filling.aside (set 4),
    .typed ⟨"x", "y", [.keyed .word], .unit⟩ fun _ => set 5]

/-- A listing that comes upon the endpoints from the last to the first shows two methods in the
order of their tags, the tag that two pairs have runs the later handler, and a name without its
module has no method. -/
theorem last_counts_colliding :
    ((withReplyLimit 64 fun _ => none).addAll colliding).hasMethod "a.b.c" = true ∧
    ((withReplyLimit 64 fun _ => none).addAll colliding).dispatch (Message.empty "a.b.c") 0
      = (.ok (.ok (Message.withLimit "a.b.c" 64)), 4) ∧
    ((withReplyLimit 64 fun _ => none).addAll colliding).dispatch (Message.empty "c") 0
      = (.ok (.error (.unknownMethod "c")), 0) ∧
    listing ((withReplyLimit 64 fun _ => none).addAll colliding).endpoints.entries.reverse
      = [⟨"m", "n", [], none⟩, ⟨"x", "y", [.word], none⟩] := by
  obtain ⟨registered, requests, signatures, listed, shown, -, -⟩ :=
    last_counts 64 (fun _ => none) colliding
  refine ⟨(registered "a.b.c").mpr ⟨_, List.mem_cons_self, by decide⟩, ?_, ?_, ?_⟩
  · have last : LastIn colliding (.raw "a.b" "c" fun _ => Filling.aside (set 4)) := by
      refine ⟨colliding.take 3, colliding.drop 4, rfl, fun later mem => ?_⟩
      cases List.mem_singleton.mp mem
      decide
    rw [(requests (Message.empty "a.b.c")).1 _ last (by decide)]
    rfl
  · have without : ¬ ∃ registration, LastIn colliding registration ∧ registration.tag = "c" := by
      rintro ⟨registration, last, tagged⟩
      have tags : ∀ tag ∈ colliding.map Registration.tag, tag ≠ "c" := by decide
      exact tags _ (List.mem_map_of_mem last.mem) tagged
    rw [(requests (Message.empty "c")).2 without]
    rfl
  · rw [shown _ (List.reverse_perm _), ← listed]
    decide

end Registry

end KeyedRpc
