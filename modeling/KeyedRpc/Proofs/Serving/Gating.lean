/-
# Which requests reach an endpoint

Modules and endpoints are registered, and registered anew, while a connection loads modules
and sends requests. Whatever was done in whatever order, a request reaches an endpoint if and
only if its connection has loaded the module in front of the first full stop, under the
version that the module had at that time, and an endpoint is registered for the whole tag;
the endpoint is the one registered last. Any other request runs nothing and says what it
lacks (`Link.dispatch_gated`).
-/
import KeyedRpc.Proofs.Message.Readers
import KeyedRpc.Proofs.Serving.Dispatch
import Mathlib.Data.List.Induction

namespace KeyedRpc

variable {σ : Type}

/-- A registry and one connection to it. -/
structure Link (σ : Type) where
  registry : Registry σ
  connection : Responder σ

namespace Link

/-! ## Events -/

/-- What can happen to a registry and to one connection to it. -/
inductive Event (σ : Type) where
  | registerModule (module version : String)
  | register (m : Method) (handle : MethodHandler σ m)
  | registerRaw (module name : String) (handle : Handler σ)
  | load (module version : String)
  | dispatch (request : Message)

namespace Event

/-- The version under which an event registers a module. -/
def version? (module : String) : Event σ → Option String
  | registerModule module' version => if module' = module then some version else none
  | _ => none

/-- The endpoint that an event registers for an operation of a module. -/
def endpoint? (module name : String) : Event σ → Option (Endpoint σ)
  | register m handle => if m.module = module ∧ m.name = name then some (.typed m handle) else none
  | registerRaw module' name' handle =>
    if module' = module ∧ name' = name then some (.raw handle) else none
  | _ => none

/-- The tag for which an event registers an endpoint. -/
def tag? : Event σ → Option String
  | register m _ => some m.tag
  | registerRaw module name _ => some (methodTag module name)
  | _ => none

/-- Modules for which endpoints are registered have names without full stops. -/
def Dotless : Event σ → Prop
  | register m _ => '.' ∉ m.module.toList
  | registerRaw module _ _ => '.' ∉ module.toList
  | _ => True

/-- No endpoint is registered for a tag if none is for the operation that has the tag. -/
theorem endpoint?_eq_none_iff {event : Event σ} (dotless : event.Dotless) {module : String}
    (dotless' : '.' ∉ module.toList) (name : String) :
    event.endpoint? module name = none ↔ event.tag? ≠ some (methodTag module name) := by
  cases event with
  | register m handle =>
    simp [endpoint?, tag?, Method.tag, methodTag_eq_iff dotless dotless']
  | registerRaw module' name' handle =>
    simp [endpoint?, tag?, methodTag_eq_iff dotless dotless']
  | registerModule module version => simp [endpoint?, tag?]
  | load module version => simp [endpoint?, tag?]
  | dispatch request => simp [endpoint?, tag?]

end Event

/-- The registry and the connection after an event. Of what comes back for a load or a request
nothing is kept, unless it is that the responder stops for good. -/
def step (l : Link σ) : Event σ → Except Abort (Link σ)
  | .registerModule module version =>
    .ok { l with registry := l.registry.registerModule module version }
  | .register m handle => .ok { l with registry := l.registry.register m handle }
  | .registerRaw module name handle =>
    .ok { l with registry := l.registry.registerRaw module name handle }
  | .load module version =>
    .ok { l with connection := (Responder.load l.registry module version l.connection).2 }
  | .dispatch request =>
    match Responder.dispatch l.registry request l.connection with
    | (.ok _, connection) => .ok { l with connection }
    | (.error abort, _) => .error abort

/-- The registry and the connection after a history. -/
def after (l : Link σ) (history : List (Event σ)) : Except Abort (Link σ) :=
  history.foldlM step l

/-- A registry without modules and endpoints, and a new connection to it. -/
def start (limit : Nat) (stackAt : σ → Option String) (state : σ) : Link σ :=
  ⟨Registry.withReplyLimit limit stackAt, Responder.start state⟩

theorem after_append_singleton {l l' : Link σ} {history : List (Event σ)} {event : Event σ} :
    l.after (history ++ [event]) = .ok l' ↔
      ∃ between, l.after history = .ok between ∧ between.step event = .ok l' := by
  rw [after, List.foldlM_append, bind_eq_ok_iff]
  simp only [List.foldlM_cons, List.foldlM_nil, bind_pure]
  rfl

/-! ## What a history says -/

/-- What was found last in a history. -/
def latest {α β : Type} (find : α → Option β) (history : List α) : Option β :=
  history.reverse.findSome? find

theorem latest_append_singleton {α β : Type} (find : α → Option β) (history : List α) (a : α) :
    latest find (history ++ [a]) = (find a).or (latest find history) := by
  rw [latest, List.reverse_append, List.reverse_singleton, List.singleton_append,
    List.findSome?_cons]
  cases find a <;> rfl

/-- Nothing is found only if no event has it. -/
theorem latest_eq_none_iff {α β : Type} {find : α → Option β} {history : List α} :
    latest find history = none ↔ ∀ a ∈ history, find a = none := by
  rw [latest, List.findSome?_eq_none_iff]
  simp only [List.mem_reverse]

/-- A module is loaded by a history in which it was loaded under the version that it had been
registered under last. -/
def Loaded (history : List (Event σ)) (module : String) : Prop :=
  ∃ before version after, history = before ++ .load module version :: after ∧
    latest (·.version? module) before = some version

/-- A load counts if its version is the one registered latest before it. -/
theorem loaded_append_singleton {history : List (Event σ)} {event : Event σ} {module : String} :
    Loaded (history ++ [event]) module ↔ Loaded history module ∨
      ∃ version, event = .load module version ∧
        latest (·.version? module) history = some version := by
  constructor
  · rintro ⟨before, version, after, parts, registered⟩
    -- The load is the event that was added, or stands in the history before it.
    rcases List.eq_nil_or_concat after with rfl | ⟨between, last, rfl⟩
    · obtain ⟨rfl, same⟩ := List.append_inj' parts rfl
      cases same
      exact Or.inr ⟨version, rfl, registered⟩
    · rw [List.concat_eq_append, ← List.cons_append, ← List.append_assoc] at parts
      obtain ⟨rfl, -⟩ := List.append_inj' parts rfl
      exact Or.inl ⟨before, version, between, rfl, registered⟩
  · rintro (⟨before, version, after, rfl, registered⟩ | ⟨version, rfl, registered⟩)
    · exact ⟨before, version, after ++ [event], by simp, registered⟩
    · exact ⟨history, version, [], rfl, registered⟩

/-! ## What an event changes -/

/-- A request changes neither what is registered nor what is loaded. -/
theorem step_dispatch {l l' : Link σ} {request : Message}
    (h : l.step (.dispatch request) = .ok l') :
    l'.registry = l.registry ∧ l'.connection.session = l.connection.session := by
  unfold step Responder.dispatch at h
  dsimp only at h
  rcases answered : l.connection.session.dispatch l.registry request l.connection.state with
    ⟨abort | answer, state⟩
  · rw [answered] at h
    cases h
  · rw [answered] at h
    cases h
    exact ⟨rfl, rfl⟩

/-- Only a registration of a module changes the version of one. -/
theorem modules_step {l l' : Link σ} {event : Event σ} (h : l.step event = .ok l')
    (module : String) :
    l'.registry.modules.get? module
      = (event.version? module).or (l.registry.modules.get? module) := by
  cases event with
  | registerModule module' version =>
    cases h
    show (l.registry.modules.insert module' version).get? module = _
    rw [KeyMap.get?_insert, Event.version?]
    by_cases same : module' = module
    · rw [if_pos same, if_pos same.symm]
      rfl
    · rw [if_neg same, if_neg (Ne.symm same)]
      rfl
  | register m handle =>
    cases h
    rfl
  | registerRaw module' name handle =>
    cases h
    rfl
  | load module' version =>
    cases h
    rfl
  | dispatch request =>
    rw [(step_dispatch h).1]
    rfl

/-- What is put under a tag of an operation is found for that operation. -/
theorem get?_insert_methodTag (endpoints : KeyMap (Endpoint σ)) {module' name' module name : String}
    (dotless : '.' ∉ module'.toList) (dotless' : '.' ∉ module.toList) (e : Endpoint σ) :
    (endpoints.insert (methodTag module' name') e).get? (methodTag module name)
      = (if module' = module ∧ name' = name then some e else none).or
          (endpoints.get? (methodTag module name)) := by
  rw [KeyMap.get?_insert]
  by_cases same : module' = module ∧ name' = name
  · rw [if_pos same, if_pos ((methodTag_eq_iff dotless' dotless).mpr
      ⟨same.1.symm, same.2.symm⟩)]
    rfl
  · rw [if_neg same, if_neg fun eq => same ((methodTag_eq_iff dotless dotless').mp eq.symm)]
    rfl

/-- Only a registration of a method changes what stands for one. -/
theorem endpoints_step {l l' : Link σ} {event : Event σ} (h : l.step event = .ok l')
    (dotless : event.Dotless) {module : String} (dotless' : '.' ∉ module.toList) (name : String) :
    l'.registry.endpoints.get? (methodTag module name)
      = (event.endpoint? module name).or
          (l.registry.endpoints.get? (methodTag module name)) := by
  cases event with
  | registerModule module' version =>
    cases h
    rfl
  | register m handle =>
    cases h
    exact get?_insert_methodTag l.registry.endpoints dotless dotless' (.typed m handle)
  | registerRaw module' name' handle =>
    cases h
    exact get?_insert_methodTag l.registry.endpoints dotless dotless' (.raw handle)
  | load module' version =>
    cases h
    rfl
  | dispatch request =>
    rw [(step_dispatch h).1]
    rfl

/-- A load goes through if and only if the module is registered under exactly its version. One
that does not leaves the connection as it was. -/
theorem load_cases (r : Registry σ) (module version : String) (c : Responder σ) :
    (r.modules.get? module = some version ∧ Responder.load r module version c
        = (.ok (.ok ()), { c with session := c.session.insert module })) ∨
      (r.modules.get? module ≠ some version ∧
        ∃ e, Responder.load r module version c = (.ok (.error e), c)) := by
  rcases loaded : c.session.load r module version with e | session
  · right
    constructor
    · intro registered
      have fine : c.session.load r module version = .ok (c.session.insert module) :=
        Session.load_eq_ok_iff.mpr ⟨registered, rfl⟩
      rw [loaded] at fine
      cases fine
    · exact ⟨e, by rw [Responder.load, loaded]⟩
  · left
    obtain ⟨registered, rfl⟩ := Session.load_eq_ok_iff.mp loaded
    exact ⟨registered, by rw [Responder.load, loaded]⟩

/-- Only a load of the registered version adds to what is loaded. -/
theorem isLoaded_step {l l' : Link σ} {event : Event σ} (h : l.step event = .ok l')
    (module : String) :
    l'.connection.session.isLoaded module = true ↔
      l.connection.session.isLoaded module = true ∨
        ∃ version, event = .load module version ∧
          l.registry.modules.get? module = some version := by
  cases event with
  | registerModule module' version =>
    cases h
    simp
  | register m handle =>
    cases h
    simp
  | registerRaw module' name handle =>
    cases h
    simp
  | load module' version =>
    cases h
    dsimp only
    -- A load adds its module just if the version is the registered one.
    rcases load_cases l.registry module' version l.connection with
      ⟨registered, eq⟩ | ⟨unregistered, e, eq⟩
    · rw [eq]
      dsimp only
      rw [Session.isLoaded_insert]
      constructor
      · rintro (rfl | loaded)
        · exact Or.inr ⟨version, rfl, registered⟩
        · exact Or.inl loaded
      · rintro (loaded | ⟨_, same, -⟩)
        · exact Or.inr loaded
        · cases same
          exact Or.inl rfl
    · rw [eq]
      constructor
      · exact Or.inl
      · rintro (loaded | ⟨_, same, registered⟩)
        · exact loaded
        · cases same
          exact absurd registered unregistered
  | dispatch request =>
    rw [(step_dispatch h).2]
    simp

theorem settings_step {l l' : Link σ} {event : Event σ} (h : l.step event = .ok l') :
    l'.registry.replyLimit = l.registry.replyLimit ∧ l'.registry.stackAt = l.registry.stackAt := by
  cases event with
  | dispatch request =>
    rw [(step_dispatch h).1]
    exact ⟨rfl, rfl⟩
  | _ =>
    cases h
    exact ⟨rfl, rfl⟩

/-! ## What a history comes to -/

/-- A registry and a connection are as a history says: the registry has what was registered
last, and the connection has what was loaded. -/
structure Reflects (l : Link σ) (history : List (Event σ)) : Prop where
  modules : ∀ module, l.registry.modules.get? module = latest (·.version? module) history
  endpoints : ∀ {module : String}, '.' ∉ module.toList → ∀ name,
    l.registry.endpoints.get? (methodTag module name) = latest (·.endpoint? module name) history
  loaded : ∀ module, l.connection.session.isLoaded module = true ↔ Loaded history module

/-- The registry and the session are what the history says, after every history. -/
theorem reflects_after {limit : Nat} {stackAt : σ → Option String} {state : σ}
    {history : List (Event σ)} {l : Link σ} (dotless : ∀ event ∈ history, event.Dotless)
    (run : (start limit stackAt state).after history = .ok l) : l.Reflects history := by
  -- The induction takes events away from the end: what is last decides.
  induction history using List.reverseRecOn generalizing l with
  | nil =>
    cases run
    refine ⟨fun _ => rfl, fun _ _ => rfl, fun module => ?_⟩
    constructor
    · intro loaded
      cases loaded
    · rintro ⟨before, version, after, parts, -⟩
      simp at parts
  | append_singleton history event ih =>
    obtain ⟨between, run, stepped⟩ := after_append_singleton.mp run
    have earlier := ih (fun event mem => dotless event (List.mem_append_left _ mem)) run
    have this : event.Dotless := dotless event (by simp)
    constructor
    · intro module
      rw [modules_step stepped, earlier.modules, latest_append_singleton]
    · intro module dotless' name
      rw [endpoints_step stepped this dotless', earlier.endpoints dotless',
        latest_append_singleton]
    · intro module
      rw [isLoaded_step stepped, earlier.loaded, earlier.modules, loaded_append_singleton]

/-! ## Routes -/

/-- Where a request goes: to an endpoint, or back with an error. -/
inductive Route (σ : Type) where
  | endpoint (e : Endpoint σ)
  | refused (e : TransportError)

/-- What a request gets on its route. An endpoint is invoked on the request and a reply of its
own; nothing is run for a request that is refused. -/
def Route.answer (r : Registry σ) (request : Message) :
    Route σ → ExceptT TransportError (Serving σ) Message
  | endpoint e => ExceptT.lift (e.handler.invoke r.stackAt request
      (Message.withLimit request.method r.replyLimit))
  | refused e => throw e

/-- The route of the requests for a tag, by what happened before. -/
inductive Routed (history : List (Event σ)) (tag : String) : Route σ → Prop where
  | undotted (undotted : '.' ∉ tag.toList) : Routed history tag (.refused (.unknownMethod tag))
  | unloaded {module name : String} (dotless : '.' ∉ module.toList)
      (named : tag = methodTag module name) (unloaded : ¬ Loaded history module) :
      Routed history tag (.refused (.moduleNotLoaded module))
  | unregistered {module name : String} (dotless : '.' ∉ module.toList)
      (named : tag = methodTag module name) (loaded : Loaded history module)
      (unregistered : ∀ event ∈ history, event.tag? ≠ some tag) :
      Routed history tag (.refused (.unknownMethod tag))
  | endpoint {module name : String} {e : Endpoint σ} (dotless : '.' ∉ module.toList)
      (named : tag = methodTag module name) (loaded : Loaded history module)
      (registered : latest (·.endpoint? module name) history = some e) :
      Routed history tag (.endpoint e)

/-- No endpoint is found for an operation if its tag was never registered. -/
theorem latest_endpoint?_eq_none_iff {history : List (Event σ)}
    (dotless : ∀ event ∈ history, event.Dotless) {module : String} (dotless' : '.' ∉ module.toList)
    (name : String) : latest (·.endpoint? module name) history = none ↔
      ∀ event ∈ history, event.tag? ≠ some (methodTag module name) := by
  rw [latest_eq_none_iff]
  constructor
  · intro none event mem
    exact (Event.endpoint?_eq_none_iff (dotless event mem) dotless' name).mp (none event mem)
  · intro untagged event mem
    exact (Event.endpoint?_eq_none_iff (dotless event mem) dotless' name).mpr (untagged event mem)

/-- Every request has a route. -/
theorem exists_routed {history : List (Event σ)} (dotless : ∀ event ∈ history, event.Dotless)
    (tag : String) : ∃ route, Routed history tag route := by
  rcases named : moduleOf? tag with _ | module
  · exact ⟨_, .undotted (moduleOf?_eq_none_iff.mp named)⟩
  · obtain ⟨dotless', name, rfl⟩ := moduleOf?_eq_some_iff.mp named
    by_cases loaded : Loaded history module
    · rcases registered : latest (·.endpoint? module name) history with _ | e
      · exact ⟨_, .unregistered dotless' rfl loaded
          ((latest_endpoint?_eq_none_iff dotless dotless' name).mp registered)⟩
      · exact ⟨_, .endpoint dotless' rfl loaded registered⟩
    · exact ⟨_, .unloaded dotless' rfl loaded⟩

namespace Routed

variable {history : List (Event σ)} {tag : String} {route : Route σ}

theorem dotted {module : String} (name : String) (undotted : '.' ∉ (methodTag module name).toList) :
    False :=
  undotted (by simp [toList_methodTag])

/-- A request has an endpoint to go to if its module is loaded and its tag is registered. -/
theorem endpoint_iff (dotless : ∀ event ∈ history, event.Dotless)
    (routed : Routed history tag route) : (∃ e, route = .endpoint e) ↔
      ∃ module name, '.' ∉ module.toList ∧ tag = methodTag module name ∧ Loaded history module ∧
        ∃ event ∈ history, event.tag? = some tag := by
  have tagged_iff : ∀ {module : String}, '.' ∉ module.toList → ∀ name,
      (∃ event ∈ history, event.tag? = some (methodTag module name)) ↔
        latest (·.endpoint? module name) history ≠ none := by
    intro module dotless' name
    rw [Ne, latest_endpoint?_eq_none_iff dotless dotless']
    simp
  constructor
  · rintro ⟨e, rfl⟩
    rcases routed with _ | _ | _ | ⟨dotless', rfl, loaded, registered⟩
    refine ⟨_, _, dotless', rfl, loaded, (tagged_iff dotless' _).mpr ?_⟩
    rw [registered]
    exact Option.some_ne_none e
  · rintro ⟨module, name, dotless', rfl, loaded, event, mem, tagged⟩
    rcases routed with undotted | ⟨dotless'', named, unloaded⟩ | ⟨-, -, -, unregistered⟩ | _
    · exact (dotted name undotted).elim
    · obtain ⟨rfl, -⟩ := (methodTag_eq_iff dotless' dotless'').mp named
      exact absurd loaded unloaded
    · exact absurd tagged (unregistered event mem)
    · exact ⟨_, rfl⟩

/-- What a request gets is told by its route. -/
theorem dispatch {l : Link σ} (reflects : l.Reflects history)
    (dotless : ∀ event ∈ history, event.Dotless) {request : Message}
    (routed : Routed history request.method route) :
    l.connection.session.dispatch l.registry request = route.answer l.registry request := by
  unfold Session.dispatch
  rcases routed with undotted | ⟨dotless', named, unloaded⟩ |
    ⟨dotless', named, loaded, unregistered⟩ | ⟨dotless', named, loaded, registered⟩
  · rw [moduleOf?_eq_none_iff.mpr undotted]
    rfl
  · rw [moduleOf?_eq_some_iff.mpr ⟨dotless', _, named⟩]
    dsimp only
    rw [if_neg (mt (reflects.loaded _).mp unloaded)]
    rfl
  · rw [named, ← latest_endpoint?_eq_none_iff dotless dotless', ← reflects.endpoints dotless',
      ← named] at unregistered
    rw [moduleOf?_eq_some_iff.mpr ⟨dotless', _, named⟩]
    dsimp only
    rw [if_pos ((reflects.loaded _).mpr loaded), Registry.dispatch, unregistered]
    rfl
  · rw [← reflects.endpoints dotless', ← named] at registered
    rw [moduleOf?_eq_some_iff.mpr ⟨dotless', _, named⟩]
    dsimp only
    rw [if_pos ((reflects.loaded _).mpr loaded), Registry.dispatch, registered]
    rfl

end Routed

/-- No history changes the limit of replies. -/
theorem settings_after {limit : Nat} {stackAt : σ → Option String} {state : σ}
    {history : List (Event σ)} {l : Link σ}
    (run : (start limit stackAt state).after history = .ok l) :
    l.registry.replyLimit = limit ∧ l.registry.stackAt = stackAt := by
  induction history using List.reverseRecOn generalizing l with
  | nil =>
    cases run
    exact ⟨rfl, rfl⟩
  | append_singleton history event ih =>
    obtain ⟨between, run, stepped⟩ := after_append_singleton.mp run
    rw [(settings_step stepped).1, (settings_step stepped).2]
    exact ih run

/-- **A request reaches an endpoint through its module**, after any history. A load goes through
if and only if its version is the one under which the module was registered last, and
otherwise changes nothing. A request has a route, which tells what it gets: it goes to an
endpoint if and only if its module was loaded and an endpoint was registered for its tag. -/
theorem dispatch_gated {limit : Nat} {stackAt : σ → Option String} {state : σ}
    {history : List (Event σ)} {l : Link σ} (dotless : ∀ event ∈ history, event.Dotless)
    (run : (start limit stackAt state).after history = .ok l) :
    (l.registry.replyLimit = limit ∧ l.registry.stackAt = stackAt) ∧
      (∀ module version,
        (latest (·.version? module) history = some version ∧
          Responder.load l.registry module version l.connection = (.ok (.ok ()),
            { l.connection with session := l.connection.session.insert module })) ∨
        (latest (·.version? module) history ≠ some version ∧ ∃ e,
          Responder.load l.registry module version l.connection
            = (.ok (.error e), l.connection))) ∧
      ∀ request : Message, (∃ route, Routed history request.method route) ∧
        ∀ route, Routed history request.method route →
          l.connection.session.dispatch l.registry request = route.answer l.registry request ∧
          ((∃ e, route = .endpoint e) ↔ ∃ module name, '.' ∉ module.toList ∧
            request.method = methodTag module name ∧ Loaded history module ∧
            ∃ event ∈ history, event.tag? = some request.method) := by
  have reflects := reflects_after dotless run
  refine ⟨settings_after run, ?_, ?_⟩
  · intro module version
    rw [← reflects.modules]
    exact load_cases l.registry module version l.connection
  · intro request
    refine ⟨exists_routed dotless request.method, fun route routed => ?_⟩
    exact ⟨routed.dispatch reflects dotless, routed.endpoint_iff dotless⟩

/-- A handler that leaves its number in the state. -/
def leaves (n : Nat) : Handler Nat := fun _ =>
  Filling.aside (set n)

/-- A module is loaded and then gets another version, and an operation with full stops in its
name gets another handler. -/
def gatingHistory : List (Event Nat) :=
  [.registerModule "a" "1", .registerRaw "a" "b.c" (leaves 1), .load "a" "1",
    .registerModule "a" "2", .dispatch (Message.empty "a.b.c"), .load "b" "1",
    .registerRaw "a" "b.c" (leaves 2)]

/-- The module cannot be loaded again as it was, and yet its requests reach the new handler. -/
theorem dispatch_gated_reregistered :
    ∃ l, (start 64 (fun _ => none) 0).after gatingHistory = .ok l ∧
      (∀ event ∈ gatingHistory, event.Dotless) ∧
      (∃ e, Responder.load l.registry "a" "1" l.connection = (.ok (.error e), l.connection)) ∧
      l.connection.session.dispatch l.registry (Message.empty "a.b.c")
        = (Route.endpoint (.raw (leaves 2))).answer l.registry (Message.empty "a.b.c") := by
  have dotless : ∀ event ∈ gatingHistory, event.Dotless := by
    simp [gatingHistory, Event.Dotless]
  obtain ⟨l, run⟩ : ∃ l, (start 64 (fun _ => none) 0).after gatingHistory = .ok l := ⟨_, rfl⟩
  obtain ⟨-, loads, requests⟩ := dispatch_gated dotless run
  have loaded : Loaded gatingHistory "a" :=
    ⟨gatingHistory.take 2, "1", gatingHistory.drop 3, rfl, rfl⟩
  have named : "a.b.c" = methodTag "a" "b.c" := by decide
  have routed : Routed gatingHistory "a.b.c" (.endpoint (.raw (leaves 2))) :=
    .endpoint (by decide) named loaded rfl
  refine ⟨l, run, dotless, ?_, ((requests (Message.empty "a.b.c")).2 _ routed).1⟩
  rcases loads "a" "1" with ⟨registered, -⟩ | ⟨-, refused⟩
  · exact absurd registered (by decide)
  · exact refused

end Link

end KeyedRpc
