/-
# Methods

A method has a name within a module, the wire types of its arguments and the wire type
of its result. Requests name it by its tag. Its signature says which kinds of keys the
arguments and the result take up.
-/
import KeyedRpc.Method.WireType

namespace KeyedRpc

/-! ## Tags -/

/-- The tag of an operation of a module. -/
def methodTag (module name : String) : String :=
  module ++ "." ++ name

/-- The module that a tag names: the text before its first full stop. -/
def moduleOf? (tag : String) : Option String :=
  if '.' ∈ tag.toList then some (String.ofList (tag.toList.takeWhile (· ≠ '.'))) else none

/-- The characters of a tag are those of the module, a full stop, and those of the name. -/
theorem toList_methodTag (module name : String) :
    (methodTag module name).toList = module.toList ++ '.' :: name.toList := by
  rw [methodTag, String.toList_append, String.toList_append, List.append_assoc]
  rfl

/-- Only a tag without a full stop names no module. -/
theorem moduleOf?_eq_none_iff {tag : String} : moduleOf? tag = none ↔ '.' ∉ tag.toList := by
  simp [moduleOf?]

/-- A tag names the module that it is a tag of, if that has a name without full stops. -/
theorem moduleOf?_methodTag {module : String} (name : String) (dotless : '.' ∉ module.toList) :
    moduleOf? (methodTag module name) = some module := by
  have before : ∀ c ∈ module.toList, decide (c ≠ '.') = true := by
    intro c mem
    exact decide_eq_true fun same => dotless (same ▸ mem)
  rw [moduleOf?, toList_methodTag, if_pos (by simp), List.takeWhile_append_of_pos before]
  simp

/-- Every tag with a full stop is the tag of an operation of the module that it names. -/
theorem moduleOf?_eq_some_iff {tag module : String} :
    moduleOf? tag = some module ↔ '.' ∉ module.toList ∧ ∃ name, tag = methodTag module name := by
  constructor
  · intro named
    unfold moduleOf? at named
    by_cases dotted : '.' ∈ tag.toList
    · rw [if_pos dotted] at named
      cases named
      rw [String.toList_ofList]
      have dotless : '.' ∉ tag.toList.takeWhile (· ≠ '.') := by
        intro mem
        have other := List.all_eq_true.mp List.all_takeWhile _ mem
        exact absurd other (by decide)
      refine ⟨dotless, ?_⟩
      -- What is left after the module begins with the full stop.
      have parts := List.takeWhile_append_dropWhile (p := (· ≠ '.')) (l := tag.toList)
      rcases rest : tag.toList.dropWhile (· ≠ '.') with _ | ⟨c, name⟩
      · rw [rest, List.append_nil] at parts
        rw [parts] at dotless
        exact absurd dotted dotless
      · have stop : c = '.' := by
          have head := List.head?_dropWhile_not (· ≠ '.') tag.toList
          rw [rest] at head
          simpa using head
        rw [rest, stop] at parts
        refine ⟨String.ofList name, String.toList_injective ?_⟩
        rw [toList_methodTag, String.toList_ofList, String.toList_ofList]
        exact parts.symm
    · rw [if_neg dotted] at named
      cases named
  · rintro ⟨dotless, name, rfl⟩
    exact moduleOf?_methodTag name dotless

/-- The tags of modules that have names without full stops tell their operations apart. -/
theorem methodTag_eq_iff {module name module' name' : String} (dotless : '.' ∉ module.toList)
    (dotless' : '.' ∉ module'.toList) :
    methodTag module name = methodTag module' name' ↔ module = module' ∧ name = name' := by
  constructor
  · intro same
    have named := moduleOf?_methodTag name dotless
    rw [same, moduleOf?_methodTag name' dotless', Option.some.injEq] at named
    subst named
    rw [← String.toList_inj, toList_methodTag, toList_methodTag, List.append_cancel_left_eq,
      List.cons.injEq, String.toList_inj] at same
    exact ⟨rfl, same.2⟩
  · rintro ⟨rfl, rfl⟩
    rfl

/-! ## Methods and signatures -/

/-- An operation with the types of its arguments and of its result. -/
structure Method where
  module : String
  name : String
  args : List WireType
  output : WireType
  deriving DecidableEq, Repr

/-- What a listing says about a method. -/
structure Signature where
  module : String
  name : String
  args : List Kind
  output : Option Kind
  deriving DecidableEq, Repr

namespace Method

/-- The tag by which requests name a method. -/
def tag (m : Method) : String :=
  methodTag m.module m.name

/-- The number of arguments. -/
def arity (m : Method) : Nat :=
  m.args.length

/-- The signature of a method. -/
def signature (m : Method) : Signature where
  module := m.module
  name := m.name
  args := Args.kinds m.args
  output := m.output.kind?

/-! ## Arguments and results in messages -/

/-- The arguments of a method in a request. -/
def argsOf (m : Method) (request : Message) : Except MessageError (Args m.args) :=
  ((Args.read m.args).run (Cursor.start request)).1

/-- A message with the arguments of a method put into it. -/
def withArgs (m : Method) (args : Args m.args) (request : Message) :
    Except MessageError Message :=
  match (Args.write m.args args).run (Cursor.start request) with
  | (.ok (), c) => .ok c.message
  | (.error e, _) => .error e

/-- The result of a method in a reply. -/
def outputOf (m : Method) (reply : Message) : Except MessageError m.output.Carrier :=
  ((m.output.read).run (Cursor.start reply)).1

/-- A message with the result of a method put into it. -/
def withOutput (m : Method) (output : m.output.Carrier) (reply : Message) :
    Except MessageError Message :=
  match (m.output.write output).run (Cursor.start reply) with
  | (.ok (), c) => .ok c.message
  | (.error e, _) => .error e

end Method

namespace Signature

/-- The tag of the method that a signature describes. -/
def tag (s : Signature) : String :=
  methodTag s.module s.name

/-- A signature as it is listed, such as `memory.Read(word, word) -> word-array`. -/
def text (s : Signature) : String :=
  s.tag ++ "(" ++ String.intercalate ", " (s.args.map Kind.name) ++ ") -> "
    ++ (s.output.map Kind.name).getD "()"

end Signature

end KeyedRpc
