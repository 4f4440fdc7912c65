import ScriptBinding.Handle

/-
Script VMs as the host presents them.

* `Stack`: the values on a VM's stack, or only the names of their types.
* `Stack.position?`: the place that a signed index means; positive indices
  count from the bottom, negative ones from the top.
* `Stack.typeName?`, `Stack.string?`: what stands at an index.
* `Vm`: a handle and a stack; `Vm.typeErrorText` words an argument of the wrong
  type.
* `Vm.Errors`: the messages raised in a VM, and the last of them.
-/
namespace ScriptBinding

/-- A value on a stack; of the numbers only the kind matters. -/
inductive Value where
  | null
  | integer
  | float
  | table
  | string (text : String)
  deriving DecidableEq, Repr

namespace Value

/-- The name of a value's type. -/
def typeName : Value → String
  | null => "null"
  | integer => "integer"
  | float => "float"
  | table => "table"
  | string _ => "string"

end Value

/-- A VM's stack, bottom first. -/
inductive Stack where
  | values (vs : List Value)
  | typeNames (names : List String)
  deriving DecidableEq, Repr

namespace Stack

/-- The names of the types on a stack. -/
def types : Stack → List String
  | values vs => vs.map Value.typeName
  | typeNames names => names

/-- The place, from the bottom, that an index means on a stack of `size`
values. A positive index counts from the bottom and may lie above the top; a
negative one counts down from the top; zero means no place. -/
def position? (size : Nat) (index : Int64) : Option Nat :=
  match index.toInt with
  | .ofNat 0 => none
  | .ofNat (i + 1) => some i
  | .negSucc i => if i < size then some (size - (i + 1)) else none

/-- The name of the type at an index. -/
def typeName? (s : Stack) (index : Int64) : Option String := do
  s.types[← position? s.types.length index]?

/-- The string at an index, where the stack holds values and a string stands
there. -/
def string? : Stack → Int64 → Option String
  | values vs, index => do
    match ← vs[← position? vs.length index]? with
    | .string text => some text
    | _ => none
  | typeNames _, _ => none

end Stack

/-- A VM: its name and its stack. -/
structure Vm where
  handle : Handle
  stack : Stack
  deriving DecidableEq

namespace Vm

/-- The text for an argument that is not of the expected type; a type that
cannot be resolved is unknown. -/
def typeErrorText (vm : Vm) (index : Int64) (expected : String) : String :=
  "wrong type (" ++ expected ++ " expected, got " ++
    (vm.stack.typeName? index).getD "unknown" ++ ")"

/-- The VM with an id, or the text that its host aborts with where the id is
zero. -/
def ofId (id : UInt64) (stack : Stack) : Except String Vm :=
  match Handle.ofId? id with
  | some handle => .ok ⟨handle, stack⟩
  | none => .error <| match stack with
    | .values _ => "non-zero id"
    | .typeNames _ => "called `Option::unwrap()` on a `None` value"

/-! ### The VM's own error channel -/

/-- The messages raised in a VM, in order. -/
abbrev Errors :=
  List String

namespace Errors

/-- The last error, if there is one. -/
def last? (raised : Errors) : Option String :=
  raised.getLast?

/-- The last error as a text, empty where there is none. -/
def lastText (raised : Errors) : String :=
  raised.last?.getD ""

end Errors

end Vm

end ScriptBinding
