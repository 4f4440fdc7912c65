import ScriptBinding.Shared.Heap
import ScriptBinding.Text.Quoted
import ScriptBinding.Handle
import ScriptBinding.Message

/-
The life of one shared value: a handle is made, cloned, read and given up, and
then its clones are.

* `Shared.Payload`: values to share; `Shared.PayloadType`: their types by name.
* `Shared.Life`: everything that can be seen of the handle and its clones.
* `Shared.Life.of`: the life of a handle that holds a value, or none.
-/
namespace ScriptBinding.Shared

/-- A type of shared values. -/
inductive PayloadType where
  | integer
  | bool
  | unit
  | string
  /-- Text of a length known at run time only. -/
  | text
  | option
  | list
  /-- A list of a length known at run time only. -/
  | slice
  | handle
  /-- A handle to an integer. -/
  | nested
  /-- Anything that has a text for diagnostics. -/
  | erased
  deriving DecidableEq, Repr

namespace PayloadType

/-- The full name of a type. -/
def name : PayloadType → String
  | integer => "i64"
  | bool => "bool"
  | unit => "()"
  | string => "alloc::string::String"
  | text => "str"
  | option => "core::option::Option<i64>"
  | list => "alloc::vec::Vec<i64>"
  | slice => "[i64]"
  | handle => "sqbind_core::vm::VmHandle"
  | nested => "sqbind_core::shared::Shared<i64>"
  | erased => "dyn core::fmt::Debug"

/-- Whether values of a type have a length known beforehand, so that they can
be handed over as they are. -/
def isSized : PayloadType → Bool
  | text | slice | erased => false
  | _ => true

end PayloadType

/-- A value to share. -/
inductive Payload where
  | integer (n : Int64)
  | bool (b : Bool)
  | unit
  | text (s : String)
  | option (n : Option Int64)
  | list (ns : List Int64)
  | handle (vm : Handle)
  | nested (n : Option Int64)
  deriving DecidableEq

namespace Payload

/-- The text of an integer. -/
def integerLayout (n : Int64) : Layout :=
  .text (toString n.toInt)

/-- The text for diagnostics. -/
def layout : Payload → Layout
  | integer n => integerLayout n
  | bool b => .bool b
  | unit => .text "()"
  | text s => .text (Quoted.string s)
  | option n => .option (n.map integerLayout)
  | list ns => .list (ns.map integerLayout)
  | handle vm => .text vm.label
  | nested n => Shared.layout (n.map fun n => (integerLayout n, 1))

end Payload

/-- What can be seen of a handle and its clones: when it is new, when it has
clones, and after it was given up; then each clone with its count and whether
giving it up once and twice let the value go. -/
structure Life where
  first : Layout
  firstCount : Nat
  shared : Layout
  sharedCount : Nat
  clonesEqual : Bool
  deref : Outcome Layout
  reset : Bool
  after : Layout
  derefAfter : Outcome Layout
  isNoneAfter : Bool
  equalsEmptyAfter : Bool
  resets : List (Nat × Bool × Bool)

namespace Life

/-- Reads through a handle of a type. -/
def read (type : PayloadType) (h : Heap Payload) (r : Ref) : Outcome Layout :=
  match h.deref? r with
  | some o => .returned o.content.layout
  | none => .aborted (emptyText type.name)

/-- Gives up handles one after the other, each twice. -/
def giveUp (h : Heap Payload) : List Ref → List (Nat × Bool × Bool)
  | [] => []
  | r :: rs =>
    let count := h.ownerCount r
    let (h, last, _) := h.reset r
    let (h, again, _) := h.reset none
    (count, last, again) :: giveUp h rs

/-- The life of a handle that holds a value, or none, and of its clones. -/
def of (type : PayloadType) (value : Option Payload) (clones : Nat) : Life :=
  let (h, a) : Heap Payload × Ref := match value with
    | none => (.empty, none)
    | some value => let (h, i) := Heap.empty.alloc value []; (h, some i)
  let copies : List Ref := List.replicate clones a
  let cloned := copies.foldl Heap.retain h
  let (rest, last, _) := cloned.reset a
  let gone : Ref := none
  { first := h.layout Payload.layout a
    firstCount := h.ownerCount a
    shared := cloned.layout Payload.layout a
    sharedCount := cloned.ownerCount a
    clonesEqual := copies.all (· = a)
    deref := read type cloned a
    reset := last
    after := rest.layout Payload.layout gone
    derefAfter := read type rest gone
    isNoneAfter := gone.isNone
    equalsEmptyAfter := gone = none
    resets := giveUp rest copies }

end Life

end ScriptBinding.Shared
