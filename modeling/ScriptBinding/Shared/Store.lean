import ScriptBinding.Shared.Heap
import ScriptBinding.Text.Quoted

/-
Stores: named handles to shared nodes.

* `Shared.Node`: a label and a number that can be changed.
* `Shared.Slot`: a handle of one of two types, the concrete one or an erased
  one.
* `Shared.Store`: a heap of nodes, slots by name, and owners held outside of any
  handle, by name.
* `Shared.Store.put`, `setRef`, `keep`: how slots and held owners change.
* `Shared.Store.view`, `dismantle`: what the slots show, and what is dropped
  when they all go.
-/
namespace ScriptBinding.Shared

/-- The content of a shared object. -/
structure Node where
  label : String
  value : Int64
  deriving DecidableEq

namespace Node

/-- A node with a label, before anything was written to it. -/
def fresh (label : String) : Node :=
  ⟨label, 0⟩

/-- The text for diagnostics. -/
def layout (n : Node) : Layout :=
  .tuple "Node" [.text (Quoted.string n.label), .text (toString n.value.toInt)]

end Node

/-- The type of a handle: to nodes, or to anything that has a label. -/
inductive Kind where
  | concrete
  | erased
  deriving DecidableEq, Repr

namespace Kind

/-- The name of the type that a handle points at. -/
def typeName : Kind → String
  | concrete => "driver::shared::Node"
  | erased => "dyn driver::shared::Component"

end Kind

/-- A handle with its type. -/
structure Slot where
  kind : Kind
  ref : Ref
  deriving DecidableEq, Repr

/-- Nodes, handles to them by name, and owners that are held without a handle. -/
structure Store where
  heap : Heap Node := .empty
  slots : Table String Slot := .empty
  held : Table String ObjectId := .empty
  deriving DecidableEq

namespace Store

/-- The handle in a slot of the concrete type. -/
def concrete? (s : Store) (name : String) : Option Ref :=
  match s.slots.get? name with
  | some ⟨.concrete, r⟩ => some r
  | _ => none

/-- The store with one handle released. -/
def release (s : Store) (r : Ref) : Store × List (Drop Node) :=
  let (heap, drops) := s.heap.release r
  ({ s with heap := heap }, drops)

/-- The store with a handle put into a slot; the handle that was there is
released after that. -/
def put (s : Store) (name : String) (slot : Slot) : Store × List (Drop Node) :=
  let previous := (s.slots.get? name).bind (·.ref)
  { s with slots := s.slots.insert name slot }.release previous

/-- The store with the handle of a slot replaced; owners are not counted. -/
def setRef (s : Store) (name : String) (r : Ref) : Store :=
  { s with slots := s.slots.modify name fun slot => { slot with ref := r } }

/-- The store without a slot, whose handle is released. -/
def removeSlot (s : Store) (name : String) : Store × List (Drop Node) :=
  let previous := (s.slots.get? name).bind (·.ref)
  { s with slots := s.slots.erase name }.release previous

/-- The store with an owner held under a name; the one that was held there is
released after that. -/
def keep (s : Store) (name : String) (i : ObjectId) : Store × List (Drop Node) :=
  let previous := s.held.get? name
  { s with held := s.held.insert name i }.release previous

/-- The store without a held owner, which is released. -/
def removeHeld (s : Store) (name : String) : Store × List (Drop Node) :=
  let previous := s.held.get? name
  { s with held := s.held.erase name }.release previous

/-! ### Looking at a store -/

/-- Each slot with the label of its object and the number of owners; nothing
for an empty one. -/
def view (s : Store) : List (String × Option (String × Nat)) :=
  s.slots.entries.map fun e =>
    (e.1, (s.heap.deref? e.2.ref).map fun o => (o.content.label, o.owners))

/-- Names in ascending order. -/
def sortNames (names : List String) : List String :=
  names.mergeSort fun a b => !decide (b < a)

/-- What is dropped as names are removed one after the other. -/
def removeEach (remove : Store → String → Store × List (Drop Node)) (s : Store) :
    List String → Store × List (List (Drop Node))
  | [] => (s, [])
  | name :: names =>
    let (s, drops) := remove s name
    let (s, rest) := removeEach remove s names
    (s, drops :: rest)

/-- What is dropped as the slots go in ascending order of their names, and then
the held owners in that of theirs. -/
def dismantle (s : Store) : List (List (Drop Node)) :=
  let (s, bySlot) := removeEach removeSlot s (sortNames s.slots.keys)
  let (_, byOwner) := removeEach removeHeld s (sortNames s.held.keys)
  bySlot ++ byOwner

end Store

end ScriptBinding.Shared
