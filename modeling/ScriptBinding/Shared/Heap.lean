import ScriptBinding.Table
import ScriptBinding.Text.Layout

/-
Heaps of shared objects, each with a count of its owners.

* `Shared.Ref`: a handle to an object, or an empty one.
* `Shared.Object`: a content, the handles that the object itself holds, and the
  number of its owners.
* `Shared.Heap.get?`: the view, with `get?_alloc`, `get?_modify`, `get?_erase`.
* `Shared.Heap.alloc`, `retain`, `release`: a new object, one more owner, one
  owner less; when the last owner goes, the object is dropped and with it the
  handles that it held, depth first.
* `Shared.Heap.assign`, `reset`, `upcast`: what is done with handles.
-/
namespace ScriptBinding.Shared

/-- The name of an object; no name is given twice. -/
abbrev ObjectId :=
  Nat

/-- A handle: the object that it points at, or none. -/
abbrev Ref :=
  Option ObjectId

/-- A live object. -/
structure Object (α : Type) where
  content : α
  kids : List Ref
  owners : Nat
  deriving DecidableEq, Repr

/-- The live objects, and the first name that was never given. -/
structure Heap (α : Type) where
  objects : Table ObjectId (Object α)
  next : ObjectId
  deriving DecidableEq, Repr

/-- An object that was dropped. -/
structure Drop (α : Type) where
  id : ObjectId
  content : α
  deriving DecidableEq, Repr

namespace Heap

variable {α : Type}

/-- The heap before the first object. -/
def empty : Heap α :=
  ⟨.empty, 0⟩

/-- The object at a name. -/
def get? (h : Heap α) (i : ObjectId) : Option (Object α) :=
  h.objects.get? i

/-- The object that a handle points at. -/
def deref? (h : Heap α) (r : Ref) : Option (Object α) :=
  r.bind h.get?

/-- The number of owners of the object that a handle points at; none of an
empty handle. -/
def ownerCount (h : Heap α) (r : Ref) : Nat :=
  ((h.deref? r).map (·.owners)).getD 0

/-- A new object with one owner. -/
def alloc (h : Heap α) (content : α) (kids : List Ref) : Heap α × ObjectId :=
  (⟨h.objects.insert h.next ⟨content, kids, 1⟩, h.next + 1⟩, h.next)

/-- An object changed where it stands. -/
def modify (h : Heap α) (i : ObjectId) (f : Object α → Object α) : Heap α :=
  { h with objects := h.objects.modify i f }

/-- One more owner for the object that a handle points at. -/
def retain (h : Heap α) : Ref → Heap α
  | none => h
  | some i => h.modify i fun o => { o with owners := o.owners + 1 }

/-- The heap without an object. -/
def erase (h : Heap α) (i : ObjectId) : Heap α :=
  { h with objects := h.objects.erase i }

/-! ### The view after each operation -/

theorem get?_alloc (h : Heap α) (content : α) (kids : List Ref) (i : ObjectId) :
    (h.alloc content kids).1.get? i = if i = h.next then some ⟨content, kids, 1⟩ else h.get? i :=
  h.objects.get?_insert h.next i _

theorem get?_modify (h : Heap α) (i j : ObjectId) (f : Object α → Object α) :
    (h.modify i f).get? j = if j = i then (h.get? j).map f else h.get? j :=
  h.objects.get?_modify i j f

theorem get?_erase (h : Heap α) (i j : ObjectId) :
    (h.erase i).get? j = if j = i then none else h.get? j :=
  h.objects.get?_erase i j

/-! ### Releasing -/

/-- Releases handles one after the other. The last owner of an object drops it,
which is logged, and then releases the handles that the object held before
those that were still waiting. -/
def releaseAll (h : Heap α) (work : List Ref) : Heap α × List (Drop α) :=
  match work with
  | [] => (h, [])
  | none :: work => h.releaseAll work
  | some i :: work =>
    match _hget : h.get? i with
    | none => h.releaseAll work
    | some o =>
      if o.owners ≤ 1 then
        let (h, drops) := (h.erase i).releaseAll (o.kids ++ work)
        (h, ⟨i, o.content⟩ :: drops)
      else
        (h.modify i fun o => { o with owners := o.owners - 1 }).releaseAll work
termination_by (h.objects.size, work.length)
decreasing_by
  · exact .right _ (by simp)
  · exact .right _ (by simp)
  · exact .left _ _ (Table.size_erase_lt _hget)
  · simp only [modify, Table.size_modify]
    exact .right _ (by simp)

/-- Releases one handle. -/
def release (h : Heap α) (r : Ref) : Heap α × List (Drop α) :=
  h.releaseAll [r]

/-- Releases a handle and tells whether it was the last to its object. -/
def reset (h : Heap α) (r : Ref) : Heap α × Bool × List (Drop α) :=
  let last := h.ownerCount r = 1
  let (h, drops) := h.release r
  (h, last, drops)

/-- Makes a handle share the object of another one. The new object is retained
before the old one is released, and a handle that points there already is left
alone. -/
def assign (h : Heap α) (target source : Ref) : Heap α × Ref × List (Drop α) :=
  if target = source then (h, target, [])
  else
    let (h, drops) := (h.retain source).release target
    (h, source, drops)

/-! ### Chains -/

/-- A chain of new objects, each the only kid of the one before: `count`
objects, whose contents are numbered from `first`. -/
def chain (h : Heap α) (content : Nat → α) (first : Nat) : Nat → Heap α × Ref
  | 0 => (h, none)
  | count + 1 =>
    let (h, rest) := h.chain content (first + 1) count
    let (h, i) := h.alloc (content first) (rest.toList.map some)
    (h, some i)

/-! ### Upcasting -/

/-- What a conversion does with the owner that it is handed: it gives it back,
or it releases it and gives an owner of something else. -/
inductive Conversion (α : Type) where
  | same
  /-- An owner of a new object. -/
  | fresh (content : α)
  /-- A new owner of an object that has others. -/
  | other (i : ObjectId)
  deriving DecidableEq, Repr

/-- A conversion run on an owner of an object: the object whose owner comes
back, and what was dropped meanwhile. -/
def convert (h : Heap α) (i : ObjectId) : Conversion α → Heap α × ObjectId × List (Drop α)
  | .same => (h, i, [])
  | .fresh content =>
    let (h, drops) := h.release (some i)
    let (h, j) := h.alloc content []
    (h, j, drops)
  | .other j =>
    let (h, drops) := (h.retain (some j)).release (some i)
    (h, j, drops)

/-- A handle of another type to the object of a handle. A new owner goes
through the conversion; if another object comes back, its owner is released and
there is no handle. An empty handle gives an empty one, without conversion. -/
def upcast (h : Heap α) (r : Ref) (c : Conversion α) : Heap α × Option Ref × List (Drop α) :=
  match r with
  | none => (h, some none, [])
  | some i =>
    let (h, j, drops) := (h.retain (some i)).convert i c
    if j = i then (h, some (some i), drops)
    else
      let (h, more) := h.release (some j)
      (h, none, drops ++ more)

end Heap

/-! ### Texts -/

/-- The text for diagnostics of a handle: what it shares, and with how many. -/
def layout : Option (Layout × Nat) → Layout
  | none => .text "Shared(empty)"
  | some (value, owners) =>
    .record "Shared" [("value", value), ("use_count", .text (toString owners))]

/-- The text that reading through an empty handle aborts with. -/
def emptyText (typeName : String) : String :=
  "dereferenced an empty Shared<" ++ typeName ++ ">"

/-- The text that an upcast aborts with where another object came back. -/
def differentText (typeName : String) : String :=
  "upcast of Shared<" ++ typeName ++ "> returned a different object"

/-- The text for diagnostics of a handle into a heap. -/
def Heap.layout {α : Type} (h : Heap α) (content : α → Layout) (r : Ref) : Layout :=
  Shared.layout ((h.deref? r).map fun o => (content o.content, o.owners))

end ScriptBinding.Shared
