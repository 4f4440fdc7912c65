import ScriptBinding.Shared.Store
import ScriptBinding.Message

/-
Histories of stores.

* `Shared.Step`, `Shared.Answer`: an operation on named handles as a value, and
  what it answers.
* `Shared.Store.step?`: one step; none where it names no fitting slot.
* `Shared.Store.run?`: a list of steps.
-/
namespace ScriptBinding.Shared

/-- How an upcast converts the owner that it is handed. -/
inductive Via where
  | same
  /-- Releases it and makes a new node. -/
  | fresh (label : String)
  /-- Releases it and takes an owner of the node in a slot. -/
  | other (slot : String)
  deriving DecidableEq, Repr

/-- A place that a handle can be compared with. -/
inductive Place where
  | null
  /-- Where the node of a slot lies. -/
  | node (slot : String)
  /-- An address where no node lies. -/
  | elsewhere
  deriving DecidableEq, Repr

/-- An operation on the handles of a store. Slots are named; `dest` is the slot
that a new handle is put into. -/
inductive Step where
  | create (kind : Kind) (label dest : String)
  | empty (kind : Kind) (dest : String)
  | chain (length : Nat) (label dest : String)
  /-- Gives up the node of a slot, then owns a new one. -/
  | init (slot label : String)
  | clone (source dest : String)
  /-- Makes a slot share the node of another one. -/
  | assign (slot source : String)
  | reset (slot : String)
  | remove (slot : String)
  | get (slot : String)
  | deref (slot : String)
  | status (slot : String)
  | inspect (slot : String)
  | compare (slot other : String)
  | pointsAt (slot : String) (place : Place)
  | write (slot : String) (value : Int64)
  | read (slot : String)
  | push (slot source : String)
  | pop (slot : String)
  | kid (slot : String) (index : Nat) (dest : String)
  /-- Assigns a slot the first kid of its own node. A kid is concrete, so an
  erased slot that owns a node cannot advance. -/
  | advance (slot : String)
  | upcast (source dest : String) (via : Via)
  | hold (source owner : String)
  | letGo (owner : String)
  /-- Moves a held owner into a slot. -/
  | adopt (owner dest : String)
  deriving DecidableEq, Repr

/-- The answer to an operation on handles. -/
inductive Answer where
  | done
  | absent
  | flag (b : Bool)
  | label (s : String)
  | number (n : Int64)
  | status (isSome isNone isNull : Bool) (ownerCount : Nat)
  | equal (b : Bool)
  | pointsAt (b : Bool)
  | whole (layout : Layout)

/-- What a step gives back beside the new store: its events are the drops. -/
abbrev StepReply :=
  Reply (Drop Node) Answer

namespace Store

/-- The reply of a step that did its work. -/
def done (p : Store × List (Drop Node)) : Store × StepReply :=
  (p.1, { outcome := .returned .done, events := p.2 })

/-- Reads a slot's node: an empty handle aborts and changes nothing. -/
def reading (s : Store) (slot : Slot) (use : ObjectId → Object Node → Store × StepReply) :
    Option (Store × StepReply) :=
  match slot.ref with
  | none => some (s, { outcome := .aborted (emptyText slot.kind.typeName) })
  | some i => (s.heap.get? i).map (use i)

/-- The conversion that a way of upcasting stands for. It is not run on an
empty handle, but the slot that it names has to be there all the same. -/
def conversion? (s : Store) (source : Ref) : Via → Option (Heap.Conversion Node)
  | .same => some .same
  | .fresh label => some (.fresh (.fresh label))
  | .other slot => do
    let r ← s.concrete? slot
    match source with
    | none => some .same
    | some _ => r.map .other

/-- One operation: the store after it, and the reply. None where the step names
a slot or an owner that is not there, or a slot of the wrong type. -/
def step? (s : Store) : Step → Option (Store × StepReply)
  | .create kind label dest =>
    let (heap, i) := s.heap.alloc (.fresh label) []
    some (done ({ s with heap := heap }.put dest ⟨kind, some i⟩))
  | .empty kind dest => some (done (s.put dest ⟨kind, none⟩))
  | .chain length label dest =>
    let (heap, r) := s.heap.chain (fun k => .fresh (label ++ toString k)) 0 length
    some (done ({ s with heap := heap }.put dest ⟨.concrete, r⟩))
  | .init slot label => do
    let target ← s.slots.get? slot
    let (s, drops) := (s.setRef slot none).release target.ref
    let (heap, i) := s.heap.alloc (.fresh label) []
    return done ({ s with heap := heap }.setRef slot (some i), drops)
  | .clone source dest => do
    let slot ← s.slots.get? source
    return done ({ s with heap := s.heap.retain slot.ref }.put dest slot)
  | .assign slot source => do
    let target ← s.slots.get? slot
    let source ← s.slots.get? source
    if target.kind = .concrete ∧ source.kind = .erased then none
    else
      let (heap, r, drops) := s.heap.assign target.ref source.ref
      return done ({ s with heap := heap }.setRef slot r, drops)
  | .reset slot => do
    let target ← s.slots.get? slot
    let (heap, last, drops) := s.heap.reset target.ref
    return ({ s with heap := heap }.setRef slot none,
      { outcome := .returned (.flag last), events := drops })
  | .remove slot => do
    let _ ← s.slots.get? slot
    return done (s.removeSlot slot)
  | .get slot => do
    let target ← s.slots.get? slot
    return (s, .quiet (match s.heap.deref? target.ref with
      | some o => .label o.content.label
      | none => .absent))
  | .deref slot => do
    let target ← s.slots.get? slot
    s.reading target fun _ o => (s, .quiet (.label o.content.label))
  | .status slot => do
    let target ← s.slots.get? slot
    return (s, .quiet (.status target.ref.isSome target.ref.isNone (target.ref = none)
      (s.heap.ownerCount target.ref)))
  | .inspect slot => do
    let target ← s.slots.get? slot
    return (s, .quiet (.whole (s.heap.layout Node.layout target.ref)))
  | .compare slot other => do
    let a ← s.slots.get? slot
    let b ← s.slots.get? other
    return (s, .quiet (.equal (a.ref = b.ref)))
  | .pointsAt slot place => do
    let a ← s.slots.get? slot
    match place with
    | .null => return (s, .quiet (.pointsAt (a.ref = none)))
    | .elsewhere => return (s, .quiet (.pointsAt false))
    | .node other =>
      let b ← s.slots.get? other
      return (s, .quiet (.pointsAt (a.ref = b.ref)))
  | .write slot value => do
    let target ← s.slots.get? slot
    s.reading target fun i _ =>
      let write (o : Object Node) := { o with content := { o.content with value := value } }
      done ({ s with heap := s.heap.modify i write }, [])
  | .read slot => do
    let target ← s.slots.get? slot
    s.reading target fun _ o => (s, .quiet (.number o.content.value))
  | .push slot source => do
    let target ← s.slots.get? slot
    let kid ← s.concrete? source
    s.reading target fun i _ =>
      let push (o : Object Node) := { o with kids := o.kids ++ [kid] }
      done ({ s with heap := (s.heap.retain kid).modify i push }, [])
  | .pop slot => do
    let target ← s.slots.get? slot
    s.reading target fun i o =>
      match o.kids.getLast? with
      | none => (s, .quiet .absent)
      | some kid =>
        let pop (o : Object Node) := { o with kids := o.kids.dropLast }
        let (heap, last, drops) := (s.heap.modify i pop).reset kid
        ({ s with heap := heap }, { outcome := .returned (.flag last), events := drops })
  | .kid slot index dest => do
    let target ← s.slots.get? slot
    s.reading target fun _ o =>
      match o.kids[index]? with
      | none => (s, .quiet .absent)
      | some kid => done ({ s with heap := s.heap.retain kid }.put dest ⟨.concrete, kid⟩)
  | .advance slot => do
    let target ← s.slots.get? slot
    if target.kind = .erased ∧ target.ref.isSome then none
    else
      s.reading target fun _ o =>
        let (heap, r, drops) := s.heap.assign target.ref (o.kids.head?.getD none)
        done ({ s with heap := heap }.setRef slot r, drops)
  | .upcast source dest via => do
    let slot ← s.slots.get? source
    let conversion ← s.conversion? slot.ref via
    let (heap, result, drops) := s.heap.upcast slot.ref conversion
    match result with
    | none =>
      return ({ s with heap := heap },
        { outcome := .aborted (differentText slot.kind.typeName), events := drops })
    | some r =>
      let (s, more) := { s with heap := heap }.put dest ⟨.erased, r⟩
      return done (s, drops ++ more)
  | .hold source owner => do
    let r ← s.concrete? source
    match r with
    | none => return (s, .quiet (.flag false))
    | some i =>
      let (s, drops) := { s with heap := s.heap.retain r }.keep owner i
      return (s, { outcome := .returned (.flag true), events := drops })
  | .letGo owner => do
    let _ ← s.held.get? owner
    return done (s.removeHeld owner)
  | .adopt owner dest => do
    let i ← s.held.get? owner
    return done ({ s with held := s.held.erase owner }.put dest ⟨.concrete, some i⟩)

/-- A list of operations: the store after them, and their replies. -/
def run? (s : Store) : List Step → Option (Store × List StepReply)
  | [] => some (s, [])
  | step :: steps => do
    let (s, reply) ← s.step? step
    let (s, replies) ← s.run? steps
    return (s, reply :: replies)

end Store

end ScriptBinding.Shared
