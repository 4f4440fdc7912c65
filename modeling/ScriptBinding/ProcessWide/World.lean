import ScriptBinding.Binding.Basic
import ScriptBinding.Vm

/-
The process: one binding state behind a lock, and what an observer sees.

* `ProcessWide.Cell`: the process-wide binding state, whether its guard is taken,
  and whether somebody aborted while holding it; an abort does not lock the
  others out.
* `ProcessWide.Mark`: a message converted, an event logged, an error raised in a VM.
* `ProcessWide.World`: the cell and everything observed so far.
* `ProcessWide.World.access`: an operation on the state under its guard.
-/
namespace ScriptBinding.ProcessWide

/-- The process-wide binding state with its guard. -/
structure Cell where
  state : Binding
  held : Bool := false
  poisoned : Bool := false
  deriving DecidableEq

namespace Cell

/-- The cell before its first use. -/
def fresh : Cell :=
  { state := .initial }

/-- Takes the guard, unless it is taken. Whoever aborted while holding it left
the state consistent, so that is no hindrance. -/
def lock? (c : Cell) : Option Cell :=
  if c.held then none else some { c with held := true }

/-- Gives the guard back. -/
def unlock (c : Cell) (aborted : Bool) : Cell :=
  { c with held := false, poisoned := c.poisoned || aborted }

end Cell

/-- Something that can be observed of the process. -/
inductive Mark where
  /-- A message was converted to a text, or its conversion aborted. -/
  | converted
  /-- An event was logged. -/
  | logged (event : Event)
  /-- A message was raised in the VM object at an index. -/
  | raised (vm : Nat) (message : String)
  deriving DecidableEq

namespace Mark

/-- The event of a mark, if it is one of the log. -/
def event? : Mark → Option Event
  | logged e => some e
  | _ => none

/-- The message of a mark, if it was raised in the VM object at an index. -/
def raisedIn? (vm : Nat) : Mark → Option String
  | raised v m => if v = vm then some m else none
  | _ => none

/-- The events among marks. -/
def events (marks : List Mark) : List Event :=
  marks.filterMap event?

/-- The number of conversions among marks. -/
def conversions (marks : List Mark) : Nat :=
  marks.count converted

/-- The marks that a reply leaves. -/
def ofReply {α : Type} (r : Reply Event α) : List Mark :=
  List.replicate r.conversions converted ++ r.events.map logged

end Mark

/-- Why an execution has no end. -/
inductive Halt where
  /-- The guard was asked for while it was taken. -/
  | deadlock
  /-- A step names a VM object or a state that does not exist. -/
  | missing
  /-- Reactions of VMs are nested more deeply than allowed. -/
  | exhausted
  deriving DecidableEq, Repr

/-- The process: its binding state, and everything observed so far. -/
structure World where
  cell : Cell
  trace : List Mark
  deriving DecidableEq

namespace World

/-- The process before anything happened. -/
def fresh : World :=
  ⟨.fresh, []⟩

/-- The process with more observed. -/
def observe (w : World) (marks : List Mark) : World :=
  { w with trace := w.trace ++ marks }

/-- What was observed after the first `n` marks. -/
def since (w : World) (n : Nat) : List Mark :=
  w.trace.drop n

/-- The messages raised in the VM object at an index. -/
def errorsOf (w : World) (vm : Nat) : Vm.Errors :=
  w.trace.filterMap (Mark.raisedIn? vm)

/-- An operation on the process-wide state, under its guard: the guard is
taken, the operation runs, its marks are observed, and the guard is given back
whether it aborted or not. -/
def access {β : Type} (w : World) (operate : Binding → Binding × β)
    (marks : β → List Mark) (aborts : β → Bool) : Except Halt (World × β) :=
  match w.cell.lock? with
  | none => .error .deadlock
  | some cell =>
    let (state, b) := operate cell.state
    let locked : World := ⟨{ cell with state := state }, w.trace ++ marks b⟩
    .ok ({ locked with cell := locked.cell.unlock (aborts b) }, b)

end World

end ScriptBinding.ProcessWide
