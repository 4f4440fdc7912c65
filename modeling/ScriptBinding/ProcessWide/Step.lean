import ScriptBinding.Binding.Step
import ScriptBinding.ProcessWide.World

/-
What can be asked of the process, and the VM objects it is asked about.

* `ProcessWide.Step`: an operation as a value; reports name their VM object by its
  index.
* `ProcessWide.Answer`: what a step answers; the answer to a report tells also what
  was raised and what the steps of the reaction answered.
* `ProcessWide.Host`: a VM object with its reaction to being raised.
-/
namespace ScriptBinding.ProcessWide

/-- An operation on the process-wide binding state. -/
inductive Step where
  /-- An operation that involves no VM object. -/
  | plain (step : Binding.Step)
  /-- Operations under one guard, which end with the first one to abort, or
  with an abort of their own. None of them involves a VM object: a block that reports
  through the state it holds is left out. It would raise its message while the guard is
  held, so that a VM which uses the process then would wait for itself. -/
  | block (steps : List Binding.Step) (ending : Option String)
  | report (vm : Nat) (message : Message)
  | reportTypeError (vm : Nat) (index : Int64) (expected : String)
  | typeErrorText (vm : Nat) (index : Int64) (expected : String)
  | lastError (vm : Nat)
  deriving DecidableEq

namespace Step

/-- A block that throws a text and then aborts while it holds the guard. -/
def poison (vm : Handle) (text : String) : Step :=
  .block [.throwText vm text] (some ("poison: " ++ text))

end Step

/-- The answer to a step. -/
inductive Answer where
  | plain (answer : Binding.Answer)
  | block (answers : List Binding.Answer)
  /-- Whether a report was recorded, or the text that raising it aborted with;
  the messages raised in its VM meanwhile; what the steps of the VM's reaction
  came to; and the VM's last error, empty where it has none. -/
  | report (recorded : Outcome Bool) (raised : List String) (nested : List (Outcome Answer))
      (lastError : String)
  | text (s : String)
  | lastError (message : String)

/-- A VM object: when a message is raised in it, it runs steps on the process
and then perhaps aborts. -/
structure Host where
  vm : Vm
  onRaise : List Step := []
  abort : Option String := none
  deriving DecidableEq

end ScriptBinding.ProcessWide
