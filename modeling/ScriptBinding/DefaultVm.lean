import ScriptBinding.Fault
import ScriptBinding.Message
import ScriptBinding.Event

/-
The default VM: a slot for the VM to use where none is at hand.

* `DefaultVm`: the slot, with `set`, `clear` and `require`.
* `DefaultVm.Session`: a slot and a saved copy of it, with steps as values.
* `DefaultVm.layout`: the text for diagnostics.
-/
namespace ScriptBinding

/-- A slot for one VM. -/
structure DefaultVm where
  vm : Option Handle := none
  deriving DecidableEq

namespace DefaultVm

/-- The slot naming a VM; the log is told. -/
def set (_ : DefaultVm) (vm : Handle) : DefaultVm × List Event :=
  (⟨some vm⟩, [.defaultSet vm])

/-- The slot emptied, and the VM that it named. -/
def clear (d : DefaultVm) : DefaultVm × Option Handle :=
  (⟨none⟩, d.vm)

/-- The VM named, or the error that there is none. -/
def require (d : DefaultVm) : Except Fault Handle :=
  match d.vm with
  | some vm => .ok vm
  | none => .error .noDefault

/-- The slot emptied where it names a given VM. -/
def forget (d : DefaultVm) (vm : Handle) : DefaultVm :=
  if d.vm = some vm then ⟨none⟩ else d

/-- The text for diagnostics. -/
def layout (d : DefaultVm) : Layout :=
  .record "DefaultVm" [("vm", .option (d.vm.map fun vm => .text vm.label))]

/-! ### Histories -/

/-- A slot in use, and a copy kept aside. -/
structure Session where
  current : DefaultVm := {}
  saved : DefaultVm := {}
  deriving DecidableEq

namespace Session

/-- An operation on the slot in use. -/
inductive Step where
  | get
  | set (vm : Handle)
  | clear
  | require
  | inspect
  | save
  | matchesSaved
  | restore
  /-- A request that names no VM, and does nothing. -/
  | unaddressed
  deriving DecidableEq

/-- The answer to an operation. -/
inductive Answer where
  | done
  | handle (vm : Option Handle)
  | required (vm : Except Fault Handle)
  | flag (b : Bool)
  | whole (d : DefaultVm)
  | unaddressed

/-- One operation: the session after it, and the reply. -/
def step (s : Session) : Step → Session × Reply Event Answer
  | .get => (s, .quiet (.handle s.current.vm))
  | .set vm =>
    let (current, events) := s.current.set vm
    ({ s with current := current }, { outcome := .returned .done, events := events })
  | .clear =>
    let (current, previous) := s.current.clear
    ({ s with current := current }, .quiet (.handle previous))
  | .require => (s, .quiet (.required s.current.require))
  | .inspect => (s, .quiet (.whole s.current))
  | .save => ({ s with saved := s.current }, .quiet .done)
  | .matchesSaved => (s, .quiet (.flag (s.current = s.saved)))
  | .restore => ({ s with current := s.saved }, .quiet .done)
  | .unaddressed => (s, .quiet .unaddressed)

end Session

end DefaultVm

end ScriptBinding
