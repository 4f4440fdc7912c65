import ScriptBinding.Registry.Listing

/-
Events of binding states.

* `Layer`: whether a report went through a state at hand or through the
  process-wide one.
* `Event`: an event of the registry, a default VM set, an error about to be
  raised in a VM.
* `Event.entry`: the log entry of an event.
-/
namespace ScriptBinding

/-- The way a report came. -/
inductive Layer where
  /-- Through a binding state at hand. -/
  | direct
  /-- Through the process-wide binding state. -/
  | processWide
  deriving DecidableEq, Repr

/-- What a binding state tells the log. -/
inductive Event where
  | registry (event : Registry.Event Handle)
  | defaultSet (vm : Handle)
  | raising (layer : Layer) (vm : Handle) (message : String)
  deriving DecidableEq

namespace Layer

/-- The part of the library that speaks when an error is raised. -/
def target : Layer → String
  | direct => "sqbind_core::state"
  | processWide => "sqbind::global"

end Layer

namespace Event

/-- The log entry of an event. -/
def entry : Event → Log.Entry
  | registry e => e.entry
  | defaultSet vm =>
    Log.entry .trace "sqbind_core::default_vm" "default VM set" [("vm", vm.text)]
  | raising layer vm m =>
    Log.entry .trace layer.target "raising error in VM" [("vm", vm.text), ("message", m)]

end Event

end ScriptBinding
