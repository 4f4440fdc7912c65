import ScriptBinding.Registry.Listing
import ScriptBinding.Policy
import ScriptBinding.DefaultVm
import ScriptBinding.Config

/-
Binding states: pending errors, forwarding policy and default VM, owned
together.

* `Binding`: the three parts; `initial`, `configure`, `ofConfig`.
* `Binding.check`, `checkDefault`, `close`: draining as an error value, and
  forgetting a VM.
* `Binding.post`: what a report does to the state before the VM is
  involved.
* `Binding.layout`: the text for diagnostics.
-/
namespace ScriptBinding

/-- Pending errors, forwarding policy and default VM. -/
structure Binding where
  errors : Registry Handle
  policy : Policy
  defaultVm : DefaultVm
  deriving DecidableEq

namespace Binding

/-- Nothing pending, first error wins, forwarding on, no default VM. -/
def initial : Binding :=
  ⟨.empty .firstWins, {}, {}⟩

/-- The state with a VM as its default. -/
def setDefault (s : Binding) (vm : Handle) : Binding × List Event :=
  let (defaultVm, events) := s.defaultVm.set vm
  ({ s with defaultVm := defaultVm }, events)

/-- The state without a default VM, and the one it had. -/
def clearDefault (s : Binding) : Binding × Option Handle :=
  let (defaultVm, previous) := s.defaultVm.clear
  ({ s with defaultVm := defaultVm }, previous)

/-- The state with forwarding on or off. -/
def enable (s : Binding) (enabled : Bool) : Binding :=
  { s with policy := s.policy.enable enabled }

/-- The state with its registry in a mode. -/
def setMode (s : Binding) (mode : Registry.Mode) : Binding :=
  { s with errors := s.errors.setMode mode }

/-- The state with new settings. What is pending stays, and so does the default
VM where the settings name none. -/
def configure (s : Binding) (c : Config) : Binding × List Event :=
  let s := (s.enable c.errorHandling).setMode c.throwMode
  match c.defaultVm with
  | some vm => s.setDefault vm
  | none => (s, [])

/-- A new state with settings. -/
def ofConfig (c : Config) : Binding × List Event :=
  initial.configure c

/-- Drains a VM; what was pending comes back as an error. -/
def check (s : Binding) (vm : Handle) : Binding × Option Fault :=
  let (errors, message) := s.errors.take vm
  ({ s with errors := errors }, message.map .script)

/-- Drains the default VM, where there is one. -/
def checkDefault (s : Binding) : Binding × Option Fault :=
  match s.defaultVm.require with
  | .ok vm => s.check vm
  | .error e => (s, some e)

/-- Forgets a VM: it is no longer the default, and nothing is pending for it. -/
def close (s : Binding) (vm : Handle) : Binding × Reply Event (Option String) :=
  let (errors, reply) := s.errors.close vm
  ({ s with errors := errors, defaultVm := s.defaultVm.forget vm }, reply.map .registry id)

/-! ### Reports -/

/-- What became of a report in the state: whether it was recorded, whether it
has to be raised in the VM, and what was logged. -/
structure Posting where
  recorded : Bool
  forward : Bool
  events : List Event
  deriving DecidableEq

/-- Records the text of a report and decides, at that moment, whether it is to
be raised. -/
def post (s : Binding) (vm : Handle) (text : String) : Binding × Posting :=
  let (errors, reply) := s.errors.throwText vm text
  let recorded := reply.outcome = .returned true
  ({ s with errors := errors },
    { recorded := recorded
      forward := recorded && s.policy.enabled
      events := reply.events.map .registry })

/-! ### Diagnostics -/

/-- The text for diagnostics. -/
def layout (s : Binding) : Layout :=
  .record "BindingState"
    [("errors", s.errors.layout),
     ("error_handling", s.policy.layout),
     ("default_vm", s.defaultVm.layout)]

end Binding

end ScriptBinding
