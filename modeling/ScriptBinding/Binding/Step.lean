import ScriptBinding.Binding.Basic
import ScriptBinding.Registry.Step

/-
Histories of binding states, as far as no VM object is involved.

* `Binding.Step`, `Binding.Answer`: an operation as a value, and what
  it answers; the operations of the registry are among them.
* `Binding.step`, `Binding.run`: one step, and a list of them.
* `Binding.attempt`: a list of steps that ends with the first one to abort.
-/
namespace ScriptBinding.Binding

/-- An operation on a binding state. -/
inductive Step where
  | throw (vm : Handle) (message : Message)
  /-- Throws a text, which needs no conversion. -/
  | throwText (vm : Handle) (text : String)
  | isPending (vm : Handle)
  | clear (vm : Handle)
  | message (vm : Handle)
  | check (vm : Handle)
  | checkDefault
  | close (vm : Handle)
  | defaultVm
  | setDefault (vm : Handle)
  | clearDefault
  | isEnabled
  | enable (enabled : Bool)
  | configure (config : Config)
  /-- An operation of the registry inside. -/
  | errors (step : Registry.Step Handle)
  | inspect
  /-- A request that names no VM, and does nothing. -/
  | unaddressed
  deriving DecidableEq

/-- The answer to an operation on a binding state. -/
inductive Answer where
  | registry (answer : Registry.Answer Handle)
  | handle (vm : Option Handle)
  | whole (s : Binding)
  | unaddressed
  deriving DecidableEq

/-- The state with its registry changed by an operation of the registry. -/
def onErrors (s : Binding) {α : Type}
    (p : Registry Handle × Reply (Registry.Event Handle) α) (f : α → Answer) :
    Binding × Reply Event Answer :=
  ({ s with errors := p.1 }, p.2.map .registry f)

/-- One operation: the state after it, and the reply. -/
def step (s : Binding) : Step → Binding × Reply Event Answer
  | .throw vm m => s.onErrors (s.errors.throw vm m) fun b => .registry (.flag b)
  | .throwText vm text => s.onErrors (s.errors.throwText vm text) fun b => .registry (.flag b)
  | .isPending vm => s.onErrors (s.errors.step (.isPending vm)) .registry
  | .clear vm => s.onErrors (s.errors.step (.clear vm)) .registry
  | .message vm => s.onErrors (s.errors.step (.message vm)) .registry
  | .check vm =>
    let (s, e) := s.check vm
    (s, .quiet (.registry (.ofRefusal e)))
  | .checkDefault =>
    let (s, e) := s.checkDefault
    (s, .quiet (.registry (.ofRefusal e)))
  | .close vm =>
    let (s, reply) := s.close vm
    (s, reply.map id fun m => .registry (.found m))
  | .defaultVm => (s, .quiet (.handle s.defaultVm.vm))
  | .setDefault vm =>
    let (s, events) := s.setDefault vm
    (s, { outcome := .returned (.registry .done), events := events })
  | .clearDefault =>
    let (s, previous) := s.clearDefault
    (s, .quiet (.handle previous))
  | .isEnabled => (s, .quiet (.registry (.flag s.policy.enabled)))
  | .enable enabled => (s.enable enabled, .quiet (.registry .done))
  | .configure c =>
    let (s, events) := s.configure c
    (s, { outcome := .returned (.registry .done), events := events })
  | .errors step => s.onErrors (s.errors.step step) .registry
  | .inspect => (s, .quiet (.whole s))
  | .unaddressed => (s, .quiet .unaddressed)

/-- A list of operations: the state after them, and their replies. -/
def run (s : Binding) : List Step → Binding × List (Reply Event Answer)
  | [] => (s, [])
  | step :: steps =>
    let (s, reply) := s.step step
    let (s, replies) := s.run steps
    (s, reply :: replies)

/-- A list of operations that ends with the first one to abort: the state after
them, and one reply with all their answers. What was done before stays done. -/
def attempt (s : Binding) : List Step → Binding × Reply Event (List Answer)
  | [] => (s, .quiet [])
  | step :: steps =>
    match s.step step with
    | (s, ⟨.aborted why, conversions, events⟩) => (s, ⟨.aborted why, conversions, events⟩)
    | (s, ⟨.returned a, conversions, events⟩) =>
      let (s, rest) := s.attempt steps
      (s, ⟨rest.outcome.map (a :: ·), conversions + rest.conversions, events ++ rest.events⟩)

end ScriptBinding.Binding
