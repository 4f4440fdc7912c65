import ScriptBinding.Text.Layout

/-
The forwarding policy: whether a recorded error is also raised inside the VM.

* `Policy`: the switch; on by default.
* `Policy.layout`: the text for diagnostics.
-/
namespace ScriptBinding

/-- Whether recorded errors are raised inside the VM as well. -/
structure Policy where
  enabled : Bool := true
  deriving DecidableEq, Repr

namespace Policy

/-- The policy with the switch set. -/
def enable (_ : Policy) (enabled : Bool) : Policy :=
  ⟨enabled⟩

/-- The text for diagnostics. -/
def layout (p : Policy) : Layout :=
  .record "ErrorHandling" [("enabled", .bool p.enabled)]

end Policy

end ScriptBinding
