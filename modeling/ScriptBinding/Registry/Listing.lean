import ScriptBinding.Registry.Key
import ScriptBinding.Registry.Basic
import ScriptBinding.Text.Layout
import ScriptBinding.Log

/-
What can be read of a registry from outside: sorted listings, the text for
diagnostics and the log entries of its events.

* `Registry.listing`: the pending messages by key, in the order of the keys.
* `Registry.layout`: the text for diagnostics; `Registry.hasOneLayout`: it hangs on no order.
* `Registry.Event.entry`: the log entry of an event.
-/
namespace ScriptBinding

namespace Registry.Mode

/-- The name of a mode in diagnostics. -/
def label : Registry.Mode → String
  | firstWins => "FirstWins"
  | strict => "Strict"

end Registry.Mode

namespace Registry

variable {κ : Type} [Key κ]

/-- Keys in the order of listings. -/
def sortKeys (ks : List κ) : List κ :=
  ks.mergeSort Key.le

/-- The pending messages in the order of their keys. -/
def listing (r : Registry κ) : List (κ × String) :=
  r.pending.entries.mergeSort fun a b => Key.le a.1 b.1

/-- The text for diagnostics, with the pending messages in the order of
recording. -/
def layout (r : Registry κ) : Layout :=
  .record "ErrorRegistry"
    [("pending", .map (r.pending.entries.map fun e => (Key.label e.1, .text (Quoted.string e.2)))),
     ("mode", .text r.mode.label)]

/-- Whether the text for diagnostics hangs on no order of the keys. -/
def hasOneLayout (r : Registry κ) : Bool :=
  r.pending.entries.length ≤ 1

namespace Event

/-- The part of the library that speaks in these entries. -/
def target : String :=
  "sqbind_core::registry"

/-- The log entry of an event. -/
def entry : Event κ → Log.Entry
  | recorded k m =>
    Log.entry .trace target "error recorded" [("vm", Key.label k), ("message", m)]
  | dropped k =>
    Log.entry .trace target "error already pending, dropped" [("vm", Key.label k)]
  | rejected k existing refused =>
    Log.entry .warn target "error already pending, dropped"
      [("vm", Key.label k), ("existing", existing), ("rejected", refused)]
  | closed k m =>
    Log.entry .debug target "VM closed with an undrained error"
      [("vm", Key.label k), ("message", m)]

end Event

end Registry

end ScriptBinding
