import ScriptBinding.Text.Quoted
import ScriptBinding.Text.Layout

/-
The errors that the binding layer hands back as values. Recording an error in
a registry is never one of them.

* `Fault`: a refused throw, a drained script error, no default VM.
* `Fault.message`: the wording; `Fault.scriptMessage?`: the drained
  text, of a script error only.
* `Fault.layout`: the text for diagnostics.
-/
namespace ScriptBinding

/-- An error of the binding layer. -/
inductive Fault where
  | alreadyPending (existing rejected : String)
  | script (message : String)
  | noDefault
  deriving DecidableEq, Repr

namespace Fault

/-- The wording of an error. -/
def message : Fault → String
  | alreadyPending existing rejected =>
    "error already pending ('" ++ existing ++ "'), rejected '" ++ rejected ++ "'"
  | script m => m
  | noDefault => "no default VM has been set"

/-- The message that a script left, where the error is one. -/
def scriptMessage? : Fault → Option String
  | script m => some m
  | _ => none

/-- The text for diagnostics. -/
def layout : Fault → Layout
  | alreadyPending existing rejected =>
    .record "ErrorPending"
      [("existing", .text (Quoted.string existing)), ("rejected", .text (Quoted.string rejected))]
  | script m => .record "Script" [("message", .text (Quoted.string m))]
  | noDefault => .text "NoDefaultVm"

end Fault

end ScriptBinding
