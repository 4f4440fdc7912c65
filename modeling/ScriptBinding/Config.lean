import ScriptBinding.Handle
import ScriptBinding.Registry.Listing

/-
Configurations of a binding state.

* `Config`: the three settings.
* `Config.Call`, `Config.build`: the builder calls, and what a list of them
  makes of the default configuration.
* `Config.layout`: the text for diagnostics.
-/
namespace ScriptBinding

/-- The settings of a binding state. A default VM that is not named leaves the
present one alone. -/
structure Config where
  errorHandling : Bool := true
  throwMode : Registry.Mode := .firstWins
  defaultVm : Option Handle := none
  deriving DecidableEq

namespace Config

/-- A call of the builder. -/
inductive Call where
  | errorHandling (enabled : Bool)
  | throwMode (mode : Registry.Mode)
  | defaultVm (vm : Handle)
  deriving DecidableEq

/-- The configuration after one call. -/
def apply (c : Config) : Call → Config
  | .errorHandling enabled => { c with errorHandling := enabled }
  | .throwMode mode => { c with throwMode := mode }
  | .defaultVm vm => { c with defaultVm := some vm }

/-- The default configuration changed by calls, in their order. -/
def build (calls : List Call) : Config :=
  calls.foldl apply {}

/-- The text for diagnostics. -/
def layout (c : Config) : Layout :=
  .record "BindConfig"
    [("error_handling", .bool c.errorHandling),
     ("throw_mode", .text c.throwMode.label),
     ("default_vm", .option (c.defaultVm.map fun vm => .text vm.label))]

end Config

end ScriptBinding
