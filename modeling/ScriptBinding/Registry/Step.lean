import ScriptBinding.Registry.Basic

/-
Histories of registries.

* `Registry.Step`, `Registry.Answer`: an operation as a value, and what it
  answers.
* `Registry.step`, `Registry.run`: one step, and a list of them.
-/
namespace ScriptBinding.Registry

/-- An operation on a registry. -/
inductive Step (κ : Type) where
  | throw (key : κ) (message : Message)
  | tryThrow (key : κ) (message : Message)
  | isPending (key : κ)
  | clear (key : κ)
  | message (key : κ)
  | take (key : κ)
  | peek (key : κ)
  | close (key : κ)
  | size
  | isEmpty
  | keys
  | mode
  | setMode (mode : Registry.Mode)
  | inspect
  deriving DecidableEq, Repr

/-- The answer to an operation on a registry. -/
inductive Answer (κ : Type) where
  | done
  | refused (error : Fault)
  | flag (b : Bool)
  | text (s : String)
  | found (message : Option String)
  | count (n : Nat)
  | keys (ks : List κ)
  | mode (mode : Registry.Mode)
  | whole (r : Registry κ)
  deriving DecidableEq, Repr

namespace Answer

/-- The answer to an attempt that may be refused. -/
def ofRefusal {κ : Type} : Option Fault → Answer κ
  | none => done
  | some e => refused e

end Answer

variable {κ : Type} [DecidableEq κ]

/-- One operation: the registry after it, and the reply. -/
def step (r : Registry κ) : Step κ → Registry κ × Reply (Event κ) (Answer κ)
  | .throw k m => (r.throw k m).map id (·.map id .flag)
  | .tryThrow k m => (r.tryThrow k m).map id (·.map id .ofRefusal)
  | .isPending k => (r, .quiet (.flag (r.isPending k)))
  | .clear k => (r.remove k, .quiet .done)
  | .message k => (r.message k).map id fun s => .quiet (.text s)
  | .take k => (r.take k).map id fun m => .quiet (.found m)
  | .peek k => (r, .quiet (.found (r.peek k)))
  | .close k => (r.close k).map id (·.map id .found)
  | .size => (r, .quiet (.count r.size))
  | .isEmpty => (r, .quiet (.flag r.isEmpty))
  | .keys => (r, .quiet (.keys r.keys))
  | .mode => (r, .quiet (.mode r.mode))
  | .setMode mode => (r.setMode mode, .quiet .done)
  | .inspect => (r, .quiet (.whole r))

/-- A list of operations: the registry after them, and their replies. -/
def run (r : Registry κ) : List (Step κ) → Registry κ × List (Reply (Event κ) (Answer κ))
  | [] => (r, [])
  | s :: steps =>
    let (r, reply) := r.step s
    let (r, replies) := r.run steps
    (r, reply :: replies)

end ScriptBinding.Registry
