/-
Messages and replies.

* `Outcome`: an operation returns a value or aborts with a text.
* `Message`: a message argument; turning it into a text is work of the caller's
  type and may itself abort.
* `Reply`: what an operation gives back beside the new state: its outcome, how
  often a message was converted, and the events it logged, in order.
-/
namespace ScriptBinding

/-- What an operation comes to. -/
inductive Outcome (α : Type) where
  | returned (value : α)
  | aborted (why : String)
  deriving DecidableEq, Repr

namespace Outcome

/-- A function applied to what was returned. -/
def map {α β : Type} (f : α → β) : Outcome α → Outcome β
  | returned a => returned (f a)
  | aborted why => aborted why

/-- Whether the operation aborted. -/
def isAborted {α : Type} : Outcome α → Bool
  | returned _ => false
  | aborted _ => true

end Outcome

/-- A message argument: a text, or a value whose conversion to a text aborts. -/
inductive Message where
  | text (s : String)
  | failing (why : String)
  deriving DecidableEq, Repr

namespace Message

/-- The text of a message. -/
def convert : Message → Outcome String
  | text s => .returned s
  | failing why => .aborted why

end Message

/-- What an operation gives back beside the new state: `ε` is the type of its
events and `α` that of its answer. -/
structure Reply (ε α : Type) where
  outcome : Outcome α
  conversions : Nat := 0
  events : List ε := []
  deriving DecidableEq, Repr

namespace Reply

/-- The reply of an operation that converts nothing and logs nothing. -/
def quiet {ε α : Type} (a : α) : Reply ε α :=
  { outcome := .returned a }

/-- The reply with its answer and its events seen through functions. -/
def map {ε φ α β : Type} (onEvent : ε → φ) (onAnswer : α → β) (r : Reply ε α) : Reply φ β where
  outcome := r.outcome.map onAnswer
  conversions := r.conversions
  events := r.events.map onEvent

end Reply

end ScriptBinding
