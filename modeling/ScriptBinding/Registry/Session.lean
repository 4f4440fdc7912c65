import ScriptBinding.Registry.Step

/-
Sessions with several registries: a list that grows by copying.

* `Registry.Session`: the registries, named by their index.
* `Registry.Session.Step`: an operation on one registry, or a copy of it.
* `Registry.Session.step?`, `Registry.Session.run?`: one step on the registry at an
  index, and a list of them; none where the session has no such registry.
-/
namespace ScriptBinding.Registry

/-- Registries, the oldest first; a registry is named by its index. -/
abbrev Session (κ : Type) :=
  List (Registry κ)

namespace Session

/-- What can be asked of one registry of a session. -/
inductive Step (κ : Type) where
  /-- An operation on it. -/
  | perform (step : Registry.Step κ)
  /-- A copy of it, put last. -/
  | fork
  deriving DecidableEq, Repr

/-- The answer to a step of a session. -/
inductive Answer (κ : Type) where
  | performed (answer : Registry.Answer κ)
  | index (n : Nat)
  deriving DecidableEq, Repr

variable {κ : Type} [DecidableEq κ]

/-- One step on the registry at index `s`. -/
def step? (session : Session κ) (s : Nat) (step : Step κ) :
    Option (Session κ × Reply (Event κ) (Answer κ)) := do
  let r ← session[s]?
  match step with
  | .perform step =>
    let (r, reply) := r.step step
    return (session.set s r, reply.map id .performed)
  | .fork => return (session ++ [r], .quiet (.index session.length))

/-- A list of steps, each on the registry at an index. -/
def run? (session : Session κ) :
    List (Nat × Step κ) → Option (Session κ × List (Reply (Event κ) (Answer κ)))
  | [] => some (session, [])
  | (i, step) :: steps => do
    let (session, reply) ← session.step? i step
    let (session, replies) ← run? session steps
    return (session, reply :: replies)

end Session

end ScriptBinding.Registry
