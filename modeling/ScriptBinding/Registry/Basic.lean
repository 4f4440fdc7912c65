import ScriptBinding.Table
import ScriptBinding.Message
import ScriptBinding.Fault

/-
Registries of pending errors: at most one message per key, and the first one
wins.

* `Registry`: the pending messages in the order of recording, and the mode.
* `Registry.throwText`, `Registry.throw`: records a message unless one is
  pending; a dropped one is told to the log, with both texts in strict mode.
* `Registry.tryThrow`: the same with an error for a refused message.
* `Registry.remove`, `take`, `message`, `close`: the ways to drain a key.
* `peek_record`, `peek_remove`: how recording and draining change the view.
-/
namespace ScriptBinding

/-- Whether a message dropped because another one is pending is dropped with
a quiet trace or with a warning that carries both texts. -/
inductive Registry.Mode where
  | firstWins
  | strict
  deriving DecidableEq, Repr

/-- The pending messages, by key, and the mode. -/
structure Registry (κ : Type) where
  pending : Table κ String
  mode : Registry.Mode
  deriving DecidableEq, Repr

namespace Registry

/-- What a registry tells the log. -/
inductive Event (κ : Type) where
  /-- A message was recorded. -/
  | recorded (key : κ) (message : String)
  /-- A message was dropped unseen, because another one is pending. -/
  | dropped (key : κ)
  /-- A message was rejected, because another one is pending. -/
  | rejected (key : κ) (existing rejected : String)
  /-- A key was closed while this message was pending. -/
  | closed (key : κ) (message : String)
  deriving DecidableEq, Repr

variable {κ : Type} [DecidableEq κ]

/-- The registry without pending messages. -/
def empty (mode : Registry.Mode) : Registry κ :=
  ⟨.empty, mode⟩

/-- The message pending for a key. -/
def peek (r : Registry κ) (k : κ) : Option String :=
  r.pending.get? k

/-- Whether a message is pending for a key. -/
def isPending (r : Registry κ) (k : κ) : Bool :=
  (r.peek k).isSome

/-- The number of keys with a pending message. -/
def size (r : Registry κ) : Nat :=
  r.pending.size

/-- Whether no message is pending. -/
def isEmpty (r : Registry κ) : Bool :=
  r.pending.entries.isEmpty

/-- The keys with a pending message. -/
def keys (r : Registry κ) : List κ :=
  r.pending.keys

/-- The registry in another mode. -/
def setMode (r : Registry κ) (mode : Registry.Mode) : Registry κ :=
  { r with mode := mode }

/-- The registry with a message pending for a key. -/
def record (r : Registry κ) (k : κ) (m : String) : Registry κ :=
  { r with pending := r.pending.insert k m }

/-- The registry with nothing pending for a key. -/
def remove (r : Registry κ) (k : κ) : Registry κ :=
  { r with pending := r.pending.erase k }

/-! ### Recording -/

/-- Records a text unless a message is pending; tells whether it did. -/
def throwText (r : Registry κ) (k : κ) (s : String) : Registry κ × Reply (Event κ) Bool :=
  match r.peek k with
  | none => (r.record k s, { outcome := .returned true, events := [.recorded k s] })
  | some existing =>
    let event := match r.mode with
      | .firstWins => .dropped k
      | .strict => .rejected k existing s
    (r, { outcome := .returned false, events := [event] })

/-- Throws a message. Where it is dropped quietly it is not even converted;
else it is converted before anything else happens. -/
def throw (r : Registry κ) (k : κ) (m : Message) : Registry κ × Reply (Event κ) Bool :=
  if r.isPending k = true ∧ r.mode = .firstWins then
    (r, { outcome := .returned false, events := [.dropped k] })
  else
    match m with
    | .failing why => (r, { outcome := .aborted why, conversions := 1 })
    | .text s =>
      let (r, reply) := r.throwText k s
      (r, { reply with conversions := 1 })

/-- Throws a message that is converted in any case; a refusal carries the
pending text and the refused one, and is not logged. -/
def tryThrow (r : Registry κ) (k : κ) (m : Message) :
    Registry κ × Reply (Event κ) (Option Fault) :=
  match m with
  | .failing why => (r, { outcome := .aborted why, conversions := 1 })
  | .text s =>
    match r.peek k with
    | some existing =>
      (r, { outcome := .returned (some (.alreadyPending existing s)), conversions := 1 })
    | none =>
      (r.record k s,
        { outcome := .returned none, conversions := 1, events := [.recorded k s] })

/-! ### Draining -/

/-- Drains a key; the message that was pending is returned. -/
def take (r : Registry κ) (k : κ) : Registry κ × Option String :=
  (r.remove k, r.peek k)

/-- Drains a key; the empty text is returned where nothing was pending. -/
def message (r : Registry κ) (k : κ) : Registry κ × String :=
  (r.remove k, (r.peek k).getD "")

/-- Drains a key for good; a message that nobody had drained is logged. -/
def close (r : Registry κ) (k : κ) : Registry κ × Reply (Event κ) (Option String) :=
  (r.remove k,
    { outcome := .returned (r.peek k), events := (r.peek k).toList.map (.closed k) })

/-! ### The view after recording and draining -/

@[simp] theorem peek_empty (mode : Registry.Mode) (k : κ) :
    (empty mode : Registry κ).peek k = none := rfl

theorem peek_record (r : Registry κ) (k j : κ) (m : String) :
    (r.record k m).peek j = if j = k then some m else r.peek j :=
  r.pending.get?_insert k j m

theorem peek_remove (r : Registry κ) (k j : κ) :
    (r.remove k).peek j = if j = k then none else r.peek j :=
  r.pending.get?_erase k j

@[simp] theorem peek_setMode (r : Registry κ) (mode : Registry.Mode) (k : κ) :
    (r.setMode mode).peek k = r.peek k := rfl

end Registry

end ScriptBinding
