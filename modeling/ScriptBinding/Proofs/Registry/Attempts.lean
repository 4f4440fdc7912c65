import ScriptBinding.Proofs.Registry.FirstWins

/-
Attempts to record a message, and what they can come to.

* `Step.attempt?`: the key and the message of an attempt; `Step.unseen`: the attempt is
  dropped without a look at its message.
* `Attempted`: the four ways in which an attempt ends; `attempted`: there are no others.
* `conversions_of_none`: an operation that is no attempt converts nothing.
* `Turn`, `turns`: a history operation by operation, each with the registry it ran on;
  `steps_turns`, `replies_run`, `turns_append`.
-/
namespace ScriptBinding.Registry

variable {κ : Type}

/-- The key and the message of an attempt to record. -/
def Step.attempt? : Step κ → Option (κ × Message)
  | .throw k m | .tryThrow k m => some (k, m)
  | _ => none

/-- What an attempt answers where its message was recorded. -/
def Step.accepted : Step κ → Answer κ
  | .throw _ _ => .flag true
  | _ => .done

/-- What an attempt answers where its text was refused. -/
def Step.refused (existing text : String) : Step κ → Answer κ
  | .throw _ _ => .flag false
  | _ => .refused (.alreadyPending existing text)

/-- What an attempt logs where its text was refused: a throw warns, unless it is dropped
before its text is known. -/
def Step.warning (k : κ) (existing text : String) : Step κ → List (Event κ)
  | .throw _ _ => [.rejected k existing text]
  | _ => []

variable [DecidableEq κ]

/-- Whether an operation is dropped without a look at its message: a throw while a message
is pending, where the first one wins quietly. -/
def Step.unseen (r : Registry κ) : Step κ → Bool
  | .throw k _ => r.isPending k && r.mode = .firstWins
  | _ => false

variable {r : Registry κ} {step : Step κ} {k : κ} {m : Message}

/-! ### One attempt -/

/-- The ways in which an attempt ends. -/
inductive Attempted (r : Registry κ) (step : Step κ) (k : κ) :
    Message → Registry κ × Reply (Event κ) (Answer κ) → Prop where
  /-- It was dropped without a look at its message. -/
  | unseen (m : Message) (pending : r.isPending k = true) (unseen : step.unseen r = true) :
      Attempted r step k m (r, { outcome := .returned (.flag false), events := [.dropped k] })
  /-- Its message could not be converted. -/
  | failing (why : String) (seen : step.unseen r = false) :
      Attempted r step k (.failing why) (r, { outcome := .aborted why, conversions := 1 })
  /-- Its text was recorded. -/
  | recorded (s : String) (idle : r.peek k = none) (seen : step.unseen r = false) :
      Attempted r step k (.text s)
        (r.record k s,
          { outcome := .returned step.accepted, conversions := 1, events := [.recorded k s] })
  /-- Its text was refused. -/
  | refused (s existing : String) (pending : r.peek k = some existing)
      (seen : step.unseen r = false) :
      Attempted r step k (.text s)
        (r, { outcome := .returned (step.refused existing s), conversions := 1,
              events := step.warning k existing s })

/-- **What an attempt does**: it ends in one of these ways. -/
theorem attempted (h : step.attempt? = some (k, m)) : Attempted r step k m (r.step step) := by
  cases step with
  | throw j m' =>
      cases h
      cases hunseen : (Step.throw k m).unseen r with
      | true =>
          obtain ⟨hpending, hmode⟩ := Bool.and_eq_true_iff.mp hunseen
          have hthrow : r.throw k m
              = (r, { outcome := .returned false, events := [.dropped k] }) := by
            rw [throw.eq_def, if_pos ⟨hpending, of_decide_eq_true hmode⟩]
          rw [step, hthrow]
          exact .unseen m hpending hunseen
      | false =>
          have hseen : ¬ (r.isPending k = true ∧ r.mode = .firstWins) := by
            simpa [Step.unseen] using hunseen
          rw [step, throw.eq_def, if_neg hseen]
          cases m with
          | failing why => exact .failing why hunseen
          | text s =>
              cases hpeek : r.peek k with
              | none =>
                  simp only [throwText, hpeek]
                  exact .recorded s hpeek hunseen
              | some existing =>
                  have hstrict : r.mode = .strict := by
                    cases hmode : r.mode with
                    | strict => rfl
                    | firstWins => exact absurd ⟨by rw [isPending, hpeek]; rfl, hmode⟩ hseen
                  simp only [throwText, hpeek, hstrict]
                  exact .refused s existing hpeek hunseen
  | tryThrow j m' =>
      cases h
      cases m with
      | failing why => exact .failing why rfl
      | text s =>
          cases hpeek : r.peek k with
          | none =>
              simp only [step, tryThrow, hpeek]
              exact .recorded s hpeek rfl
          | some existing =>
              simp only [step, tryThrow, hpeek]
              exact .refused s existing hpeek rfl
  | _ => cases h

/-- An operation that is no attempt has no message to convert. -/
lemma conversions_of_none (r : Registry κ) (h : step.attempt? = none) :
    (r.step step).2.conversions = 0 := by
  cases step with
  | throw | tryThrow => cases h
  | _ => rfl

/-! ### Histories, operation by operation -/

/-- An operation as it happened: the registry that it ran on. -/
structure Turn (κ : Type) where
  before : Registry κ
  step : Step κ

namespace Turn

/-- The registry after the operation. -/
def after (t : Turn κ) : Registry κ :=
  (t.before.step t.step).1

/-- The reply of the operation. -/
def reply (t : Turn κ) : Reply (Event κ) (Answer κ) :=
  (t.before.step t.step).2

end Turn

/-- The operations of a history, as they happened. -/
def turns (r : Registry κ) : List (Step κ) → List (Turn κ)
  | [] => []
  | step :: steps => ⟨r, step⟩ :: turns (r.step step).1 steps

lemma steps_turns (r : Registry κ) (steps : List (Step κ)) :
    (r.turns steps).map (·.step) = steps := by
  induction steps generalizing r with
  | nil => rfl
  | cons step steps ih => exact congrArg (step :: ·) (ih _)

/-- The replies of a history are those of its operations. -/
lemma replies_run (r : Registry κ) (steps : List (Step κ)) :
    (r.run steps).2 = (r.turns steps).map (·.reply) := by
  induction steps generalizing r with
  | nil => rfl
  | cons step steps ih =>
      rw [run_cons, ih]
      rfl

lemma turns_append (r : Registry κ) (xs ys : List (Step κ)) :
    r.turns (xs ++ ys) = r.turns xs ++ (r.run xs).1.turns ys := by
  induction xs generalizing r with
  | nil => rfl
  | cons x xs ih =>
      rw [List.cons_append, turns, ih, run_cons]
      rfl

end ScriptBinding.Registry
