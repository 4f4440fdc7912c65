import Mathlib.Data.Bool.Count
import ScriptBinding.Proofs.Registry.Attempts

/-
Which messages are converted, and what a conversion that fails does.

* `Step.offers`: the attempts that an operation makes, each as whether it is dropped unseen;
  `Step.failure?`: what the conversion of its message aborts with.
* `Careful`: how an operation treats the message that it is given; `careful`: every one does.
* `conversions_run`: a history converts the message of each attempt, but of those that are
  dropped unseen.
-/
namespace ScriptBinding.Registry

variable {κ : Type} [DecidableEq κ]

/-- The attempts that an operation makes, which are one at most, each as whether it is dropped
unseen. -/
def Step.offers (r : Registry κ) (step : Step κ) : List Bool :=
  step.attempt?.toList.map fun _ => step.unseen r

/-- What the conversion of the message aborts with, where an operation converts one. -/
def Step.failure? (r : Registry κ) (step : Step κ) : Option String :=
  match step.attempt? with
  | some (_, .failing why) => if step.unseen r then none else some why
  | _ => none

/-- How an operation treats the message that it is given, if it is given one. -/
structure Careful (r : Registry κ) (step : Step κ) : Prop where
  /-- A throw while a message is pending, where the first one wins, does not look at it. -/
  dropped : ∀ k m, step = .throw k m → r.isPending k = true → r.mode = .firstWins →
    r.step step = (r, { outcome := .returned (.flag false), conversions := 0,
                        events := [.dropped k] })
  /-- Any other attempt converts it once. -/
  converted : ∀ k m, step.attempt? = some (k, m) → step.unseen r = false →
    (r.step step).2.conversions = 1
  /-- Any other operation has none to convert. -/
  other : step.attempt? = none → (r.step step).2.conversions = 0
  /-- Where the conversion aborts, so does the operation, and nothing else happens. -/
  atomic : ∀ k why, step.attempt? = some (k, .failing why) → step.unseen r = false →
    r.step step = (r, { outcome := .aborted why, conversions := 1, events := [] })

variable {r : Registry κ} {step : Step κ} {why : String}

/-- An attempt that is dropped unseen. -/
lemma step_unseen {k : κ} {m : Message} (hattempt : step.attempt? = some (k, m))
    (h : step.unseen r = true) :
    r.step step = (r, { outcome := .returned (.flag false), events := [.dropped k] }) := by
  have hdone := attempted (r := r) hattempt
  generalize r.step step = result at hdone ⊢
  cases hdone with
  | unseen => rfl
  | failing _ seen | recorded _ _ seen | refused _ _ _ seen =>
      rw [h] at seen
      cases seen

/-- An operation whose message cannot be converted. -/
lemma step_failing (h : step.failure? r = some why) :
    r.step step = (r, { outcome := .aborted why, conversions := 1 }) := by
  rw [Step.failure?] at h
  split at h
  · rename_i k why' hattempt
    split at h
    · cases h
    · rename_i hseen
      cases h
      have hdone := attempted (r := r) hattempt
      generalize r.step step = result at hdone ⊢
      cases hdone with
      | unseen _ _ unseen => exact absurd unseen hseen
      | failing => rfl
  · cases h

/-- An operation converts the message of each attempt that it makes, unless it is dropped
unseen. -/
lemma conversions_step (r : Registry κ) (step : Step κ) :
    (r.step step).2.conversions = (step.offers r).count false := by
  cases hattempt : step.attempt? with
  | none =>
      rw [conversions_of_none r hattempt, Step.offers, hattempt]
      rfl
  | some x =>
      obtain ⟨k, m⟩ := x
      rw [Step.offers, hattempt]
      have hdone := attempted (r := r) hattempt
      generalize r.step step = result at hdone ⊢
      cases hdone with
      | unseen _ _ unseen =>
          rw [unseen]
          rfl
      | failing _ seen | recorded _ _ seen | refused _ _ _ seen =>
          rw [seen]
          rfl

/-- **Every operation is careful with the message that it is given.** -/
theorem careful (r : Registry κ) (step : Step κ) : r.Careful step where
  dropped := by
    rintro k m rfl hpending hmode
    exact step_unseen rfl (by simp [Step.unseen, hpending, hmode])
  converted := by
    intro k m hattempt hseen
    rw [conversions_step, Step.offers, hattempt, hseen]
    rfl
  other := by
    intro hattempt
    rw [conversions_step, Step.offers, hattempt]
    rfl
  atomic := by
    intro k why hattempt hseen
    exact step_failing (by rw [Step.failure?, hattempt, hseen]; rfl)

/-- **A history converts the message of each attempt, but of those that are dropped
unseen.** -/
theorem conversions_run (r : Registry κ) (steps : List (Step κ)) :
    ((r.run steps).2.map (·.conversions)).sum
        + ((r.turns steps).flatMap fun t => t.step.offers t.before).count true
      = ((r.turns steps).flatMap fun t => t.step.offers t.before).length := by
  rw [← List.count_false_add_count_true, Nat.add_left_inj]
  induction steps generalizing r with
  | nil => rfl
  | cons step steps ih =>
      rw [run_cons, turns, List.map_cons, List.sum_cons, List.flatMap_cons, List.count_append, ih,
        conversions_step]

end ScriptBinding.Registry
