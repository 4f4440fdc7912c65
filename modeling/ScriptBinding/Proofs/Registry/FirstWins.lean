import Mathlib.Data.List.DropRight
import Mathlib.Tactic.Common
import ScriptBinding.Registry.Step

/-
The first error wins, for each key and in every history of a registry.

* `Step.offered?`, `Step.drains`: what an operation does to a key.
* `firstSince`: the first text offered for a key after it was last drained.
* `Step.answer?`, `Step.abort?`: what an operation on a key answers, and when it
  aborts instead, from what is pending.
* `peek_step`, `peek_run`: what is pending for a key is the first text offered
  since.
* `outcome_step`, `outcome_run`: the same decides what every operation answers.
-/
namespace ScriptBinding.Registry

variable {κ : Type}

/-- The key that an operation is about, if it is about one. -/
def Step.key? : Step κ → Option κ
  | .throw k _ | .tryThrow k _ | .isPending k | .clear k | .message k | .take k | .peek k
  | .close k => some k
  | .size | .isEmpty | .keys | .mode | .setMode _ | .inspect => none

/-- What an operation on a key answers while `pending` is pending for it. -/
def Step.answer? (pending : Option String) : Step κ → Option (Answer κ)
  | .throw _ _ => some (.flag pending.isNone)
  | .tryThrow _ (.text s) => some (.ofRefusal (pending.map (.alreadyPending · s)))
  | .isPending _ => some (.flag pending.isSome)
  | .clear _ => some .done
  | .message _ => some (.text (pending.getD ""))
  | .take _ | .peek _ | .close _ => some (.found pending)
  | _ => none

/-- The text that an operation aborts with while `pending` is pending for its
key: that of a failing message, unless the message is dropped unseen. -/
def Step.abort? (mode : Mode) (pending : Option String) : Step κ → Option String
  | .throw _ (.failing why) => if pending.isSome ∧ mode = .firstWins then none else some why
  | .tryThrow _ (.failing why) => some why
  | _ => none

/-- The mode after operations. -/
def modeAfter (mode : Mode) (steps : List (Step κ)) : Mode :=
  steps.foldl (fun mode step => match step with
    | .setMode mode => mode
    | _ => mode) mode

variable [DecidableEq κ]

/-- The text that an operation offers for a key, where its message converts. -/
def Step.offered? (k : κ) : Step κ → Option String
  | .throw j (.text s) | .tryThrow j (.text s) => if j = k then some s else none
  | _ => none

/-- Whether an operation drains a key. -/
def Step.drains (k : κ) : Step κ → Bool
  | .clear j | .message j | .take j | .close j => j = k
  | _ => false

/-- The first text offered for a key after it was last drained. -/
def firstSince (k : κ) (steps : List (Step κ)) : Option String :=
  (steps.rtakeWhile (!·.drains k)).findSome? (·.offered? k)

@[simp] lemma firstSince_nil (k : κ) : firstSince k [] = none := rfl

/-- One more operation: a drained key has nothing, and a text counts only where
there is none. -/
lemma firstSince_concat (k : κ) (steps : List (Step κ)) (step : Step κ) :
    firstSince k (steps ++ [step])
      = if step.drains k then none else (firstSince k steps).or (step.offered? k) := by
  rw [firstSince, List.rtakeWhile_concat]
  by_cases hdrains : step.drains k
  · simp [hdrains]
  · simp [hdrains, firstSince, List.findSome?_append]

/-- An operation on another key neither offers nor drains. -/
lemma offered?_of_ne {k : κ} {step : Step κ} (hne : step.key? ≠ some k) :
    step.offered? k = none := by
  cases step with
  | throw j m | tryThrow j m =>
      have hjk : ¬ j = k := fun h => hne (congrArg some h)
      cases m <;> simp [Step.offered?, hjk]
  | _ => rfl

lemma drains_of_ne {k : κ} {step : Step κ} (hne : step.key? ≠ some k) :
    step.drains k = false := by
  cases step with
  | clear j | message j | take j | close j =>
      exact decide_eq_false fun h => hne (congrArg some h)
  | _ => rfl

/-- Operations on other keys do not count. -/
lemma firstSince_filter (k : κ) (steps : List (Step κ)) :
    firstSince k (steps.filter (·.key? = some k)) = firstSince k steps := by
  induction steps using List.reverseRecOn with
  | nil => rfl
  | append_singleton steps step ih =>
      rw [List.filter_append, firstSince_concat]
      by_cases hkey : step.key? = some k
      · rw [List.filter_cons_of_pos (by simpa using hkey), List.filter_nil, firstSince_concat, ih]
      · rw [List.filter_cons_of_neg (by simpa using hkey), List.filter_nil, List.append_nil, ih,
          drains_of_ne hkey, offered?_of_ne hkey, Option.or_none]
        rfl

/-! ### One operation -/

variable {r : Registry κ}

/-- A text is recorded where nothing is pending, and is refused otherwise. -/
lemma throwText_eq (r : Registry κ) (k : κ) (s : String) :
    (r.throwText k s).1 = (if r.isPending k then r else r.record k s)
      ∧ (r.throwText k s).2.outcome = .returned (r.peek k).isNone := by
  rw [throwText, isPending]
  cases hpeek : r.peek k <;> simp

/-- Throwing a text that needs conversion does what throwing it as it is does. -/
lemma throw_text (r : Registry κ) (k : κ) (s : String) :
    (r.throw k (.text s)).1 = (r.throwText k s).1
      ∧ (r.throw k (.text s)).2.outcome = (r.throwText k s).2.outcome := by
  obtain ⟨hstate, houtcome⟩ := throwText_eq r k s
  rw [throw]
  split
  · rename_i hquiet
    have hsome : (r.peek k).isNone = false := Option.isNone_eq_false_iff.mpr hquiet.1
    rw [hstate, houtcome, if_pos hquiet.1, hsome]
    exact ⟨rfl, rfl⟩
  · exact ⟨rfl, rfl⟩

lemma peek_throwText (r : Registry κ) (j k : κ) (s : String) :
    (r.throwText j s).1.peek k = (r.peek k).or (if j = k then some s else none) := by
  rw [(throwText_eq r j s).1, isPending]
  by_cases hjk : j = k
  · subst hjk
    cases hpeek : r.peek j <;> simp [hpeek, peek_record]
  · cases r.peek j <;> simp [hjk, Ne.symm hjk, peek_record]

/-- A message that is tried is recorded as one that is thrown is. -/
lemma tryThrow_state (r : Registry κ) (k : κ) (s : String) :
    (r.tryThrow k (.text s)).1 = (r.throwText k s).1 := by
  rw [tryThrow, throwText]
  cases r.peek k <;> rfl

/-- Recording leaves the mode alone. -/
lemma mode_throwText (r : Registry κ) (k : κ) (s : String) : (r.throwText k s).1.mode = r.mode := by
  rw [(throwText_eq r k s).1]
  split <;> rfl

/-- A failing message is not recorded. -/
lemma throw_failing (r : Registry κ) (k : κ) (why : String) :
    (r.throw k (.failing why)).1 = r ∧ (r.tryThrow k (.failing why)).1 = r := by
  rw [throw, tryThrow]
  split <;> exact ⟨rfl, rfl⟩

/-- What is pending after one operation. -/
lemma peek_step (r : Registry κ) (step : Step κ) (k : κ) :
    (r.step step).1.peek k
      = if step.drains k then none else (r.peek k).or (step.offered? k) := by
  cases step with
  | throw j m =>
      cases m with
      | failing why =>
          show (r.throw j (.failing why)).1.peek k = _
          rw [(throw_failing r j why).1]
          simp [Step.drains, Step.offered?]
      | text s =>
          show (r.throw j (.text s)).1.peek k = _
          rw [(throw_text r j s).1, peek_throwText]
          rfl
  | tryThrow j m =>
      cases m with
      | failing why =>
          show (r.tryThrow j (.failing why)).1.peek k = _
          rw [(throw_failing r j why).2]
          simp [Step.drains, Step.offered?]
      | text s =>
          show (r.tryThrow j (.text s)).1.peek k = _
          rw [tryThrow_state, peek_throwText]
          rfl
  | clear j | message j | take j | close j =>
      show (r.remove j).peek k = _
      rw [peek_remove]
      simp [Step.drains, Step.offered?, eq_comm]
  | _ => simp [step, Step.drains, Step.offered?]

/-- **What one operation on a key answers**, and when it aborts. -/
lemma outcome_step (r : Registry κ) {step : Step κ} {k : κ} (hkey : step.key? = some k) :
    (∀ a, (r.step step).2.outcome = .returned a → step.answer? (r.peek k) = some a)
      ∧ ∀ why, (r.step step).2.outcome = .aborted why
          ↔ step.abort? r.mode (r.peek k) = some why := by
  cases step with
  | throw j m =>
      cases hkey
      have houtcome : (r.step (.throw k m)).2.outcome = (r.throw k m).2.outcome.map .flag := rfl
      rw [houtcome]
      cases m with
      | failing why =>
          rw [throw, isPending]
          split <;> simp_all [Outcome.map, Step.answer?, Step.abort?]
      | text s =>
          rw [(throw_text r k s).2, (throwText_eq r k s).2]
          simp [Outcome.map, Step.answer?, Step.abort?]
  | tryThrow j m =>
      cases hkey
      cases m with
      | failing why => simp [step, tryThrow, Reply.map, Outcome.map, Step.abort?]
      | text s =>
          simp only [step, tryThrow]
          cases r.peek k <;> simp [Reply.map, Outcome.map, Step.answer?, Step.abort?]
  | isPending | clear | message | take | peek | close =>
      cases hkey
      refine ⟨fun a ha => ?_, fun why => ?_⟩
      · cases ha
        rfl
      · exact ⟨nofun, nofun⟩
  | _ => cases hkey

/-! ### Histories -/

lemma run_cons (r : Registry κ) (step : Step κ) (steps : List (Step κ)) :
    r.run (step :: steps) = (((r.step step).1.run steps).1,
      (r.step step).2 :: ((r.step step).1.run steps).2) := rfl

/-- A history in two parts. -/
lemma run_append (r : Registry κ) (xs ys : List (Step κ)) :
    r.run (xs ++ ys)
      = (((r.run xs).1.run ys).1, (r.run xs).2 ++ ((r.run xs).1.run ys).2) := by
  induction xs generalizing r with
  | nil => rfl
  | cons x xs ih => rw [List.cons_append, run_cons, run_cons, ih, List.cons_append]

lemma run_length (r : Registry κ) (steps : List (Step κ)) :
    (r.run steps).2.length = steps.length := by
  induction steps generalizing r with
  | nil => rfl
  | cons step steps ih => rw [run_cons, List.length_cons, List.length_cons, ih]

/-- What is pending for a key is the first text offered since it was last drained. -/
lemma peek_run (mode : Mode) (steps : List (Step κ)) (k : κ) :
    ((empty mode : Registry κ).run steps).1.peek k = firstSince k steps := by
  induction steps using List.reverseRecOn with
  | nil => rfl
  | append_singleton steps step ih =>
      rw [run_append, firstSince_concat, ← ih]
      exact peek_step _ step k

/-- The mode is the one that was set last. -/
lemma mode_run (r : Registry κ) (steps : List (Step κ)) :
    (r.run steps).1.mode = modeAfter r.mode steps := by
  induction steps generalizing r with
  | nil => rfl
  | cons step steps ih =>
      rw [run_cons, ih, modeAfter, modeAfter, List.foldl_cons]
      congr 1
      cases step with
      | throw k m =>
          cases m with
          | failing why => exact congrArg Registry.mode (throw_failing r k why).1
          | text s =>
              have hstate : (r.step (.throw k (.text s))).1 = (r.throwText k s).1 :=
                (throw_text r k s).1
              rw [hstate, mode_throwText]
      | tryThrow k m =>
          cases m with
          | failing why => exact congrArg Registry.mode (throw_failing r k why).2
          | text s =>
              have hstate : (r.step (.tryThrow k (.text s))).1 = (r.throwText k s).1 :=
                tryThrow_state r k s
              rw [hstate, mode_throwText]
      | _ => rfl

/-- **What an operation in a history answers** is decided by the first text offered
for its key since that was last drained. -/
theorem outcome_run (mode : Mode) {steps before after : List (Step κ)} {step : Step κ} {k : κ}
    (hsteps : steps = before ++ step :: after) (hkey : step.key? = some k) :
    ∃ reply, ((empty mode : Registry κ).run steps).2[before.length]? = some reply
      ∧ (∀ a, reply.outcome = .returned a → step.answer? (firstSince k before) = some a)
      ∧ ∀ why, reply.outcome = .aborted why
          ↔ step.abort? (modeAfter mode before) (firstSince k before) = some why := by
  have houtcome := outcome_step ((empty mode : Registry κ).run before).1 hkey
  rw [peek_run, mode_run] at houtcome
  refine ⟨_, ?_, houtcome⟩
  rw [hsteps, run_append, run_cons, List.getElem?_append_right (by rw [run_length]), run_length,
    Nat.sub_self]
  rfl

end ScriptBinding.Registry
