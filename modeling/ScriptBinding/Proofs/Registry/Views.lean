import Mathlib.Data.List.TFAE
import ScriptBinding.Proofs.Registry.Attempts
import ScriptBinding.Proofs.Table.Entries

/-
All views of a registry agree, and its size counts what is pending.

* `Says`: what an operation would answer if it came next; `says_iff`: on a key, what is pending
  for it decides.
* `Coherent`: the keys are listed once, size and emptiness are those of that list, and every
  operation on a key tells the same of it.
* `Accepts`, `Removes`: an operation that records a message, and one that takes one away.
* `Alters`, `step_alters`: there is no other way to change what is pending; `Resizes`: what that
  means for the size.
* `distinct_run`: no key ever stands twice; `views_agree`: so the views agree after every history.
-/
namespace ScriptBinding.Registry

variable {κ : Type} [DecidableEq κ]

/-- What an operation answers when it comes next. -/
def Says (r : Registry κ) (step : Step κ) (a : Answer κ) : Prop :=
  (r.step step).2.outcome = .returned a

/-- The views of a registry that lists the keys `ks`. -/
structure Coherent (r : Registry κ) (ks : List κ) : Prop where
  keys : r.Says .keys (.keys ks)
  nodup : ks.Nodup
  size : r.Says .size (.count ks.length)
  isEmpty : r.Says .isEmpty (.flag (ks.length = 0))
  /-- Whether a message is pending for a key can be told in seven ways. -/
  pending (k : κ) (s : String) : [k ∈ ks,
    r.Says (.isPending k) (.flag true),
    ∃ m, r.Says (.peek k) (.found (some m)),
    r.Says (.throw k (.text s)) (.flag false),
    ∃ m, r.Says (.tryThrow k (.text s)) (.refused (.alreadyPending m s)),
    ∃ m, r.Says (.take k) (.found (some m)),
    ∃ m, r.Says (.close k) (.found (some m))].TFAE
  /-- Wherever its text is shown, it is the same. -/
  texts (k : κ) (m s : String) (hpeek : r.Says (.peek k) (.found (some m))) :
    r.Says (.tryThrow k (.text s)) (.refused (.alreadyPending m s))
      ∧ r.Says (.take k) (.found (some m)) ∧ r.Says (.close k) (.found (some m))
      ∧ r.Says (.message k) (.text m)

/-- Whether an operation attempts to record a message, and answers that it did. -/
def Accepts (r : Registry κ) (step : Step κ) : Prop :=
  step.attempt?.isSome ∧ r.Says step step.accepted

/-- Whether an operation drains a key for which a message is pending. -/
def Removes (r : Registry κ) (step : Step κ) : Prop :=
  ∃ k, step.drains k = true ∧ r.Says (.isPending k) (.flag true)

/-- What an operation does to the size, before and after it. -/
structure Resizes (r : Registry κ) (step : Step κ) : Prop where
  recorded : r.Accepts step → (r.step step).1.size = r.size + 1
  removed : r.Removes step → (r.step step).1.size + 1 = r.size
  kept : ¬ r.Accepts step → ¬ r.Removes step → (r.step step).1.size = r.size

variable {r : Registry κ} {step : Step κ} {k : κ}

/-! ### Answers -/

/-- What an operation on a key answers, where it does not abort. -/
lemma says_iff (hkey : step.key? = some k) (hreturns : step.abort? r.mode (r.peek k) = none)
    (a : Answer κ) : r.Says step a ↔ step.answer? (r.peek k) = some a := by
  obtain ⟨hreturned, haborted⟩ := outcome_step r hkey
  refine ⟨hreturned a, fun ha => ?_⟩
  cases houtcome : (r.step step).2.outcome with
  | returned b =>
      have hb := hreturned b houtcome
      rw [ha, Option.some_inj] at hb
      rw [Says, houtcome, hb]
  | aborted why =>
      rw [haborted, hreturns] at houtcome
      cases houtcome

lemma says_isPending (r : Registry κ) (k : κ) :
    r.Says (.isPending k) (.flag true) ↔ (r.peek k).isSome := by
  rw [says_iff rfl rfl, Step.answer?]
  simp

/-- In a registry whose keys are distinct, all views agree. -/
lemma coherent (hdistinct : r.pending.Distinct) : r.Coherent r.keys where
  keys := rfl
  nodup := hdistinct
  size := by
    rw [keys, Table.keys, List.length_map]
    rfl
  isEmpty := by
    rw [keys, Table.keys, List.length_map]
    show Outcome.returned (Answer.flag r.isEmpty) = _
    rw [isEmpty]
    cases r.pending.entries <;> rfl
  pending k s := by
    have hthrown : r.Says (.throw k (.text s)) (.flag false) ↔ (r.peek k).isSome := by
      rw [says_iff rfl rfl, Step.answer?]
      simp [Option.isSome_iff_ne_none]
    have hfound : ∀ step : Step κ, step.key? = some k → step.abort? r.mode (r.peek k) = none →
        step.answer? (r.peek k) = some (.found (r.peek k)) →
        ((∃ m, r.Says step (.found (some m))) ↔ (r.peek k).isSome) := by
      intro step hkey hreturns hanswer
      rw [Option.isSome_iff_exists]
      refine exists_congr fun m => ?_
      rw [says_iff hkey hreturns, hanswer]
      simp
    have htried : (∃ m, r.Says (.tryThrow k (.text s)) (.refused (.alreadyPending m s)))
        ↔ (r.peek k).isSome := by
      rw [Option.isSome_iff_exists]
      refine exists_congr fun m => ?_
      rw [says_iff rfl rfl, Step.answer?]
      cases r.peek k <;> simp [Answer.ofRefusal]
    have hlisted : k ∈ r.keys ↔ (r.peek k).isSome := Table.mem_keys_iff
    exact List.tfae_of_forall (r.peek k).isSome _ (by simp [hlisted, says_isPending, hthrown,
      htried, hfound (.peek k) rfl rfl rfl, hfound (.take k) rfl rfl rfl,
      hfound (.close k) rfl rfl rfl])
  texts k m s hpeek := by
    have hpending : r.peek k = some m := by
      rw [says_iff rfl rfl, Step.answer?] at hpeek
      simpa using hpeek
    refine ⟨?_, ?_, ?_, ?_⟩ <;> rw [says_iff rfl rfl, hpending] <;> rfl

/-! ### Sizes -/

omit [DecidableEq κ] in
/-- An attempt that was refused does not answer that it was accepted. -/
lemma refused_ne_accepted (step : Step κ) (existing text : String) :
    step.refused existing text ≠ step.accepted ∧ step.accepted ≠ .flag false := by
  cases step <;> simp [Step.refused, Step.accepted]

/-- An attempt drains no key. -/
lemma drains_of_attempt {x : κ × Message} (h : step.attempt? = some x) (k : κ) :
    step.drains k = false := by
  cases step with
  | throw | tryThrow => rfl
  | _ => cases h

/-- An operation drains one key at most. -/
lemma eq_of_drains {j : κ} (hj : step.drains j = true) (hk : step.drains k = true) : j = k := by
  cases step with
  | clear i | message i | take i | close i =>
      exact (of_decide_eq_true hj).symm.trans (of_decide_eq_true hk)
  | _ => cases hk

/-- The ways in which an operation changes what is pending, or leaves it. -/
inductive Alters (r : Registry κ) (step : Step κ) (next : Registry κ) : Prop where
  | records (k : κ) (s : String) (accepts : r.Accepts step)
      (keeps : ∀ j, step.drains j = false) (idle : r.peek k = none) (after : next = r.record k s)
  | drains (k : κ) (refuses : ¬ r.Accepts step) (drains : step.drains k = true)
      (after : next = r.remove k)
  | keeps (refuses : ¬ r.Accepts step) (keeps : ∀ j, step.drains j = false)
      (after : next.pending = r.pending)

/-- **What an operation does to what is pending.** -/
theorem step_alters (r : Registry κ) (step : Step κ) : Alters r step (r.step step).1 := by
  cases hattempt : step.attempt? with
  | some x =>
      obtain ⟨k, m⟩ := x
      have hkeeps := drains_of_attempt hattempt
      have hdone := attempted (r := r) hattempt
      have hanswer : r.Accepts step → (r.step step).2.outcome = .returned step.accepted := (·.2)
      generalize hp : r.step step = p at hdone hanswer ⊢
      cases hdone with
      | unseen m _ _ =>
          refine .keeps (fun h => ?_) hkeeps rfl
          exact (refused_ne_accepted step "" "").2 (Outcome.returned.inj (hanswer h)).symm
      | failing why _ => exact .keeps (fun h => nomatch hanswer h) hkeeps rfl
      | recorded s hidle _ =>
          refine .records k s ⟨by rw [hattempt]; rfl, ?_⟩ hkeeps hidle rfl
          rw [Says, hp]
      | refused s existing _ _ =>
          refine .keeps (fun h => ?_) hkeeps rfl
          exact (refused_ne_accepted step existing s).1 (Outcome.returned.inj (hanswer h))
  | none =>
      have hrefuses : ¬ r.Accepts step := fun h => by
        have hsome := h.1
        rw [hattempt] at hsome
        cases hsome
      cases step with
      | throw | tryThrow => cases hattempt
      | clear k | message k | take k | close k =>
          exact .drains k hrefuses (decide_eq_true rfl) rfl
      | _ => exact .keeps hrefuses (fun _ => rfl) rfl

/-- No key stands twice after an operation. -/
lemma distinct_step (hdistinct : r.pending.Distinct) (step : Step κ) :
    (r.step step).1.pending.Distinct := by
  cases step_alters r step with
  | records k s _ _ _ hafter => exact hafter ▸ hdistinct.insert k s
  | drains k _ _ hafter => exact hafter ▸ hdistinct.erase k
  | keeps _ _ hafter => exact hafter ▸ hdistinct

lemma distinct_run (hdistinct : r.pending.Distinct) (steps : List (Step κ)) :
    (r.run steps).1.pending.Distinct := by
  induction steps generalizing r with
  | nil => exact hdistinct
  | cons step steps ih => exact ih (distinct_step hdistinct step)

/-- Recording makes the size one more, taking a message away makes it one less, and nothing else
changes it. -/
lemma resizes (hdistinct : r.pending.Distinct) (step : Step κ) : r.Resizes step := by
  cases step_alters r step with
  | records k s haccepts hkeeps hidle hafter =>
      refine ⟨fun _ => ?_, ?_, fun hrefuses => absurd haccepts hrefuses⟩
      · rw [hafter]
        exact Table.size_insert hidle s
      · rintro ⟨j, hj, -⟩
        rw [hkeeps] at hj
        cases hj
  | drains k hrefuses hdrains hafter =>
      refine ⟨fun haccepts => absurd haccepts hrefuses, ?_, fun _ hremoves => ?_⟩
      · rintro ⟨j, hj, hpending⟩
        obtain rfl := eq_of_drains hj hdrains
        obtain ⟨m, hm⟩ := Option.isSome_iff_exists.mp ((says_isPending r j).mp hpending)
        rw [hafter]
        exact hdistinct.size_erase hm
      · have hnone : r.peek k = none := by
          by_contra hsome
          exact hremoves ⟨k, hdrains, (says_isPending r k).mpr (Option.isSome_iff_ne_none.mpr hsome)⟩
        rw [hafter]
        exact congrArg Table.size (Table.erase_eq_self hnone)
  | keeps hrefuses hkeeps hafter =>
      refine ⟨fun haccepts => absurd haccepts hrefuses, ?_, fun _ _ => congrArg Table.size hafter⟩
      rintro ⟨j, hj, -⟩
      rw [hkeeps] at hj
      cases hj

/-! ### Histories -/

/-- **All views of a registry agree**, after every history: the keys with a message pending are
listed once, in number as many as the size says, and whether a key is one of them, and with which
text, is told alike by every operation that comes next.  An operation makes the size one more where
it records a message, one less where it takes one away, and else leaves it. -/
theorem views_agree (mode : Mode) (steps : List (Step κ)) :
    (∃ ks, ((empty mode : Registry κ).run steps).1.Coherent ks)
      ∧ ∀ step, ((empty mode : Registry κ).run steps).1.Resizes step := by
  have hdistinct : ((empty mode : Registry κ).run steps).1.pending.Distinct :=
    distinct_run Table.distinct_empty steps
  exact ⟨⟨_, coherent hdistinct⟩, resizes hdistinct⟩

/-- Two messages are pending; one more is dropped, and one has been drained. -/
example : let r := ((empty .strict : Registry Nat).run [.throw 1 (.text "first"),
      .tryThrow 2 (.text ""), .throw 1 (.text "late"), .throw 3 (.text "third"), .close 3]).1
    r.Says .keys (.keys [1, 2]) ∧ r.Says (.throw 2 (.text "late")) (.flag false)
      ∧ r.Says (.message 2) (.text "") :=
  ⟨rfl, rfl, rfl⟩

end ScriptBinding.Registry
