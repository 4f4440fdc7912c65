import ScriptBinding.Proofs.ProcessWide.Explicit

/-
Processes that cannot be told apart.

* `Akin`: two processes in the same state, in which the same was raised.
* `Parallel`: two processes that are akin went on, observed the same, and are akin again.
* `Twins`: two executions that come to the same.
* `stepWith_twins`, `runWith_twins`: steps and runs of them come to the same in processes that
  are akin, if reactions do.
* `run_twins`: so do executions with reactions nested to any depth.
-/
namespace ScriptBinding.ProcessWide

/-- Two processes in the same state, in which the same messages were raised in the same VM
objects.  What else was observed may differ, and so may whether somebody aborted while holding
the guard. -/
structure Akin (w v : World) : Prop where
  state : v.cell.state = w.cell.state
  held : v.cell.held = w.cell.held
  raises : Mark.raises v.trace = Mark.raises w.trace

/-- Two processes that are akin went on to others: both observed the same, and ended in the same
state. -/
structure Parallel (w v w' v' : World) : Prop where
  before : Akin w v
  marks : ∃ marks, w'.trace = w.trace ++ marks ∧ v'.trace = v.trace ++ marks
  state : v'.cell.state = w'.cell.state
  held : v'.cell.held = w'.cell.held

/-- Two executions that come to the same: both halt for the same reason, or both end with the
same answer, and have observed the same. -/
inductive Twins {α : Type} (w v : World) :
    Except Halt (World × α) → Except Halt (World × α) → Prop where
  | halted (e : Halt) : Twins w v (.error e) (.error e)
  | ended {w' v' : World} (parallel : Parallel w v w' v') (a : α) :
      Twins w v (.ok (w', a)) (.ok (v', a))

/-- A way to run reactions that comes to the same in processes that are akin. -/
def Even (react : Reaction) : Prop :=
  ∀ ⦃w v : World⦄, Akin w v → ∀ steps, Twins w v (react w steps) (react v steps)

variable {w v w₁ v₁ w' v' : World} {react : Reaction} {hosts : List Host}

lemma Akin.refl (w : World) : Akin w w :=
  ⟨rfl, rfl, rfl⟩

namespace Parallel

lemma refl (h : Akin w v) : Parallel w v w v :=
  ⟨h, ⟨[], (List.append_nil _).symm, (List.append_nil _).symm⟩, h.state, h.held⟩

lemma after (h : Parallel w v w' v') : Akin w' v' := by
  obtain ⟨marks, hw, hv⟩ := h.marks
  refine ⟨h.state, h.held, ?_⟩
  rw [hw, hv, Mark.raises_append, Mark.raises_append, h.before.raises]

lemma trans (h : Parallel w v w₁ v₁) (h' : Parallel w₁ v₁ w' v') : Parallel w v w' v' := by
  obtain ⟨xs, hw, hv⟩ := h.marks
  obtain ⟨ys, hw', hv'⟩ := h'.marks
  refine ⟨h.before, ⟨xs ++ ys, ?_, ?_⟩, h'.state, h'.held⟩
  · rw [hw', hw, List.append_assoc]
  · rw [hv', hv, List.append_assoc]

lemma observe (h : Parallel w v w' v') (marks : List Mark) :
    Parallel w v (w'.observe marks) (v'.observe marks) :=
  h.trans ⟨h.after, ⟨marks, rfl, rfl⟩, h.state, h.held⟩

/-- A report that began before is answered the same. -/
lemma reportAnswer_eq (h : Parallel w v w' v') (vm : Nat) (recorded : Outcome Bool)
    (nested : List (Outcome Answer)) : reportAnswer v' v.trace.length vm recorded nested
      = reportAnswer w' w.trace.length vm recorded nested := by
  obtain ⟨marks, hw, hv⟩ := h.marks
  exact reportAnswer_congr hw hv h.before.raises rfl vm recorded nested

end Parallel

namespace Twins

variable {α β : Type} {x y : Except Halt (World × α)}

/-- What comes after the same comes to the same. -/
lemma after (h : Parallel w v w₁ v₁) (hxy : Twins w₁ v₁ x y) : Twins w v x y := by
  cases hxy with
  | halted e => exact .halted e
  | ended parallel a => exact .ended (h.trans parallel) a

lemma bind {f g : World × α → Except Halt (World × β)} (hxy : Twins w v x y)
    (hfg : ∀ w' v' a, Parallel w v w' v' → Twins w v (f (w', a)) (g (v', a))) :
    Twins w v (x >>= f) (y >>= g) := by
  cases hxy with
  | halted e => exact .halted e
  | ended parallel a => exact hfg _ _ a parallel

/-- A report that began before. -/
lemma reported (h : Parallel w v w' v') (vm : Nat) (recorded : Outcome Bool)
    (nested : List (Outcome Answer)) :
    Twins w v (.ok (w', Outcome.returned (reportAnswer w' w.trace.length vm recorded nested)))
      (.ok (v', Outcome.returned (reportAnswer v' v.trace.length vm recorded nested))) := by
  rw [h.reportAnswer_eq]
  exact .ended h _

end Twins

/-! ### One step -/

/-- An operation under the guard. -/
lemma access_twins {β : Type} (h : Akin w v) (operate : Binding → Binding × β)
    (marks : β → List Mark) (aborts : β → Bool) :
    Twins w v (w.access operate marks aborts) (v.access operate marks aborts) := by
  cases hheld : w.cell.held with
  | true =>
      rw [World.access, World.access, Cell.lock?, Cell.lock?, h.held, hheld]
      exact .halted _
  | false =>
      obtain ⟨w', hw, hstate, hfree, htrace⟩ := access_of_free hheld operate marks aborts
      obtain ⟨v', hv, hstate', hfree', htrace'⟩ :=
        access_of_free (h.held.trans hheld) operate marks aborts
      rw [h.state] at hv hstate' htrace'
      rw [hw, hv]
      exact .ended ⟨h, ⟨_, htrace, htrace'⟩, hstate'.trans hstate.symm, hfree'.trans hfree.symm⟩ _

/-- The end of a report. -/
lemma conclude_twins (hreact : Even react) (h : Parallel w v w₁ v₁) (layer : Layer) (vm : Nat)
    (host : Host) (text : String) (posting : Binding.Posting) :
    Twins w v (conclude react layer w₁ w.trace.length vm host text posting)
      (conclude react layer v₁ v.trace.length vm host text posting) := by
  cases hforward : posting.forward with
  | false =>
      rw [conclude_silent hforward, conclude_silent hforward]
      exact .reported h vm _ []
  | true =>
      have hraised := h.observe (Mark.ofRaise layer vm host.vm.handle text)
      rw [conclude_raising hforward, conclude_raising hforward]
      exact (Twins.after hraised (hreact hraised.after host.onRaise)).bind
        fun _ _ nested h' => .reported h' vm _ nested

/-- A report of a text. -/
lemma reportText_twins (hreact : Even react) (h : Parallel w v w₁ v₁) (vm : Nat) (host : Host)
    (text : String) : Twins w v (reportText react w₁ w.trace.length vm host text)
      (reportText react v₁ v.trace.length vm host text) :=
  (Twins.after h (access_twins h.after _ _ _)).bind fun _ _ posting h' =>
    conclude_twins hreact h' .processWide vm host text posting

/-- A step comes to the same in processes that are akin, if reactions do. -/
lemma stepWith_twins (hreact : Even react) (h : Akin w v) (step : Step) :
    Twins w v (stepWith react hosts w step) (stepWith react hosts v step) := by
  have hself := Parallel.refl h
  cases step with
  | plain p => exact (access_twins h _ _ _).bind fun _ _ _ h' => .ended h' _
  | block ps ending => exact (access_twins h _ _ _).bind fun _ _ _ h' => .ended h' _
  | report vm message =>
      have hconverted := hself.observe [.converted]
      rw [stepWith, stepWith]
      cases hostAt hosts vm with
      | error e => exact .halted e
      | ok host =>
          cases message with
          | failing why => exact .reported hconverted vm (.aborted why) []
          | text text => exact reportText_twins hreact hconverted vm host text
  | reportTypeError vm index expected =>
      rw [stepWith, stepWith]
      cases hostAt hosts vm with
      | error e => exact .halted e
      | ok host => exact reportText_twins hreact hself vm host _
  | typeErrorText vm index expected =>
      rw [stepWith, stepWith]
      cases hostAt hosts vm with
      | error e => exact .halted e
      | ok host => exact .ended hself _
  | lastError vm =>
      rw [stepWith, stepWith, errorsOf_congr h.raises]
      cases hostAt hosts vm with
      | error e => exact .halted e
      | ok host => exact .ended hself _

/-! ### Whole executions -/

/-- So does a list of steps, if each of them does. -/
lemma runWith_twins {step : World → Step → Except Halt (World × Outcome Answer)}
    (hstep : ∀ ⦃w v⦄, Akin w v → ∀ s, Twins w v (step w s) (step v s)) :
    Even (runWith step) := by
  intro w v h steps
  induction steps generalizing w v with
  | nil => exact .ended (.refl h) []
  | cons s steps ih =>
      refine (hstep h s).bind fun w₁ v₁ answer h₁ => ?_
      refine (Twins.after h₁ (ih h₁.after)).bind fun w' v' answers h' => ?_
      exact .ended h' _

lemma step_twins (hosts : List Host) (depth : Nat) ⦃w v : World⦄ (h : Akin w v) (step : Step) :
    Twins w v (ProcessWide.step hosts depth w step) (ProcessWide.step hosts depth v step) := by
  -- reactions run one level deeper, so the induction is on the depth alone
  induction depth generalizing w v step with
  | zero => exact stepWith_twins (fun _ _ _ _ => .halted _) h step
  | succ depth ih => exact stepWith_twins (runWith_twins ih) h step

/-- **Processes that are akin cannot be told apart**: every execution comes to the same in both,
and shows the same. -/
theorem run_twins (hosts : List Host) (depth : Nat) : Even (run hosts depth) :=
  runWith_twins (step_twins hosts depth)

/-- An execution adds to what was observed. -/
lemma trace_run {depth : Nat} {steps : List Step} {answers : List (Outcome Answer)}
    (h : run hosts depth w steps = .ok (w', answers)) : ∃ marks, w'.trace = w.trace ++ marks := by
  have hself := run_twins hosts depth (.refl w) steps
  rw [h] at hself
  cases hself with
  | ended parallel =>
      obtain ⟨marks, htrace, -⟩ := parallel.marks
      exact ⟨marks, htrace⟩

end ScriptBinding.ProcessWide
