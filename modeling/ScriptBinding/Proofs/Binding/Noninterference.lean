import ScriptBinding.Proofs.Binding.Effects
import ScriptBinding.Proofs.ProcessWide.Conversions

/-
VMs cannot interfere with binding states at hand, nor these with the process.

* `Step.Agree`, `Step.Answers.agree`: what a step answers depends on the handles and stacks of
  VM objects; besides, it tells at most that a VM aborted.
* `Step.Confined`: what a step does to the process, its reaction does.
* `Beside`: a history taken twice, with VM objects that react in different ways.
* `reactions`, `flattens_reactions`: what a history does to the process is what the reactions
  that it calls for do, one after the other.
* `host_noninterference`: whatever VMs do when they are raised, states and answers are the same.
-/
namespace ScriptBinding.Binding.Session

open ProcessWide

/-- Two answers to a step that differ at most in what the VM objects did.  Reports tell
whether they were recorded, unless the VM aborted when it was raised. -/
def Step.Agree (hosts hosts' : List Host) : Step → Outcome Answer → Outcome Answer → Prop
  | .report _ (.failing why), answer, answer' =>
    Reports (.aborted why) answer ∧ Reports (.aborted why) answer'
  | .report vm (.text _), answer, answer' | .reportTypeError vm _ _, answer, answer' =>
    ∃ host host' pending, hosts[vm]? = some host ∧ hosts'[vm]? = some host'
      ∧ Recorded host pending answer ∧ Recorded host' pending answer'
  | .lastError _, answer, answer' => ∃ m m', answer = .returned (.answered (.lastError m))
      ∧ answer' = .returned (.answered (.lastError m'))
  | _, answer, answer' => answer' = answer

/-- What a step on a state does to the process, its reaction does: it runs in the process as
it was, and what it leaves stays. -/
def Step.Confined (hosts : List Host) (depth : Nat) (s : Binding) (step : Step)
    (before after : World) : Prop :=
  ∃ w w' nested, w.cell = before.cell
    ∧ ProcessWide.run hosts depth w (step.reaction hosts s) = .ok (w', nested)
    ∧ after.cell = w'.cell

/-- A history taken twice, with VM objects that react in different ways: before and after each
step both have the same states, its answers agree, and it does nothing to the processes but
what its reactions do. -/
inductive Beside (hosts hosts' : List Host) (depth depth' : Nat) :
    Session → Session → List (Nat × Step) → Prop where
  | nil {session session' : Session} (states : session'.states = session.states) :
      Beside hosts hosts' depth depth' session session' []
  | cons {session session' next next' : Session} {i : Nat} {s : Binding} {step : Step}
      {answer answer' : Outcome Answer} {steps : List (Nat × Step)}
      (states : session'.states = session.states) (found : session.states[i]? = some s)
      (first : session.step (ProcessWide.run hosts depth) hosts i step = .ok (next, answer))
      (first' : session'.step (ProcessWide.run hosts' depth') hosts' i step
        = .ok (next', answer'))
      (agree : step.Agree hosts hosts' answer answer')
      (confined : step.Confined hosts depth s session.world next.world)
      (confined' : step.Confined hosts' depth' s session'.world next'.world)
      (rest : Beside hosts hosts' depth depth' next next' steps) :
      Beside hosts hosts' depth depth' session session' ((i, step) :: steps)

variable {hosts hosts' : List Host} {depth depth' n i : Nat} {s : Binding} {step : Step}
  {session session' next last last' : Session} {steps : List (Nat × Step)}
  {answer answer' : Outcome Answer} {answers answers' : List (Outcome Answer)}

/-! ### One step, twice -/

/-- A report that came to what was decided when its text was posted. -/
lemma Reports.recorded {host : Host} {text : String}
    (h : Reports (s.reportOutcome host text) answer) :
    Recorded host (s.errors.peek host.vm.handle) answer := by
  obtain ⟨raised, nested, last, rfl⟩ := h
  refine ⟨_, raised, nested, last, rfl, ?_⟩
  have hrecorded := recorded_post s host.vm.handle text
  rw [reportOutcome, hrecorded]
  cases hforward : (s.post host.vm.handle text).2.forward with
  | false => exact .inl rfl
  | true =>
      cases habort : host.abort with
      | none => exact .inl rfl
      | some why =>
          refine .inr ⟨?_, why, rfl, rfl⟩
          rw [← Option.isNone_iff_eq_none, ← hrecorded]
          exact (Bool.and_eq_true_iff.mp hforward).1

/-- Answers to one step, but for what the VM objects did. -/
lemma Step.Answers.agree (hvms : hosts'.map (·.vm) = hosts.map (·.vm))
    (h : step.Answers hosts n s answer)
    (h' : step.Answers hosts' n s answer') : step.Agree hosts hosts' answer answer' := by
  cases step with
  | plain p => exact h'.trans h.symm
  | report vm message =>
      cases message with
      | failing why => exact ⟨h, h'⟩
      | text text =>
          obtain ⟨host, hhost, hreports⟩ := h
          obtain ⟨host', hhost', hreports'⟩ := h'
          have hrecorded := hreports'.recorded
          rw [getElem?_congr hvms hhost hhost'] at hrecorded
          exact ⟨host, host', _, hhost, hhost', hreports.recorded, hrecorded⟩
  | reportTypeError vm index expected =>
      obtain ⟨host, hhost, hreports⟩ := h
      obtain ⟨host', hhost', hreports'⟩ := h'
      have hrecorded := hreports'.recorded
      rw [getElem?_congr hvms hhost hhost'] at hrecorded
      exact ⟨host, host', _, hhost, hhost', hreports.recorded, hrecorded⟩
  | typeErrorText vm index expected =>
      obtain ⟨host, hhost, rfl⟩ := h
      obtain ⟨host', hhost', rfl⟩ := h'
      show Outcome.returned (Answer.answered (.text (host'.vm.typeErrorText index expected))) = _
      rw [getElem?_congr hvms hhost hhost']
  | lastError vm =>
      obtain ⟨m, rfl⟩ := h
      obtain ⟨m', rfl⟩ := h'
      exact ⟨m, m', rfl, rfl⟩
  | fork | create => exact h'.trans h.symm

/-! ### The process -/

/-- A step does nothing to the process but what its reaction does. -/
lemma step_confined
    (h : session.step (ProcessWide.run hosts depth) hosts i step = .ok (next, answer))
    (hs : session.states[i]? = some s) :
    step.Confined hosts depth s session.world next.world := by
  obtain ⟨w, w', nested, -, -, hcell, hrun, hcell', -⟩ :=
    (step_takes h hs).conversions (run_steady hosts depth)
  exact ⟨w, w', nested, hcell, hrun, hcell'⟩

/-- The reactions that a history calls for, from given states on. -/
def reactions (hosts : List Host) : List Binding → List (Nat × Step) → List ProcessWide.Step
  | _, [] => []
  | states, (i, step) :: steps => match states[i]? with
    | some s => step.reaction hosts s
        ++ reactions hosts (states.set i (step.after hosts s) ++ step.added s) steps
    | none => []

/-- Executions are flat runs whatever else was observed. -/
lemma flattens_congr {w v w' v' : World} {nested : List ProcessWide.Step}
    {values : List (Outcome Primitive.Value)} (h : Flattens hosts nested w w' values)
    (hcell : w.cell = v.cell) (hcell' : v'.cell = w'.cell) : Flattens hosts nested v v' values := by
  rw [Flattens, hcell', ← hcell]
  exact h

/-- **What a history does to the process** is what the reactions that it calls for do, one
after the other; where it calls for none, it does nothing. -/
lemma flattens_reactions
    (h : session.run (ProcessWide.run hosts depth) hosts steps = .ok (last, answers)) :
    (∃ values, Flattens hosts (reactions hosts session.states steps) session.world last.world
        values)
      ∧ (reactions hosts session.states steps = [] → last.world.cell = session.world.cell) := by
  induction steps generalizing session answers with
  | nil =>
      cases h
      exact ⟨⟨[], .nil _⟩, fun _ => rfl⟩
  | cons x steps ih =>
      obtain ⟨i, step⟩ := x
      obtain ⟨next, answer, rest, hstep, hrest, -⟩ := run_cons_eq_ok h
      obtain ⟨s, hs, -⟩ := step_cases hstep
      obtain ⟨w, w', nested, hcell, hrun, hcell'⟩ := step_confined hstep hs
      obtain ⟨⟨values, hflat⟩, hquiet⟩ := ih hrest
      rw [(step_effect hstep hs).1] at hflat hquiet
      simp only [reactions, hs]
      refine ⟨⟨_, (flattens_congr (runWith_flattens (step_flattens depth) hrun) hcell
        hcell').append hflat⟩, fun hnone => ?_⟩
      obtain ⟨hnone₁, hnone₂⟩ := List.append_eq_nil_iff.mp hnone
      rw [hnone₁] at hrun
      cases hrun
      exact (hquiet hnone₂).trans (hcell'.trans hcell)

/-! ### Histories, twice -/

/-- Two runs of one history go side by side. -/
lemma beside_run (hvms : hosts'.map (·.vm) = hosts.map (·.vm))
    (hstates : session'.states = session.states)
    (h : session.run (ProcessWide.run hosts depth) hosts steps = .ok (last, answers))
    (h' : session'.run (ProcessWide.run hosts' depth') hosts' steps = .ok (last', answers')) :
    Beside hosts hosts' depth depth' session session' steps ∧ last'.states = last.states := by
  induction steps generalizing session session' answers answers' with
  | nil =>
      cases h
      cases h'
      exact ⟨.nil hstates, hstates⟩
  | cons x steps ih =>
      obtain ⟨i, step⟩ := x
      obtain ⟨next, answer, rest, hstep, hrest, -⟩ := run_cons_eq_ok h
      obtain ⟨next', answer', rest', hstep', hrest', -⟩ := run_cons_eq_ok h'
      obtain ⟨s, hs, -⟩ := step_cases hstep
      have hs' : session'.states[i]? = some s := hstates ▸ hs
      obtain ⟨hnext, hanswers⟩ := step_effect hstep hs
      obtain ⟨hnext', hanswers'⟩ := step_effect hstep' hs'
      have hstates' : next'.states = next.states := by
        rw [hnext', hnext, hstates, step.after_congr hvms]
      rw [hstates] at hanswers'
      obtain ⟨hbeside, hlast⟩ := ih hstates' hrest hrest'
      exact ⟨.cons hstates hs hstep hstep' (hanswers.agree hvms hanswers')
        (step_confined hstep hs) (step_confined hstep' hs') hbeside, hlast⟩

/-- **VMs cannot interfere with binding states at hand**: whenever a history is taken twice,
with VM objects of the same handles and stacks that do whatever they like when they are raised,
the states are the same before and after each step, and so is each answer, but for the last
error of a VM, and for the abort of a VM in place of the answer that a report was recorded.  In
turn, a history does nothing to the process but what the reactions that it calls for do. -/
theorem host_noninterference (hvms : hosts'.map (·.vm) = hosts.map (·.vm))
    (hstates : session'.states = session.states)
    (h : session.run (ProcessWide.run hosts depth) hosts steps = .ok (last, answers))
    (h' : session'.run (ProcessWide.run hosts' depth') hosts' steps = .ok (last', answers')) :
    Beside hosts hosts' depth depth' session session' steps
      ∧ last'.states = last.states
      ∧ (∃ values, Flattens hosts (reactions hosts session.states steps) session.world last.world
        values)
      ∧ (reactions hosts session.states steps = [] → last.world.cell = session.world.cell) := by
  obtain ⟨hbeside, hlast⟩ := beside_run hvms hstates h h'
  obtain ⟨hflat, hquiet⟩ := flattens_reactions h
  exact ⟨hbeside, hlast, hflat, hquiet⟩

/-- A VM object that, when it is raised, throws in the process, turns its policy off and
reports to itself there, and then aborts. -/
def meddling : List Host :=
  [⟨⟨.one, .typeNames ["integer"]⟩,
    [.plain (.throw .two (.text "from inside")), .plain (.enable false), .report 0 (.text "again")],
    some "raising"⟩]

/-- The same VM object, if it does nothing. -/
def harmless : List Host :=
  [⟨⟨.one, .typeNames ["integer"]⟩, [], none⟩]

/-- Reports before and after a check, through a state and a copy of it. -/
def meddledSteps : List (Nat × Step) :=
  [(0, .report 0 (.text "first")), (0, .report 0 (.text "dropped")), (0, .fork),
    (1, .plain (.check .one)), (1, .report 0 (.text "second")), (0, .report 0 (.failing "no text"))]

/-- The process differs in the end, the states do not. -/
theorem host_noninterference_meddling :
    harmless.map (·.vm) = meddling.map (·.vm)
      ∧ ∃ x y, (start none).run (ProcessWide.run meddling 2) meddling meddledSteps = .ok x
      ∧ (start none).run (ProcessWide.run harmless 0) harmless meddledSteps = .ok y
      ∧ x.1.world.cell.state.errors.peek .two = some "from inside"
      ∧ y.1.world.cell.state.errors.peek .two = none
      ∧ Beside meddling harmless 2 0 (start none) (start none) meddledSteps
      ∧ y.1.states = x.1.states := by
  have hvms : harmless.map (·.vm) = meddling.map (·.vm) := rfl
  have hpeek : ((start none).run (ProcessWide.run meddling 2) meddling meddledSteps).toOption.map
      (·.1.world.cell.state.errors.peek .two) = some (some "from inside") := by decide +kernel
  obtain ⟨y, hy⟩ : ∃ y, (start none).run (ProcessWide.run harmless 0) harmless meddledSteps
      = .ok y := ⟨_, rfl⟩
  rcases hx : (start none).run (ProcessWide.run meddling 2) meddling meddledSteps with e | x
  · rw [hx] at hpeek
    cases hpeek
  · rw [hx] at hpeek
    obtain ⟨hbeside, hlast, -⟩ := host_noninterference hvms rfl hx hy
    refine ⟨hvms, x, y, rfl, hy, Option.some_inj.mp hpeek, ?_, hbeside, hlast⟩
    cases hy
    rfl

end ScriptBinding.Binding.Session
