import ScriptBinding.Proofs.ProcessWide.Inversion

/-
Re-entrant reports as one flat run.

* `Primitive`: a step that involves no VM object; `Primitive.run`: a list of
  them, on a binding state that stands alone.
* `Step.expand`: what a step does itself, and the reaction that follows it.
* `Expands`: the primitive steps of an execution, in the order they happen;
  `Expands.unique`, `Expands.append`.
* `valuesOf`: what an execution returned, the steps of reactions included.
* `Flattens`: an execution is the run of the primitive steps it expands to;
  `stepWith_flattens`, `runWith_flattens`.
* `run_flat`: every execution that comes to an end is.
-/
namespace ScriptBinding.ProcessWide

/-! ### Flat runs -/

/-- What a primitive step returns. -/
inductive Primitive.Value where
  | plain (answer : Binding.Answer)
  | block (answers : List Binding.Answer)
  | text (s : String)

/-- A step on a binding state that stands alone. -/
inductive Primitive where
  | plain (step : Binding.Step)
  /-- Operations that end with the first one to abort, or with an abort of
  their own. -/
  | block (steps : List Binding.Step) (ending : Option String)
  /-- Records a text, and then perhaps aborts. -/
  | record (vm : Handle) (text : String) (ending : Option String)
  /-- Comes to an outcome without the state. -/
  | settled (outcome : Outcome Primitive.Value)

namespace Primitive

/-- One primitive step: the state after it, and what it comes to. -/
def step (s : Binding) : Primitive → Binding × Outcome Value
  | plain p => ((s.step p).1, (s.step p).2.outcome.map .plain)
  | block ps ending => ((s.attempt ps).1, (endedBy ending (s.attempt ps).2.outcome).map .block)
  | record vm text ending =>
    ((s.step (.throwText vm text)).1,
      (endedBy ending (s.step (.throwText vm text)).2.outcome).map .plain)
  | settled outcome => (s, outcome)

/-- A list of primitive steps: the state after them, and what they come to. -/
def run (s : Binding) : List Primitive → Binding × List (Outcome Value)
  | [] => (s, [])
  | p :: ps =>
    let (s, outcome) := step s p
    let (s, outcomes) := run s ps
    (s, outcome :: outcomes)

lemma run_append (s : Binding) (ps qs : List Primitive) :
    run s (ps ++ qs)
      = ((run (run s ps).1 qs).1, (run s ps).2 ++ (run (run s ps).1 qs).2) := by
  induction ps generalizing s with
  | nil => rfl
  | cons p ps ih =>
      simp only [List.cons_append, run]
      rw [ih]

end Primitive

/-! ### The primitive steps of an execution -/

/-- What a report of a text does to a state: it records the text. Where it did
and the policy is on at that moment, the reaction of the VM follows, and what the
VM aborts with is the outcome. -/
def Host.expand (s : Binding) (host : Host) (text : String) : List Primitive × List Step :=
  let recorded := (s.step (.throwText host.vm.handle text)).2.outcome
    = .returned (.registry (.flag true))
  if recorded ∧ s.policy.enabled then
    ([.record host.vm.handle text host.abort], host.onRaise)
  else
    ([.record host.vm.handle text none], [])

/-- What a step does to a state itself, and the steps of a reaction that follow
at once. The last error of a VM object is left out. -/
def Step.expand (hosts : List Host) (s : Binding) : Step → Option (List Primitive × List Step)
  | .plain p => some ([.plain p], [])
  | .block ps ending => some ([.block ps ending], [])
  | .report vm message => hosts[vm]?.map fun host =>
    match message.convert with
    | .aborted why => ([.settled (.aborted why)], [])
    | .returned text => host.expand s text
  | .reportTypeError vm index expected => hosts[vm]?.map fun host =>
    host.expand s (host.vm.typeErrorText index expected)
  | .typeErrorText vm index expected => hosts[vm]?.map fun host =>
    ([.settled (.returned (.text (host.vm.typeErrorText index expected)))], [])
  | .lastError vm => hosts[vm]?.map fun _ => ([], [])

/-- The primitive steps of a list of steps from a state on, in the order in which
they happen: those of a reaction come right after the record that raised it. -/
inductive Expands (hosts : List Host) : Binding → List Step → List Primitive → Prop where
  | nil (s : Binding) : Expands hosts s [] []
  | cons {s : Binding} {step : Step} {steps reaction : List Step} {ps qs : List Primitive}
      (first : step.expand hosts s = some (ps, reaction))
      (rest : Expands hosts (Primitive.run s ps).1 (reaction ++ steps) qs) :
      Expands hosts s (step :: steps) (ps ++ qs)

variable {hosts : List Host} {s : Binding} {steps : List Step} {ps qs : List Primitive}

/-- Steps expand in one way. -/
lemma Expands.unique (h : Expands hosts s steps ps) (h' : Expands hosts s steps qs) : qs = ps := by
  induction h generalizing qs with
  | nil =>
      cases h'
      rfl
  | cons first _ ih =>
      cases h' with
      | cons first' rest' =>
          have heq := first.symm.trans first'
          cases heq
          rw [ih rest']

/-- Steps after others expand in the state that those leave. -/
lemma Expands.append {more : List Step} (h : Expands hosts s steps ps)
    (hmore : Expands hosts (Primitive.run s ps).1 more qs) :
    Expands hosts s (steps ++ more) (ps ++ qs) := by
  induction h with
  | nil => exact hmore
  | cons first _ ih =>
      rw [Primitive.run_append] at hmore
      have hrest := ih hmore
      rw [List.append_assoc] at hrest
      rw [List.append_assoc]
      exact .cons first hrest

/-! ### What an execution returned -/

mutual

/-- What a step returned, the steps of its reaction included; the last error of a
VM object is left out. -/
def Answer.values : Answer → List (Outcome Primitive.Value)
  | .plain a => [.returned (.plain a)]
  | .block as => [.returned (.block as)]
  | .report recorded _ nested _ =>
    recorded.map (fun b => .plain (.registry (.flag b))) :: valuesOf nested
  | .text s => [.returned (.text s)]
  | .lastError _ => []

/-- What a step came to. -/
def valuesOfOutcome : Outcome Answer → List (Outcome Primitive.Value)
  | .returned a => a.values
  | .aborted why => [.aborted why]

/-- What a list of steps came to. -/
def valuesOf : List (Outcome Answer) → List (Outcome Primitive.Value)
  | [] => []
  | outcome :: outcomes => valuesOfOutcome outcome ++ valuesOf outcomes

end

/-! ### Executions are flat runs -/

/-- An execution of steps that took a process to another one and returned values
is the run of the primitive steps that they expand to, and has left the guard as
it was. -/
def Flattens (hosts : List Host) (steps : List Step) (w w' : World)
    (values : List (Outcome Primitive.Value)) : Prop :=
  ∃ ps, Expands hosts w.cell.state steps ps
    ∧ Primitive.run w.cell.state ps = (w'.cell.state, values)
    ∧ w'.cell.held = w.cell.held

variable {w w₁ w' : World} {step : Step} {answer : Outcome Answer}
  {answers : List (Outcome Answer)}

lemma Flattens.nil (w : World) : Flattens hosts [] w w [] :=
  ⟨[], .nil _, rfl, rfl⟩

lemma Flattens.append {more : List Step} {values others : List (Outcome Primitive.Value)}
    (h : Flattens hosts steps w w₁ values) (hmore : Flattens hosts more w₁ w' others) :
    Flattens hosts (steps ++ more) w w' (values ++ others) := by
  obtain ⟨ps, hps, hrun, hheld⟩ := h
  obtain ⟨qs, hqs, hrun', hheld'⟩ := hmore
  have hstate : w₁.cell.state = (Primitive.run w.cell.state ps).1 := by rw [hrun]
  rw [hstate] at hqs hrun'
  refine ⟨ps ++ qs, hps.append hqs, ?_, hheld'.trans hheld⟩
  rw [Primitive.run_append, hrun', hrun]

/-- A step that does its primitive steps, and then its reaction. -/
lemma Flattens.after {reaction : List Step} {values : List (Outcome Primitive.Value)}
    (hreaction : Flattens hosts reaction w₁ w' values)
    (hexpand : step.expand hosts w.cell.state = some (ps, reaction))
    (hstate : w₁.cell.state = (Primitive.run w.cell.state ps).1)
    (hheld : w₁.cell.held = w.cell.held) :
    Flattens hosts [step] w w' ((Primitive.run w.cell.state ps).2 ++ values) := by
  obtain ⟨qs, hqs, hrun, hheld'⟩ := hreaction
  rw [hstate] at hqs hrun
  refine ⟨ps ++ qs, .cons hexpand (by rwa [List.append_nil]), ?_, hheld'.trans hheld⟩
  rw [Primitive.run_append, hrun]

/-- A step without a reaction. -/
lemma Flattens.of_quiet
    (hexpand : step.expand hosts w.cell.state = some (ps, []))
    (hstate : w'.cell.state = (Primitive.run w.cell.state ps).1)
    (hheld : w'.cell.held = w.cell.held) :
    Flattens hosts [step] w w' (Primitive.run w.cell.state ps).2 := by
  have h := (Flattens.nil w').after hexpand hstate hheld
  rwa [List.append_nil] at h

/-- An operation without a VM object. -/
lemma run_plain (s : Binding) (p : Binding.Step) :
    Primitive.run s [.plain p]
      = ((s.step p).1, valuesOfOutcome ((s.step p).2.outcome.map .plain)) := by
  simp only [Primitive.run, Primitive.step]
  cases (s.step p).2.outcome <;> rfl

/-- A block under the guard. -/
lemma run_block (s : Binding) (ps : List Binding.Step) (ending : Option String) :
    Primitive.run s [.block ps ending]
      = ((attemptBlock ps ending s).1, valuesOfOutcome (attemptBlock ps ending s).2.outcome) := by
  simp only [Primitive.run, Primitive.step, attemptBlock]
  cases (s.attempt ps).2.outcome <;> cases ending <;> rfl

/-- Recording a text. -/
lemma run_record (s : Binding) (vm : Handle) (text : String) (ending : Option String) :
    Primitive.run s [.record vm text ending]
      = ((s.post vm text).1, valuesOfOutcome (.returned
        (.report (endedBy ending (.returned (s.post vm text).2.recorded)) [] [] ""))) := by
  obtain ⟨hpost, houtcome, -⟩ := Binding.post_eq s vm text
  rw [hpost]
  simp only [Primitive.run, Primitive.step]
  rw [houtcome]
  cases ending <;> rfl

/-- Whether a reaction follows is what was decided when the text was recorded. -/
lemma Host.expand_eq (s : Binding) (host : Host) (text : String) :
    host.expand s text = if (s.post host.vm.handle text).2.forward
      then ([.record host.vm.handle text host.abort], host.onRaise)
      else ([.record host.vm.handle text none], []) := by
  obtain ⟨-, houtcome, hforward⟩ := Binding.post_eq s host.vm.handle text
  rw [Host.expand]
  rw [houtcome, hforward]
  cases (s.post host.vm.handle text).2.recorded <;> simp

/-- A way to run reactions whose executions are flat runs. -/
def Flat (hosts : List Host) (react : Reaction) : Prop :=
  ∀ ⦃w w' steps answers⦄, react w steps = .ok (w', answers) →
    Flattens hosts steps w w' (valuesOf answers)

variable {react : Reaction}

/-- A report of a text. -/
lemma reportText_flattens (hreact : Flat hosts react) {start vm : Nat} {host : Host}
    {text : String}
    (hexpand : step.expand hosts w.cell.state = some (host.expand w.cell.state text))
    (h : reportText react w start vm host text = .ok (w', answer)) :
    Flattens hosts [step] w w' (valuesOfOutcome answer) := by
  simp only [reportText, bind_eq_ok] at h
  obtain ⟨⟨w₁, posting⟩, haccess, hconclude⟩ := h
  obtain ⟨rfl, hstate, hheld⟩ := access_eq_ok haccess
  rw [Host.expand_eq] at hexpand
  rcases conclude_eq_ok hconclude with ⟨hforward, rfl, rfl⟩ | ⟨hforward, nested, hnested, rfl⟩
  · rw [if_neg (Bool.not_eq_true _ ▸ hforward)] at hexpand
    have hflat := Flattens.of_quiet hexpand (by rw [run_record, hstate]) hheld
    rwa [run_record] at hflat
  · rw [if_pos hforward] at hexpand
    have hflat := (hreact hnested).after hexpand (by rw [run_record]; exact hstate) hheld
    rwa [run_record] at hflat

/-- A step is a flat run, if reactions are. -/
lemma stepWith_flattens (hreact : Flat hosts react)
    (h : stepWith react hosts w step = .ok (w', answer)) :
    Flattens hosts [step] w w' (valuesOfOutcome answer) := by
  cases step with
  | plain p =>
      simp only [stepWith, bind_eq_ok] at h
      obtain ⟨⟨w₁, reply⟩, haccess, h⟩ := h
      cases h
      obtain ⟨rfl, hstate, hheld⟩ := access_eq_ok haccess
      have hexpand : (Step.plain p).expand hosts w.cell.state = some ([.plain p], []) := rfl
      have hflat := Flattens.of_quiet hexpand hstate hheld
      rwa [run_plain] at hflat
  | block ps ending =>
      simp only [stepWith, bind_eq_ok] at h
      obtain ⟨⟨w₁, reply⟩, haccess, h⟩ := h
      cases h
      obtain ⟨rfl, hstate, hheld⟩ := access_eq_ok haccess
      have hexpand : (Step.block ps ending).expand hosts w.cell.state
        = some ([.block ps ending], []) := rfl
      have hflat := Flattens.of_quiet hexpand hstate hheld
      rwa [run_block] at hflat
  | report vm message =>
      simp only [stepWith, bind_eq_ok] at h
      obtain ⟨host, hhost, h⟩ := h
      have hfound := hostAt_eq_ok hhost
      cases message with
      | failing why =>
          cases h
          have hexpand : (Step.report vm (.failing why)).expand hosts w.cell.state
              = some ([.settled (.aborted why)], []) := by
            rw [Step.expand, hfound]
            rfl
          exact .of_quiet hexpand rfl rfl
      | text text =>
          have hexpand : (Step.report vm (.text text)).expand hosts w.cell.state
              = some (host.expand w.cell.state text) := by
            rw [Step.expand, hfound]
            rfl
          -- the conversion leaves a mark, and the state as it is
          show Flattens hosts _ (w.observe [.converted]) w' _
          exact reportText_flattens hreact hexpand h
  | reportTypeError vm index expected =>
      simp only [stepWith, bind_eq_ok] at h
      obtain ⟨host, hhost, h⟩ := h
      refine reportText_flattens hreact ?_ h
      rw [Step.expand, hostAt_eq_ok hhost]
      rfl
  | typeErrorText vm index expected =>
      simp only [stepWith, bind_eq_ok] at h
      obtain ⟨host, hhost, h⟩ := h
      cases h
      have hexpand : (Step.typeErrorText vm index expected).expand hosts w.cell.state
          = some ([.settled (.returned (.text (host.vm.typeErrorText index expected)))], []) := by
        rw [Step.expand, hostAt_eq_ok hhost]
        rfl
      exact .of_quiet hexpand rfl rfl
  | lastError vm =>
      simp only [stepWith, bind_eq_ok] at h
      obtain ⟨host, hhost, h⟩ := h
      cases h
      have hexpand : (Step.lastError vm).expand hosts w.cell.state = some ([], []) := by
        rw [Step.expand, hostAt_eq_ok hhost]
        rfl
      exact .of_quiet hexpand rfl rfl

/-- So is a list of steps, if each of them is. -/
lemma runWith_flattens {step : World → Step → Except Halt (World × Outcome Answer)}
    (hstep : ∀ {w w' s answer}, step w s = .ok (w', answer) →
      Flattens hosts [s] w w' (valuesOfOutcome answer)) :
    Flat hosts (runWith step) := by
  intro w w' steps answers h
  induction steps generalizing w answers with
  | nil =>
      cases h
      exact .nil _
  | cons s steps ih =>
      obtain ⟨w₁, answer, rest, hfirst, hrest, rfl⟩ := runWith_cons_eq_ok h
      exact (hstep hfirst).append (ih hrest)

/-- So are executions with reactions nested to any depth. -/
lemma step_flattens (depth : Nat) {w w' : World} {s : Step} {answer : Outcome Answer}
    (h : ProcessWide.step hosts depth w s = .ok (w', answer)) :
    Flattens hosts [s] w w' (valuesOfOutcome answer) := by
  -- reactions run one level deeper, so the induction is on the depth alone
  induction depth generalizing w w' s answer with
  | zero =>
      refine stepWith_flattens ?_ h
      intro w w' steps answers hnone
      cases hnone
  | succ depth ih => exact stepWith_flattens (runWith_flattens ih) h

/-- **Re-entrant reports are one flat run**: the state that an execution ends in,
and what all of its steps return, those of reactions at any depth included, are
those of the primitive steps in the order they happened, on a binding state that
stands alone. There, a report records its text, and what the VM does follows
exactly if that was recorded while the policy was on. -/
theorem run_flat {depth : Nat} (h : run hosts depth w steps = .ok (w', answers)) :
    ∃ ps, (∀ qs, Expands hosts w.cell.state steps qs ↔ qs = ps)
      ∧ Primitive.run w.cell.state ps = (w'.cell.state, valuesOf answers)
      ∧ w'.cell.held = w.cell.held := by
  obtain ⟨ps, hps, hrun⟩ := runWith_flattens (step_flattens depth) h
  refine ⟨ps, ?_, hrun⟩
  intro qs
  constructor
  · intro hqs
    exact hps.unique hqs
  · rintro rfl
    exact hps

/-- A VM object that, when it is raised, drains itself, turns the policy off and
reports again; and one that reports to the first one, and aborts in the end. -/
def reentrant : List Host :=
  [⟨⟨⟨1, by decide⟩, .typeNames []⟩,
      [.plain (.message ⟨1, by decide⟩), .plain (.enable false), .report 0 (.text "again"),
        .plain (.setDefault ⟨2, by decide⟩)], none⟩,
    ⟨⟨⟨2, by decide⟩, .typeNames []⟩,
      [.report 0 (.text "inner"), .report 0 (.failing "no text"), .lastError 0], some "raising"⟩]

/-- A report whose VM reports to another one, flat: the second report to that one is
recorded again, and not raised, since the policy is off by then. -/
theorem run_flat_reentrant :
    ∃ w' answers, run reentrant 2 .fresh [.report 1 (.text "outer"), .plain .defaultVm]
        = .ok (w', answers)
      ∧ Primitive.run .initial
          [.record ⟨2, by decide⟩ "outer" (some "raising"), .record ⟨1, by decide⟩ "inner" none,
            .plain (.message ⟨1, by decide⟩), .plain (.enable false),
            .record ⟨1, by decide⟩ "again" none, .plain (.setDefault ⟨2, by decide⟩),
            .settled (.aborted "no text"), .plain .defaultVm]
        = (w'.cell.state, valuesOf answers) := by
  have hok : (run reentrant 2 .fresh [.report 1 (.text "outer"), .plain .defaultVm]).toBool := by
    decide +kernel
  rcases h : run reentrant 2 .fresh [.report 1 (.text "outer"), .plain .defaultVm]
    with e | ⟨w', answers⟩
  · rw [h] at hok
    cases hok
  · obtain ⟨ps, hps, hrun, -⟩ := run_flat h
    have hexpands : Expands reentrant .initial [.report 1 (.text "outer"), .plain .defaultVm]
        ([.record ⟨2, by decide⟩ "outer" (some "raising")]
          ++ ([.record ⟨1, by decide⟩ "inner" none] ++ ([.plain (.message ⟨1, by decide⟩)]
            ++ ([.plain (.enable false)] ++ ([.record ⟨1, by decide⟩ "again" none]
              ++ ([.plain (.setDefault ⟨2, by decide⟩)] ++ ([.settled (.aborted "no text")]
                ++ ([] ++ ([.plain .defaultVm] ++ []))))))))) :=
      .cons rfl (.cons rfl (.cons rfl (.cons rfl (.cons rfl (.cons rfl (.cons rfl (.cons rfl
        (.cons rfl (.nil _)))))))))
    rw [← (hps _).mp hexpands] at hrun
    exact ⟨w', answers, rfl, hrun⟩

end ScriptBinding.ProcessWide
