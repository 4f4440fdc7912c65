import ScriptBinding.Proofs.Binding.Conversions
import ScriptBinding.Proofs.ProcessWide.Chronicle
import ScriptBinding.Proofs.ProcessWide.Twins

/-
Which messages the process converts, and what a conversion that fails leaves behind.

* `Step.offers`, `Step.failure?`: the attempts that a step makes itself, and what the conversion
  of its message aborts with.
* `Interchangeable`: processes that no later step can tell apart.
* `Careful`: how the steps of the process treat the messages that they are given; `careful`: all
  of them do, wherever the guard is free.
* `Visits`: the steps of an execution, those of reactions included, each with the state that it
  found; `conversions_run`: they convert the messages of their attempts.
* `run_steady`: executions add to what was observed, and leave the guard as it was.
-/
namespace ScriptBinding.ProcessWide

/-- The attempts that a step makes itself, each as whether it is dropped unseen: those of a block
are the attempts of the operations that it carries out. -/
def Step.offers (s : Binding) : Step → List Bool
  | .plain p => p.offers s
  | .block ps _ => (deedsOf s (s.carried ps)).flatMap fun d => d.step.offers d.before
  | .report _ _ => [false]
  | _ => []

/-- What the conversion of the message aborts with, where a step that is no block converts
one. -/
def Step.failure? (s : Binding) : Step → Option String
  | .plain p => p.failure? s
  | .report _ (.failing why) => some why
  | _ => none

/-- How such a step ends: it aborts, a report with nothing raised in its VM. -/
def Step.failed (w : World) (why : String) : Step → Outcome Answer
  | .report vm _ => .returned (.report (.aborted why) [] [] (w.errorsOf vm).lastText)
  | _ => .aborted why

/-- Two processes that no later step can tell apart: whatever is asked of them, both answer and
show the same. -/
def Interchangeable (w v : World) : Prop :=
  ∀ hosts depth steps, Twins w v (run hosts depth w steps) (run hosts depth v steps)

/-- How the steps of a process treat the messages that they are given. -/
structure Careful (hosts : List Host) (depth : Nat) (w : World) : Prop where
  /-- A throw while a message is pending, where the first one wins, does not look at it. -/
  dropped : ∀ p vm m, p.given? = some (.throw vm m) → w.cell.state.errors.isPending vm = true →
    w.cell.state.errors.mode = .firstWins → step hosts depth w (.plain p)
      = .ok (w.observe [.logged (.registry (.dropped vm))],
        .returned (.plain (.registry (.flag false))))
  /-- Where a conversion aborts, so does the step, and nothing else happens, now or later. -/
  atomic : ∀ s why, s.failure? w.cell.state = some why → s.Names hosts →
    ∃ w', step hosts depth w s = .ok (w', s.failed w why) ∧ w'.cell.state = w.cell.state
      ∧ w'.cell.held = false ∧ w'.trace = w.trace ++ [.converted] ∧ Interchangeable w w'
  /-- In a block, what the operations before did stays done, and nothing else happens. -/
  block : ∀ ps p qs ending as why, (w.cell.state.attempt ps).2.outcome = .returned as →
    p.failure? (w.cell.state.attempt ps).1 = some why →
    ∃ w₁ w₂ marks others, step hosts depth w (.block ps none) = .ok (w₁, .returned (.block as))
      ∧ step hosts depth w (.block (ps ++ p :: qs) ending) = .ok (w₂, .aborted why)
      ∧ w₁.trace = w.trace ++ marks ∧ w₂.trace = w.trace ++ others
      ∧ Mark.conversions others = Mark.conversions marks + 1
      ∧ Mark.events others = Mark.events marks ∧ Mark.raises others = []
      ∧ w₂.cell.state = w₁.cell.state ∧ w₂.cell.held = false ∧ Interchangeable w₁ w₂

/-- The steps of an execution from a state on, in the order in which they are taken, each with
the state that it found: those of a reaction come right after the report that it answers. -/
inductive Visits (hosts : List Host) :
    Binding → List Step → List (Binding × Step) → Prop where
  | nil (s : Binding) : Visits hosts s [] []
  | cons {s : Binding} {step : Step} {steps reaction : List Step} {ps : List Primitive}
      {vs : List (Binding × Step)} (first : step.expand hosts s = some (ps, reaction))
      (rest : Visits hosts (Primitive.run s ps).1 (reaction ++ steps) vs) :
      Visits hosts s (step :: steps) ((s, step) :: vs)

/-- The attempts that steps make. -/
def offered (vs : List (Binding × Step)) : List Bool :=
  vs.flatMap fun v => v.2.offers v.1

variable {hosts : List Host} {depth : Nat} {w v w₁ w' : World} {s : Binding} {step : Step}
  {steps left : List Step} {ps : List Primitive} {xs vs : List (Binding × Step)}
  {answer : Outcome Answer} {answers : List (Outcome Answer)} {why : String}

/-! ### A conversion that fails -/

lemma Akin.interchangeable (h : Akin w v) : Interchangeable w v :=
  fun hosts depth steps => run_twins hosts depth h steps

/-- A step whose message cannot be converted. -/
lemma step_failing (depth : Nat) (hfree : w.cell.held = false)
    (hwhy : step.failure? w.cell.state = some why) (hnames : step.Names hosts) :
    ∃ w', ProcessWide.step hosts depth w step = .ok (w', step.failed w why)
      ∧ w'.cell.state = w.cell.state ∧ w'.cell.held = false
      ∧ w'.trace = w.trace ++ [.converted] := by
  obtain ⟨react, hreact⟩ := step_eq_stepWith hosts depth
  rw [hreact]
  cases step with
  | plain p =>
      obtain ⟨w', haccess, hstate, hheld, htrace⟩ :=
        access_of_free hfree (·.step p) Mark.ofReply (·.outcome.isAborted)
      rw [Binding.step_failing hwhy] at haccess hstate htrace
      refine ⟨w', ?_, hstate, hheld, htrace⟩
      rw [stepWith, haccess]
      rfl
  | report vm message =>
      cases message with
      | text => cases hwhy
      | failing why' =>
          cases hwhy
          refine ⟨w.observe [.converted], ?_, rfl, hfree, rfl⟩
          rw [stepWith, hostAt_of_lt hnames, Step.failed, ← reportAnswer_converted]
          rfl
  | _ => cases hwhy

/-- A block with an operation whose message cannot be converted. -/
lemma attempt_failing {before after : List Binding.Step} {p : Binding.Step}
    {as : List Binding.Answer} (h : (s.attempt before).2.outcome = .returned as)
    (hp : p.failure? (s.attempt before).1 = some why) :
    s.attempt (before ++ p :: after) = ((s.attempt before).1,
      ⟨.aborted why, (s.attempt before).2.conversions + 1, (s.attempt before).2.events⟩) := by
  induction before generalizing s as with
  | nil =>
      have hstep : s.step p = (s, { outcome := .aborted why, conversions := 1 }) :=
        Binding.step_failing hp
      have houtcome : (s.step p).2.outcome = .aborted why := by rw [hstep]
      rw [List.nil_append, Binding.attempt_aborted houtcome, hstep]
      rfl
  | cons first before ih =>
      cases houtcome : (s.step first).2.outcome with
      | aborted why' =>
          rw [Binding.attempt_aborted houtcome] at h
          cases h
      | returned a =>
          rw [Binding.attempt_returned houtcome] at h hp
          cases hrest : ((s.step first).1.attempt before).2.outcome with
          | aborted why' =>
              rw [hrest] at h
              cases h
          | returned as' =>
              rw [List.cons_append, Binding.attempt_returned houtcome,
                Binding.attempt_returned houtcome, ih hrest hp]
              rfl

/-- An operation that returns, and leaves the state as it is, is observed and nothing else. -/
lemma access_eq_observe {β : Type} {b : β} (hfree : w.cell.held = false)
    {operate : Binding → Binding × β} (marks : β → List Mark) {aborts : β → Bool}
    (hkept : operate w.cell.state = (w.cell.state, b)) (hreturned : aborts b = false) :
    w.access operate marks aborts = .ok (w.observe (marks b), b) := by
  rcases w with ⟨⟨state, held, poisoned⟩, trace⟩
  cases hfree
  simp only [World.access, Cell.lock?, Bool.false_eq_true, if_false]
  rw [hkept]
  simp only [Cell.unlock, hreturned, Bool.or_false]
  rfl

/-- **The steps of a process are careful with the messages that they are given.** -/
theorem careful (hosts : List Host) (depth : Nat) (hfree : w.cell.held = false) :
    Careful hosts depth w where
  dropped := by
    intro p vm m hgiven hpending hmode
    obtain ⟨react, hreact⟩ := step_eq_stepWith hosts depth
    rw [hreact, stepWith, access_eq_observe hfree Mark.ofReply
      (Binding.step_unseen hgiven hpending hmode) rfl]
    rfl
  atomic := by
    intro step why hwhy hnames
    obtain ⟨w', hstep, hstate, hheld, htrace⟩ := step_failing depth hfree hwhy hnames
    refine ⟨w', hstep, hstate, hheld, htrace,
      Akin.interchangeable ⟨hstate, hheld.trans hfree.symm, ?_⟩⟩
    rw [htrace, Mark.raises_append]
    exact List.append_nil _
  block := by
    intro before p after ending as why hbefore hwhy
    obtain ⟨react, hreact⟩ := step_eq_stepWith hosts depth
    rw [hreact]
    obtain ⟨w₁, haccess₁, hstate₁, hheld₁, htrace₁⟩ := access_of_free hfree
      (attemptBlock before none) Mark.ofReply (·.outcome.isAborted)
    obtain ⟨w₂, haccess₂, hstate₂, hheld₂, htrace₂⟩ := access_of_free hfree
      (attemptBlock (before ++ p :: after) ending) Mark.ofReply (·.outcome.isAborted)
    rw [attemptBlock_eq, hbefore] at haccess₁ hstate₁ htrace₁
    rw [attemptBlock_eq, attempt_failing hbefore hwhy] at haccess₂ hstate₂ htrace₂
    have hstate : w₂.cell.state = w₁.cell.state := hstate₂.trans hstate₁.symm
    refine ⟨w₁, w₂, _, _, ?_, ?_, htrace₁, htrace₂, ?_, ?_, Mark.raises_ofReply _, hstate, hheld₂,
      Akin.interchangeable ⟨hstate, hheld₂.trans hheld₁.symm, ?_⟩⟩
    · rw [stepWith, haccess₁]
      rfl
    · rw [stepWith, haccess₂]
      cases ending <;> rfl
    · rw [Mark.conversions_ofReply, Mark.conversions_ofReply]
    · rw [Mark.events_ofReply, Mark.events_ofReply]
    · rw [htrace₁, htrace₂, Mark.raises_append, Mark.raises_append, Mark.raises_ofReply,
        Mark.raises_ofReply]

/-! ### Conversions of a step -/

/-- A block converts the messages of the attempts that it carries out. -/
lemma conversions_attempt (s : Binding) (ps : List Binding.Step) :
    (s.attempt ps).2.conversions = ((Step.block ps none).offers s).count false := by
  induction ps generalizing s with
  | nil => rfl
  | cons p ps ih =>
      have hp := Binding.conversions_step s p
      rw [Step.offers, Binding.carried]
      cases houtcome : (s.step p).2.outcome with
      | aborted why =>
          rw [Binding.attempt_aborted houtcome]
          simpa [Outcome.isAborted, deedsOf] using hp
      | returned a =>
          rw [Binding.attempt_returned houtcome]
          simp only [Outcome.isAborted, Bool.false_eq_true, if_false, deedsOf, List.flatMap_cons,
            List.count_append]
          rw [hp, ih]
          rfl

/-- A report of a text converts nothing more, its reaction put off. -/
lemma reportText_pause {start vm : Nat} {host : Host} {text : String}
    (h : reportText pause w start vm host text = .ok (w', answer)) :
    ∃ marks, w'.trace = w.trace ++ marks ∧ Mark.conversions marks = 0 := by
  simp only [reportText, bind_eq_ok] at h
  obtain ⟨⟨w₁, posting⟩, haccess, hconclude⟩ := h
  have htrace := access_trace haccess
  rcases conclude_eq_ok hconclude with ⟨-, rfl, -⟩ | ⟨-, nested, hnested, -⟩
  · exact ⟨_, htrace, Mark.conversions_logged _⟩
  · rw [observe_observe] at hnested
    cases hnested
    refine ⟨_, trace_observe htrace _, ?_⟩
    rw [Mark.conversions_append, Mark.conversions_logged]
    rfl

/-- A step converts the messages of the attempts that it makes itself, its reaction put off. -/
lemma stepWith_pause (h : stepWith pause hosts w step = .ok (w', answer)) :
    ∃ marks, w'.trace = w.trace ++ marks
      ∧ Mark.conversions marks = (step.offers w.cell.state).count false := by
  cases step with
  | plain p =>
      simp only [stepWith, bind_eq_ok] at h
      obtain ⟨⟨w₁, reply⟩, haccess, h⟩ := h
      cases h
      obtain ⟨rfl, -⟩ := access_eq_ok haccess
      refine ⟨_, access_trace haccess, ?_⟩
      rw [Mark.conversions_ofReply]
      exact Binding.conversions_step _ p
  | block ps ending =>
      simp only [stepWith, bind_eq_ok] at h
      obtain ⟨⟨w₁, reply⟩, haccess, h⟩ := h
      cases h
      obtain ⟨rfl, -⟩ := access_eq_ok haccess
      refine ⟨_, access_trace haccess, ?_⟩
      rw [Mark.conversions_ofReply, attemptBlock_eq]
      exact conversions_attempt _ ps
  | report vm message =>
      simp only [stepWith, bind_eq_ok] at h
      obtain ⟨host, -, h⟩ := h
      cases message with
      | failing why =>
          cases h
          exact ⟨_, rfl, rfl⟩
      | text text =>
          obtain ⟨marks, htrace, hmarks⟩ := reportText_pause h
          refine ⟨.converted :: marks, htrace.trans (List.append_assoc ..), ?_⟩
          exact (Mark.conversions_append [.converted] marks).trans (congrArg (1 + ·) hmarks)
  | reportTypeError vm index expected =>
      simp only [stepWith, bind_eq_ok] at h
      obtain ⟨host, -, h⟩ := h
      exact reportText_pause h
  | typeErrorText | lastError =>
      simp only [stepWith, bind_eq_ok] at h
      obtain ⟨host, -, h⟩ := h
      cases h
      exact ⟨[], (List.append_nil _).symm, rfl⟩

/-! ### Conversions of an execution -/

/-- The steps of an execution are determined. -/
lemma Visits.unique (h : Visits hosts s steps vs) (h' : Visits hosts s steps xs) : xs = vs := by
  induction h generalizing xs with
  | nil =>
      cases h'
      rfl
  | cons first _ ih =>
      cases h' with
      | cons first' rest' =>
          have heq := first.symm.trans first'
          cases heq
          rw [ih rest']

/-- When nothing is left of an execution, it converted the messages of the attempts that its
steps made. -/
lemma Unrolls.conversions (h : Unrolls hosts w steps ps w' left) (hfree : w.cell.held = false)
    (hleft : left = []) :
    ∃ vs marks, Visits hosts w.cell.state steps vs ∧ w'.trace = w.trace ++ marks
      ∧ Mark.conversions marks = (offered vs).count false := by
  induction h with
  | start w steps =>
      subst hleft
      exact ⟨[], [], .nil _, (List.append_nil _).symm, rfl⟩
  | next first expand _ ih =>
      obtain ⟨-, hstate, hfree₁, -, -⟩ := Step.opens_of_pause hfree first expand
      obtain ⟨marks, htrace, hmarks⟩ := stepWith_pause first
      obtain ⟨vs, others, hvs, htrace', hothers⟩ := ih hfree₁ hleft
      refine ⟨_, marks ++ others, .cons expand (hstate ▸ hvs), ?_, ?_⟩
      · rw [htrace', htrace, List.append_assoc]
      · rw [Mark.conversions_append, hmarks, hothers, offered, offered, List.flatMap_cons,
          List.count_append]

/-- **An execution converts the messages of the attempts that its steps make**, those of
reactions included, but of those that are dropped unseen. -/
theorem conversions_run (hfree : w.cell.held = false)
    (h : run hosts depth w steps = .ok (w', answers)) :
    ∃ vs marks, (∀ xs, Visits hosts w.cell.state steps xs ↔ xs = vs)
      ∧ w'.trace = w.trace ++ marks
      ∧ Mark.conversions marks + (offered vs).count true = (offered vs).length
      ∧ w'.cell.held = false := by
  obtain ⟨ps, hps⟩ := run_unrolls hfree h
  obtain ⟨vs, marks, hvs, htrace, hmarks⟩ := hps.conversions hfree rfl
  refine ⟨vs, marks, fun xs => ⟨hvs.unique, fun hxs => hxs ▸ hvs⟩, htrace, ?_,
    (hps.chronicled hfree).2.1⟩
  rw [hmarks, List.count_false_add_count_true]

/-- Executions add to what was observed, and leave the guard as it was. -/
lemma run_steady (hosts : List Host) (depth : Nat) :
    Binding.Session.Steady (run hosts depth) hosts := by
  intro host _ w w' nested h
  obtain ⟨-, -, -, hheld⟩ := run_flat h
  exact ⟨trace_run h, hheld⟩

end ScriptBinding.ProcessWide
