import ScriptBinding.Proofs.ProcessWide.Conversions

/-
Messages are converted only where they are needed, and a conversion that fails changes nothing.

* `Session.Turn.Taken.conversions`: a turn converts the messages of its attempts, and its
  reaction those of the attempts that its steps make.
* `Session.conversions_run`: so do the turns of a whole history.
* `conversion_lazy_atomic`: registries, binding states at hand and the process convert no other
  message, and none of them is changed where a conversion aborts.
-/
namespace ScriptBinding

namespace Binding.Session

open ProcessWide

variable {hosts : List Host} {depth : Nat} {session session' now next : Session} {t : Turn}

/-- The attempts of turns, and those of the steps of their reactions. -/
def offered (turns : List Turn) (nested : List (List (Binding × ProcessWide.Step))) : List Bool :=
  (turns.flatMap fun t => t.step.offers t.before) ++ nested.flatMap ProcessWide.offered

/-- A turn converts the messages of its attempts, and its reaction those of the attempts that
its steps make. -/
lemma Turn.Taken.conversions (h : t.Taken (ProcessWide.run hosts depth) hosts now next)
    (hfree : now.world.cell.held = false) :
    ∃ vs, Visits hosts t.process (t.step.reaction hosts t.before) vs
      ∧ Mark.conversions t.marks = (t.step.offers t.before).count false
        + (ProcessWide.offered vs).count false := by
  obtain ⟨w, w', nested, marks, others, hcell, hrun, -, htrace, hothers, hconversions⟩ :=
    (step_takes h.step h.before).conversions (ProcessWide.run_steady hosts depth)
  obtain ⟨vs, others', hvs, hothers', hcount, -⟩ :=
    ProcessWide.conversions_run (hcell ▸ hfree) hrun
  have hmarks : t.marks = marks := List.append_cancel_left (h.marks.symm.trans htrace)
  have hsame : others' = others := List.append_cancel_left (hothers'.symm.trans hothers)
  rw [hsame, ← List.count_false_add_count_true, Nat.add_left_inj] at hcount
  refine ⟨vs, ?_, by rw [hmarks, hconversions, hcount]⟩
  rw [h.process, ← hcell]
  exact (hvs vs).mpr rfl

lemma conversions_turns {turns : List Turn}
    (h : ∀ t ∈ turns, ∃ now next, t.Taken (ProcessWide.run hosts depth) hosts now next
      ∧ now.world.cell.held = false) :
    ∃ nested, List.Forall₂
        (fun t vs => Visits hosts t.process (t.step.reaction hosts t.before) vs) turns nested
      ∧ Mark.conversions (turns.flatMap (·.marks)) = (offered turns nested).count false := by
  induction turns with
  | nil => exact ⟨[], .nil, rfl⟩
  | cons t turns ih =>
      obtain ⟨⟨now, next, ht, hfree⟩, hturns⟩ := List.forall_mem_cons.mp h
      obtain ⟨vs, hvs, hmarks⟩ := ht.conversions hfree
      obtain ⟨nested, hnested, hcount⟩ := ih hturns
      refine ⟨vs :: nested, .cons hvs hnested, ?_⟩
      simp only [offered, List.flatMap_cons, List.count_append, Mark.conversions_append] at hcount ⊢
      omega

variable {steps : List (Nat × Step)} {answers : List (Outcome Answer)}

/-- **A history of binding states converts the messages of the attempts that are made in it**,
those of reactions included, but of those that are dropped unseen. -/
theorem conversions_run (hfree : session.world.cell.held = false)
    (h : session.run (ProcessWide.run hosts depth) hosts steps = .ok (session', answers)) :
    ∃ turns nested, session.transcript (ProcessWide.run hosts depth) hosts steps = .ok turns
      ∧ turns.map (fun t => ((t.index, t.step), t.answer)) = steps.zip answers
      ∧ List.Forall₂
        (fun t vs => Visits hosts t.process (t.step.reaction hosts t.before) vs) turns nested
      ∧ session'.world.trace = session.world.trace ++ turns.flatMap (·.marks)
      ∧ Mark.conversions (turns.flatMap (·.marks)) + (offered turns nested).count true
        = (offered turns nested).length
      ∧ session'.world.cell.held = false := by
  obtain ⟨turns, hturns, hanswers, htrace, hheld, htaken⟩ :=
    transcript_run (ProcessWide.run_steady hosts depth) h
  have hfree' : ∀ t ∈ turns, ∃ now next, t.Taken (ProcessWide.run hosts depth) hosts now next
      ∧ now.world.cell.held = false := by
    intro t ht
    obtain ⟨now, next, hnow, hheld'⟩ := htaken t ht
    exact ⟨now, next, hnow, hheld'.trans hfree⟩
  obtain ⟨nested, hnested, hcount⟩ := conversions_turns hfree'
  refine ⟨turns, nested, hturns, hanswers, hnested, htrace, ?_, hheld.trans hfree⟩
  rw [hcount, List.count_false_add_count_true]

end Binding.Session

open Binding (Session)
open ProcessWide (World Visits)

/-- **Messages are converted only where they are needed, and a conversion that fails changes
nothing**: in registries, in binding states at hand and in the process, a throw that is dropped
because the first one wins does not look at its message, every other attempt to record a message
converts it once, and where that aborts, so does the step, and nothing else happens; later steps
of the process cannot tell that it was taken.  So every history converts as many messages as it
makes attempts, but for those that are dropped unseen; and it leaves the guard free. -/
theorem conversion_lazy_atomic {κ : Type} [DecidableEq κ] :
    (∀ (r : Registry κ) (step : Registry.Step κ), r.Careful step)
    ∧ (∀ (r : Registry κ) (steps : List (Registry.Step κ)),
      ((r.run steps).2.map (·.conversions)).sum
          + ((r.turns steps).flatMap fun t => t.step.offers t.before).count true
        = ((r.turns steps).flatMap fun t => t.step.offers t.before).length)
    ∧ (∀ react hosts (session : Session) i s, session.states[i]? = some s →
      session.Careful react hosts i s)
    ∧ (∀ hosts depth (session session' : Session) steps answers,
      session.world.cell.held = false →
      session.run (ProcessWide.run hosts depth) hosts steps = .ok (session', answers) →
      ∃ turns nested, session.transcript (ProcessWide.run hosts depth) hosts steps = .ok turns
        ∧ turns.map (fun t => ((t.index, t.step), t.answer)) = steps.zip answers
        ∧ List.Forall₂
          (fun t vs => Visits hosts t.process (t.step.reaction hosts t.before) vs) turns nested
        ∧ session'.world.trace = session.world.trace ++ turns.flatMap (·.marks)
        ∧ ProcessWide.Mark.conversions (turns.flatMap (·.marks))
            + (Session.offered turns nested).count true
          = (Session.offered turns nested).length
        ∧ session'.world.cell.held = false)
    ∧ (∀ hosts depth (w : World), w.cell.held = false → ProcessWide.Careful hosts depth w)
    ∧ ∀ hosts depth (w w' : World) steps answers, w.cell.held = false →
      ProcessWide.run hosts depth w steps = .ok (w', answers) →
      ∃ vs marks, (∀ xs, Visits hosts w.cell.state steps xs ↔ xs = vs)
        ∧ w'.trace = w.trace ++ marks
        ∧ ProcessWide.Mark.conversions marks + (ProcessWide.offered vs).count true
          = (ProcessWide.offered vs).length
        ∧ w'.cell.held = false :=
  ⟨Registry.careful, Registry.conversions_run,
    fun react hosts _ _ _ hs => Session.careful react hosts hs,
    fun _ _ _ _ _ _ hfree h => Session.conversions_run hfree h,
    fun hosts depth _ hfree => ProcessWide.careful hosts depth hfree,
    fun _ _ _ _ _ _ hfree h => ProcessWide.conversions_run hfree h⟩

/-- A VM object that reports to another one and throws when it is raised, each time with a message
that cannot be converted. -/
def touchy : List ProcessWide.Host :=
  [⟨⟨.one, .typeNames []⟩,
      [.report 1 (.failing "no text"), .plain (.throw .one (.failing "unseen"))], none⟩,
    ⟨⟨.two, .typeNames []⟩, [], none⟩]

/-- A report to it, and two more attempts while its message is pending. -/
def touchySteps : List ProcessWide.Step :=
  [.report 0 (.text "first"), .plain (.throw .one (.failing "unseen")),
    .plain (.errors (.tryThrow .one (.failing "no text")))]

/-- A report to it through a state at hand, and another attempt there. -/
def touchyHistory : List (Nat × Session.Step) :=
  [(0, .report 0 (.text "first")), (0, .plain (.throw .one (.failing "unseen")))]

/-- In the process, two of five attempts are dropped unseen, and the other three are converted,
two of them in vain; after that another report fails, and nobody can tell.  With a state at hand,
one of its two attempts is dropped unseen, but none of the two that the reaction makes in the
process. -/
theorem conversion_lazy_atomic_touchy :
    (∃ w' w'' answers vs answer,
      ProcessWide.run touchy 1 .fresh touchySteps = .ok (w', answers)
      ∧ Visits touchy .initial touchySteps vs
      ∧ ProcessWide.offered vs = [false, false, true, true, false]
      ∧ ProcessWide.Mark.conversions w'.trace = 3
      ∧ ProcessWide.step touchy 1 w' (.report 1 (.failing "no text")) = .ok (w'', answer)
      ∧ ProcessWide.Interchangeable w' w'')
    ∧ ∃ x turns nested,
      (Session.start none).run (ProcessWide.run touchy 1) touchy touchyHistory = .ok x
      ∧ (Session.start none).transcript (ProcessWide.run touchy 1) touchy touchyHistory = .ok turns
      ∧ (turns.flatMap fun t => t.step.offers t.before) = [false, true]
      ∧ ProcessWide.Mark.conversions (turns.flatMap (·.marks)) = 3
      ∧ 3 + (Session.offered turns nested).count true = (Session.offered turns nested).length := by
  obtain ⟨-, -, -, hhistories, hcareful, hruns⟩ := @conversion_lazy_atomic Nat _
  constructor
  · have hok : (ProcessWide.run touchy 1 .fresh touchySteps).toBool := by decide +kernel
    rcases h : ProcessWide.run touchy 1 .fresh touchySteps with e | ⟨w', answers⟩
    · rw [h] at hok
      cases hok
    · obtain ⟨vs, marks, hvs, htrace, hcount, hheld⟩ :=
        hruns touchy 1 .fresh w' touchySteps answers rfl h
      have hvisits : Visits touchy .initial touchySteps _ :=
        .cons rfl (.cons rfl (.cons rfl (.cons rfl (.cons rfl (.nil _)))))
      obtain rfl := (hvs _).mp hvisits
      obtain ⟨w'', hstep, -, -, -, hsame⟩ := (hcareful touchy 1 w' hheld).atomic
        (.report 1 (.failing "no text")) "no text" rfl (by decide)
      have hmarks : w'.trace = marks := htrace
      refine ⟨w', w'', answers, _, _, rfl, hvisits, rfl, ?_, hstep, hsame⟩
      rw [hmarks]
      exact Nat.add_right_cancel hcount
  · obtain ⟨x, hx⟩ : ∃ x, (Session.start none).run (ProcessWide.run touchy 1) touchy touchyHistory
        = .ok x := ⟨_, rfl⟩
    obtain ⟨turns, nested, hturns, -, -, -, hcount, -⟩ :=
      hhistories touchy 1 (Session.start none) x.1 touchyHistory x.2 rfl hx
    have hthree : ProcessWide.Mark.conversions (turns.flatMap (·.marks)) = 3 := by
      cases hturns
      rfl
    rw [hthree] at hcount
    refine ⟨x, turns, nested, hx, hturns, ?_, hthree, hcount⟩
    cases hturns
    rfl

end ScriptBinding
