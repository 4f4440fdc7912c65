import ScriptBinding.Proofs.Binding.Blocks
import ScriptBinding.Proofs.ProcessWide.Progress

/-
The process as one binding state at hand.

* `Step.explicit`: what a step is on a state at hand: a block is the operations that it
  carries out.
* `Alike`: marks that differ in nothing but the way of the reports; `Step.Concludes`: how
  the answer to a step shows on a state at hand.
* `Abreast`: a step on both; `Lockstep`: a run on both, equal after every step.
* `Agrees.step`: wherever both agree, the next step can be taken on both, and they agree
  again; one lemma for each kind of step.
* `explicit_lockstep`: every run can be taken on both.
-/
namespace ScriptBinding.ProcessWide

open Binding (Session)

/-- A step as it is taken on a state at hand.  A block is the operations that it
carries out. -/
def Step.explicit (s : Binding) : Step → List Session.Step
  | .plain p => [.plain p]
  | .block steps _ => (s.carried steps).map .plain
  | .report vm message => [.report vm message]
  | .reportTypeError vm index expected => [.reportTypeError vm index expected]
  | .typeErrorText vm index expected => [.typeErrorText vm index expected]
  | .lastError vm => [.lastError vm]

/-- How what a step came to shows in what it came to on a state at hand: it is the same,
and for a block the operations tell it, but for an abort of its own. -/
def Step.Concludes : Step → Outcome Answer → List (Outcome Session.Answer) → Prop
  | .block _ ending, answer, outcomes => ∃ inner, Session.Tells inner outcomes
      ∧ answer = (endedBy ending inner).map .block
  | _, answer, outcomes => outcomes = [answer.map .answered]

/-- Marks of the process, and of a state at hand, that show the same: as many
conversions, the same messages raised in the same VM objects, and the same events, but
that a raise is told for the process by the one and for the state by the other. -/
structure Alike (marks others : List Mark) : Prop where
  conversions : Mark.conversions others = Mark.conversions marks
  raises : Mark.raises others = Mark.raises marks
  events : Mark.events others = (Mark.events marks).map (Event.through .direct)
  back : Mark.events marks = (Mark.events others).map (Event.through .processWide)

/-- One step of the process, taken on a state at hand as well. -/
def Abreast (hosts : List Host) (depth : Nat) (step : Step) (w w' : World)
    (session session' : Session) : Prop :=
  ∃ answer outcomes marks others,
    ProcessWide.step hosts (depth + 1) w step = .ok (w', answer)
    ∧ session.run (run hosts depth) hosts ((step.explicit w.cell.state).map fun st => (0, st))
      = .ok (session', outcomes)
    ∧ step.Concludes answer outcomes
    ∧ w'.trace = w.trace ++ marks ∧ session'.world.trace = session.world.trace ++ others
    ∧ Alike marks others

/-- A run of the process, taken on a state at hand as well: both come to an end, show
the same at every step, and are in the same state after it. -/
inductive Lockstep (hosts : List Host) (depth : Nat) : World → Session → List Step → Prop where
  | nil (w : World) (session : Session) : Lockstep hosts depth w session []
  | cons {w w' : World} {session session' : Session} {step : Step} {steps : List Step}
      (first : Abreast hosts depth step w w' session session')
      (state : session'.states = [w'.cell.state])
      (rest : Lockstep hosts depth w' session' steps) :
      Lockstep hosts depth w session (step :: steps)

/-- The process and a session with one state agree: the state is the same, nothing else
was raised in any VM object, and the guard is free. -/
structure Agrees (w : World) (session : Session) : Prop where
  states : session.states = [w.cell.state]
  raises : Mark.raises session.world.trace = Mark.raises w.trace
  free : w.cell.held = false

namespace Alike

lemma append {xs xs' ys ys' : List Mark} (h : Alike xs ys) (h' : Alike xs' ys') :
    Alike (xs ++ xs') (ys ++ ys') where
  conversions := by simp [h.conversions, h'.conversions]
  raises := by simp [h.raises, h'.raises]
  events := by simp [h.events, h'.events]
  back := by rw [Mark.events_append, h.back, h'.back, ← List.map_append, ← Mark.events_append]

/-- Marks that tell of no raise. -/
lemma of_events {xs ys : List Mark} (hconversions : Mark.conversions ys = Mark.conversions xs)
    (hraises : Mark.raises ys = Mark.raises xs) (hevents : Mark.events ys = Mark.events xs)
    (h : ∀ layer, (Mark.events xs).map (Event.through layer) = Mark.events xs) : Alike xs ys where
  conversions := hconversions
  raises := hraises
  events := by rw [h, hevents]
  back := by rw [hevents, h]

lemma nil : Alike [] [] :=
  .of_events rfl rfl rfl fun _ => rfl

lemma raising (vm : Nat) (handle : Handle) (text : String) :
    Alike (Mark.ofRaise .processWide vm handle text) (Mark.ofRaise .direct vm handle text) :=
  ⟨rfl, rfl, rfl, rfl⟩

end Alike

variable {hosts : List Host} {w v : World} {session : Session}

/-- The answer to a report depends on what was raised only. -/
lemma reportAnswer_congr {t t' marks others : List Mark} (hw : w.trace = t ++ marks)
    (hv : v.trace = t' ++ others) (hbefore : Mark.raises t' = Mark.raises t)
    (hmarks : Mark.raises others = Mark.raises marks) (vm : Nat) (recorded : Outcome Bool)
    (nested : List (Outcome Answer)) :
    reportAnswer v t'.length vm recorded nested = reportAnswer w t.length vm recorded nested := by
  simp only [reportAnswer, World.since, World.errorsOf, hw, hv, List.drop_left,
    Mark.filterMap_raisedIn?, Mark.raises_append, hbefore, hmarks]

lemma errorsOf_congr (h : Mark.raises v.trace = Mark.raises w.trace) (vm : Nat) :
    v.errorsOf vm = w.errorsOf vm := by
  simp only [World.errorsOf, Mark.filterMap_raisedIn?, h]

/-- Steps that ask VM objects come to the same wherever the same was raised, and leave
the process as it is. -/
lemma run_detached (depth : Nat) {steps : List Step} (h : ∀ step ∈ steps, step.Detached hosts)
    (hraises : Mark.raises v.trace = Mark.raises w.trace) :
    ∃ answers, run hosts depth w steps = .ok (w, answers)
      ∧ run hosts depth v steps = .ok (v, answers) := by
  induction steps with
  | nil => exact ⟨[], rfl, rfl⟩
  | cons step steps ih =>
      obtain ⟨answers, hw, hv⟩ := ih fun step hstep => h step (.tail _ hstep)
      have hfirst : ∃ answer, ProcessWide.step hosts depth w step = .ok (w, answer)
          ∧ ProcessWide.step hosts depth v step = .ok (v, answer) := by
        obtain ⟨react, hreact⟩ := step_eq_stepWith hosts depth
        rw [hreact]
        have hdetached := h step (.head _)
        cases step with
        | typeErrorText vm index expected =>
            refine ⟨.returned (.text (hosts[vm].vm.typeErrorText index expected)), ?_, ?_⟩ <;>
            · rw [stepWith, hostAt_of_lt hdetached]
              rfl
        | lastError vm =>
            refine ⟨.returned (.lastError (w.errorsOf vm).lastText), ?_, ?_⟩
            · rw [stepWith, hostAt_of_lt hdetached]
              rfl
            · rw [← errorsOf_congr hraises vm, stepWith, hostAt_of_lt hdetached]
              rfl
        | _ => cases hdetached
      obtain ⟨answer, hw₁, hv₁⟩ := hfirst
      refine ⟨answer :: answers, ?_, ?_⟩
      · simp only [run, runWith, bind_eq_ok]
        exact ⟨_, hw₁, _, hw, rfl⟩
      · simp only [run, runWith, bind_eq_ok]
        exact ⟨_, hv₁, _, hv, rfl⟩

section Steps

variable {depth vm start : Nat} {t t' marks others : List Mark} {host : Host}

/-- The end of a report, through the process and through a state at hand. -/
lemma conclude_alike (depth : Nat) (hhost : ∀ step ∈ host.onRaise, step.Detached hosts)
    (hw : w.trace = t ++ marks) (hv : v.trace = t' ++ others)
    (hraises : Mark.raises t' = Mark.raises t) (halike : Alike marks others) (vm : Nat)
    (text : String) (posting : Binding.Posting) :
    ∃ answer more more',
      conclude (run hosts depth) .processWide w t.length vm host text posting
        = .ok (w.observe more, answer)
      ∧ conclude (run hosts depth) .direct v t'.length vm host text posting
        = .ok (v.observe more', answer)
      ∧ Alike (marks ++ more) (others ++ more') := by
  cases hforward : posting.forward with
  | false =>
      refine ⟨.returned (reportAnswer w t.length vm (.returned posting.recorded) []), [], [],
        ?_, ?_, halike.append .nil⟩
      · rw [observe_nil, conclude_silent hforward]
      · rw [observe_nil, conclude_silent hforward, reportAnswer_congr hw hv hraises halike.raises]
  | true =>
      have hboth := halike.append (.raising vm host.vm.handle text)
      have hw' := trace_observe hw (Mark.ofRaise .processWide vm host.vm.handle text)
      have hv' := trace_observe hv (Mark.ofRaise .direct vm host.vm.handle text)
      obtain ⟨nested, hnested, hnested'⟩ := run_detached depth hhost
        (show Mark.raises (v.observe (Mark.ofRaise .direct vm host.vm.handle text)).trace
            = Mark.raises (w.observe (Mark.ofRaise .processWide vm host.vm.handle text)).trace by
          rw [hw', hv', Mark.raises_append, Mark.raises_append t, hraises, hboth.raises])
      refine ⟨.returned (reportAnswer (w.observe (Mark.ofRaise .processWide vm host.vm.handle text))
        t.length vm (endedBy host.abort (.returned posting.recorded)) nested), _, _, ?_, ?_, hboth⟩
      · rw [conclude_raising hforward, hnested]
        rfl
      · rw [conclude_raising hforward, hnested',
          ← reportAnswer_congr hw' hv' hraises hboth.raises]
        rfl

/-- What recording a text tells the log names no way of a report. -/
lemma through_post (s : Binding) (vm : Handle) (text : String) (layer : Layer) :
    (s.post vm text).2.events.map (Event.through layer) = (s.post vm text).2.events := by
  show (List.map Event.registry _).map _ = List.map Event.registry _
  rw [List.map_map]
  rfl

/-- A report of a text, through the process and through a state at hand: the one decides
under the guard what is raised after it, the other is over where the text is dropped. -/
lemma reportText_alike (depth : Nat) (hhost : ∀ step ∈ host.onRaise, step.Detached hosts)
    (hstates : session.states = [w.cell.state]) (hfree : w.cell.held = false)
    (hw : w.trace = t ++ marks) (hv : session.world.trace = t' ++ others)
    (hraises : Mark.raises t' = Mark.raises t) (halike : Alike marks others) (vm : Nat)
    (text : String) :
    ∃ w' session' answer more more',
      reportText (run hosts depth) w t.length vm host text = .ok (w', answer)
      ∧ session.reportText (run hosts depth) 0 w.cell.state t'.length vm host text
        = .ok (session', answer.map .answered)
      ∧ w'.trace = t ++ more ∧ session'.world.trace = t' ++ more' ∧ Alike more more'
      ∧ session'.states = [w'.cell.state] ∧ w'.cell.held = false := by
  obtain ⟨w₁, haccess, hstate₁, hfree₁, htrace₁⟩ := access_of_free hfree
    (·.post host.vm.handle text) (fun posting => posting.events.map Mark.logged) (fun _ => false)
  let posting := (w.cell.state.post host.vm.handle text).2
  have hposted : Alike (marks ++ posting.events.map .logged)
      (others ++ posting.events.map .logged) := by
    refine halike.append (.of_events rfl rfl rfl fun layer => ?_)
    rw [Mark.events_logged, through_post]
  have hw₁ : w₁.trace = t ++ (marks ++ posting.events.map .logged) := by
    rw [htrace₁, hw, List.append_assoc]
  have hv₁ := trace_observe hv (posting.events.map .logged)
  obtain ⟨answer, more, more', hconclude, hconclude', hboth⟩ :=
    conclude_alike depth hhost hw₁ hv₁ hraises hposted vm text posting
  refine ⟨w₁.observe more,
    ⟨session.states.set 0 (w.cell.state.post host.vm.handle text).1,
      (session.world.observe (posting.events.map .logged)).observe more'⟩,
    answer, _, _, ?_, ?_, ?_, ?_, hboth, ?_, hfree₁⟩
  · simp only [reportText, bind_eq_ok]
    exact ⟨_, haccess, hconclude⟩
  · simp only [Session.reportText_eq_conclude, bind_eq_ok]
    exact ⟨_, hconclude', rfl⟩
  · exact trace_observe hw₁ more
  · exact trace_observe hv₁ more'
  · show session.states.set 0 _ = [w₁.cell.state]
    rw [hstates, hstate₁]
    rfl

/-- The next step can be taken on both, which agree again after it. -/
def Advances (hosts : List Host) (depth : Nat) (step : Step) (w : World) (session : Session) :
    Prop :=
  ∃ w' session', Abreast hosts depth step w w' session session' ∧ Agrees w' session'

/-- Agreement goes on where both showed the same. -/
lemma Agrees.next {w' : World} {session' : Session} (h : Agrees w session)
    (hw : w'.trace = w.trace ++ marks) (hv : session'.world.trace = session.world.trace ++ others)
    (halike : Alike marks others) (hstates : session'.states = [w'.cell.state])
    (hfree : w'.cell.held = false) : Agrees w' session' where
  states := hstates
  raises := by rw [hw, hv, Mark.raises_append, Mark.raises_append, h.raises, halike.raises]
  free := hfree

lemma Agrees.getElem? (h : Agrees w session) : session.states[0]? = some w.cell.state := by
  rw [h.states]
  rfl

lemma Agrees.stateAt (h : Agrees w session) : session.stateAt 0 = .ok w.cell.state :=
  Session.stateAt_eq_ok.mpr h.getElem?

/-- A step that is one step on a state at hand, too. -/
lemma Agrees.advances {step : Step} {st : Session.Step} {w' : World} {session' : Session}
    {answer : Outcome Answer} (h : Agrees w session)
    (hstep : stepWith (run hosts depth) hosts w step = .ok (w', answer))
    (hexplicit : step.explicit w.cell.state = [st])
    (hsession : session.step (run hosts depth) hosts 0 st = .ok (session', answer.map .answered))
    (hconcludes : step.Concludes answer [answer.map .answered])
    (hw : w'.trace = w.trace ++ marks) (hv : session'.world.trace = session.world.trace ++ others)
    (halike : Alike marks others) (hstates : session'.states = [w'.cell.state])
    (hfree : w'.cell.held = false) : Advances hosts depth step w session := by
  refine ⟨w', session', ⟨answer, _, marks, others, hstep, ?_, hconcludes, hw, hv, halike⟩,
    h.next hw hv halike hstates hfree⟩
  rw [hexplicit]
  exact Session.run_singleton hsession

lemma Agrees.plain (h : Agrees w session) (hosts : List Host) (depth : Nat) (p : Binding.Step) :
    Advances hosts depth (.plain p) w session := by
  obtain ⟨w', haccess, hstate, hfree, htrace⟩ :=
    access_of_free h.free (·.step p) Mark.ofReply (·.outcome.isAborted)
  have halike : Alike (Mark.ofReply (w.cell.state.step p).2)
      (Mark.ofReply (w.cell.state.step p).2) :=
    .of_events rfl rfl rfl fun layer => by rw [Mark.events_ofReply, Binding.through_step]
  have hstates : session.states.set 0 (w.cell.state.step p).1 = [w'.cell.state] := by
    rw [h.states, hstate]
    rfl
  have hstep : stepWith (run hosts depth) hosts w (.plain p)
      = .ok (w', (w.cell.state.step p).2.outcome.map .plain) := by
    simp only [stepWith, bind_eq_ok]
    exact ⟨_, haccess, rfl⟩
  have hanswer : (w.cell.state.step p).2.outcome.map (fun a => Session.Answer.answered (.plain a))
      = ((w.cell.state.step p).2.outcome.map Answer.plain).map .answered := by
    cases (w.cell.state.step p).2.outcome <;> rfl
  have hsession := Session.step_plain (run hosts depth) hosts h.getElem? p
  rw [hanswer] at hsession
  exact h.advances hstep rfl hsession rfl htrace rfl halike hstates hfree

lemma Agrees.block (h : Agrees w session) (hosts : List Host) (depth : Nat)
    (steps : List Binding.Step) (ending : Option String) :
    Advances hosts depth (.block steps ending) w session := by
  obtain ⟨w', haccess, hstate, hfree, hw⟩ :=
    access_of_free h.free (attemptBlock steps ending) Mark.ofReply (·.outcome.isAborted)
  obtain ⟨session', outcomes, marks, hrun, hstates, hv, hconversions, hevents, hraises,
    htells⟩ := Session.run_carried (run hosts depth) hosts h.getElem? steps
  rw [attemptBlock_eq] at haccess hstate hw
  have halike : Alike (Mark.ofReply { (w.cell.state.attempt steps).2 with
      outcome := (endedBy ending (w.cell.state.attempt steps).2.outcome).map Answer.block })
      marks := by
    refine .of_events ?_ ?_ ?_ fun layer => ?_
    · rw [hconversions, Mark.conversions_ofReply]
    · rw [hraises, Mark.raises_ofReply]
    · rw [hevents, Mark.events_ofReply]
    · rw [Mark.events_ofReply, Binding.through_attempt]
  have hstates' : session'.states = [w'.cell.state] := by
    rw [hstates, h.states, hstate]
    rfl
  refine ⟨w', session', ⟨_, outcomes, _, marks, ?_, ?_, ⟨_, htells, rfl⟩, hw, hv, halike⟩,
    h.next hw hv halike hstates' hfree⟩
  · show stepWith _ _ _ _ = _
    simp only [stepWith, bind_eq_ok]
    exact ⟨_, haccess, rfl⟩
  · rw [Step.explicit, List.map_map]
    exact hrun

lemma Agrees.report (h : Agrees w session) (depth : Nat) (hvm : vm < hosts.length)
    (hhost : ∀ step ∈ hosts[vm].onRaise, step.Detached hosts) (message : Message) :
    Advances hosts depth (.report vm message) w session := by
  have hconverted : Alike [.converted] [.converted] := .of_events rfl rfl rfl fun _ => rfl
  cases message with
  | failing why =>
      have hanswer : reportAnswer (session.observe [.converted]).world session.world.trace.length vm
          (.aborted why) [] = reportAnswer (w.observe [.converted]) w.trace.length vm
          (.aborted why) [] := reportAnswer_congr rfl rfl h.raises hconverted.raises vm _ _
      have hstep : stepWith (run hosts depth) hosts w (.report vm (.failing why))
          = .ok (w.observe [.converted], .returned
            (reportAnswer (w.observe [.converted]) w.trace.length vm (.aborted why) [])) := by
        simp only [stepWith, bind_eq_ok]
        exact ⟨_, hostAt_of_lt hvm, rfl⟩
      have hsession : session.step (run hosts depth) hosts 0 (.report vm (.failing why))
          = .ok (session.observe [.converted], .returned (.answered
            (reportAnswer (w.observe [.converted]) w.trace.length vm (.aborted why) []))) := by
        rw [← hanswer]
        simp only [Session.step, bind_eq_ok]
        exact ⟨_, h.stateAt, _, hostAt_of_lt hvm, rfl⟩
      exact h.advances hstep rfl hsession rfl rfl rfl hconverted h.states h.free
  | text text =>
      have hstates : (session.observe [.converted]).states
          = [(w.observe [.converted]).cell.state] := h.states
      obtain ⟨w', session', answer, more, more', hreport, hreport', hw, hv, halike, hstates',
        hfree⟩ := reportText_alike depth hhost hstates h.free rfl rfl h.raises hconverted vm text
      have hstep : stepWith (run hosts depth) hosts w (.report vm (.text text))
          = .ok (w', answer) := by
        simp only [stepWith, bind_eq_ok]
        exact ⟨_, hostAt_of_lt hvm, hreport⟩
      have hsession : session.step (run hosts depth) hosts 0 (.report vm (.text text))
          = .ok (session', answer.map .answered) := by
        simp only [Session.step, bind_eq_ok]
        exact ⟨_, h.stateAt, _, hostAt_of_lt hvm, hreport'⟩
      exact h.advances hstep rfl hsession rfl hw hv halike hstates' hfree

lemma Agrees.reportTypeError (h : Agrees w session) (depth : Nat) (hvm : vm < hosts.length)
    (hhost : ∀ step ∈ hosts[vm].onRaise, step.Detached hosts) (index : Int64)
    (expected : String) : Advances hosts depth (.reportTypeError vm index expected) w session := by
  obtain ⟨w', session', answer, more, more', hreport, hreport', hw, hv, halike, hstates,
    hfree⟩ := reportText_alike depth hhost h.states h.free (List.append_nil _).symm
      (List.append_nil _).symm h.raises .nil vm (hosts[vm].vm.typeErrorText index expected)
  have hstep : stepWith (run hosts depth) hosts w (.reportTypeError vm index expected)
      = .ok (w', answer) := by
    simp only [stepWith, bind_eq_ok]
    exact ⟨_, hostAt_of_lt hvm, hreport⟩
  have hsession : session.step (run hosts depth) hosts 0 (.reportTypeError vm index expected)
      = .ok (session', answer.map .answered) := by
    simp only [Session.step, bind_eq_ok]
    exact ⟨_, h.stateAt, _, hostAt_of_lt hvm, hreport'⟩
  exact h.advances hstep rfl hsession rfl hw hv halike hstates hfree

/-- A question to a VM object, which leaves both as they are. -/
lemma Agrees.asks (h : Agrees w session) {step : Step} {st : Session.Step} {answer : Answer}
    (hstep : stepWith (run hosts depth) hosts w step = .ok (w, .returned answer))
    (hexplicit : step.explicit w.cell.state = [st])
    (hsession : session.step (run hosts depth) hosts 0 st
      = .ok (session, .returned (.answered answer)))
    (hconcludes : step.Concludes (.returned answer) [.returned (.answered answer)]) :
    Advances hosts depth step w session :=
  h.advances hstep hexplicit hsession hconcludes (List.append_nil _).symm (List.append_nil _).symm
    .nil h.states h.free

lemma Agrees.typeErrorText (h : Agrees w session) (depth : Nat) (hvm : vm < hosts.length)
    (index : Int64) (expected : String) :
    Advances hosts depth (.typeErrorText vm index expected) w session := by
  have hstep : stepWith (run hosts depth) hosts w (.typeErrorText vm index expected)
      = .ok (w, .returned (.text (hosts[vm].vm.typeErrorText index expected))) := by
    simp only [stepWith, bind_eq_ok]
    exact ⟨_, hostAt_of_lt hvm, rfl⟩
  refine h.asks hstep rfl ?_ rfl
  simp only [Session.step, bind_eq_ok]
  exact ⟨_, h.stateAt, _, hostAt_of_lt hvm, rfl⟩

lemma Agrees.lastError (h : Agrees w session) (depth : Nat) (hvm : vm < hosts.length) :
    Advances hosts depth (.lastError vm) w session := by
  have hstep : stepWith (run hosts depth) hosts w (.lastError vm)
      = .ok (w, .returned (.lastError (w.errorsOf vm).lastText)) := by
    simp only [stepWith, bind_eq_ok]
    exact ⟨_, hostAt_of_lt hvm, rfl⟩
  refine h.asks hstep rfl ?_ rfl
  rw [← errorsOf_congr h.raises vm]
  simp only [Session.step, bind_eq_ok]
  exact ⟨_, h.stateAt, _, hostAt_of_lt hvm, rfl⟩

/-- Whatever the process was asked before, its next step can be taken on a state at
hand that agrees with it. -/
lemma Agrees.step (hhosts : ∀ host ∈ hosts, ∀ step ∈ host.onRaise, step.Detached hosts)
    (depth : Nat) {step : Step} (hnames : step.Names hosts) (h : Agrees w session) :
    Advances hosts depth step w session := by
  cases step with
  | plain p => exact h.plain hosts depth p
  | block steps ending => exact h.block hosts depth steps ending
  | report vm message => exact h.report depth hnames (hhosts _ (List.getElem_mem hnames)) message
  | reportTypeError vm index expected =>
      exact h.reportTypeError depth hnames (hhosts _ (List.getElem_mem hnames)) index expected
  | typeErrorText vm index expected => exact h.typeErrorText depth hnames index expected
  | lastError vm => exact h.lastError depth hnames

end Steps

/-- A run that starts where both agree. -/
lemma Agrees.lockstep (hhosts : ∀ host ∈ hosts, ∀ step ∈ host.onRaise, step.Detached hosts)
    (depth : Nat) {steps : List Step} (hnames : ∀ step ∈ steps, step.Names hosts)
    (h : Agrees w session) : Lockstep hosts depth w session steps := by
  induction steps generalizing w session with
  | nil => exact .nil w session
  | cons step steps ih =>
      obtain ⟨hfirst, hrest⟩ := List.forall_mem_cons.mp hnames
      obtain ⟨w', session', habreast, h'⟩ := h.step hhosts depth hfirst
      exact .cons habreast h'.states (ih hrest h')

/-- **The process is a copy of a state at hand**: as long as no VM uses the process while
it is raised, every run of the process can be taken on a new state at hand, with each
block as the operations that it carries out.  After every step both are in the same
state, and they show the same, whoever aborted before and whether or not he held the
guard. -/
theorem explicit_lockstep (hhosts : ∀ host ∈ hosts, ∀ step ∈ host.onRaise, step.Detached hosts)
    {steps : List Step} (hnames : ∀ step ∈ steps, step.Names hosts) (depth : Nat)
    (poisoned : Bool) :
    Lockstep hosts depth ⟨⟨.initial, false, poisoned⟩, []⟩ (Session.start none) steps :=
  Agrees.lockstep hhosts depth hnames ⟨rfl, rfl, rfl⟩

/-- A VM object that only looks at itself when it is raised, and one of the same handle
that aborts. -/
def onlookers : List Host :=
  [⟨⟨.one, .typeNames ["integer"]⟩, [.lastError 0, .typeErrorText 0 1 "string"], none⟩,
    ⟨⟨.one, .typeNames []⟩, [], some "raising"⟩]

/-- Aborts of all kinds: of a conversion, of a block that threw before, inside a block,
and of a VM that is raised. -/
def abortingSteps : List Step :=
  [.plain (.throw .one (.failing "no text")), .poison .two "left behind",
    .block [.message .two, .throw .two (.failing "no text"), .enable false]
      none, .report 1 (.text "raised"), .report 0 (.text "refused"), .plain (.message .one),
    .reportTypeError 0 1 "string", .lastError 0]

theorem explicit_lockstep_aborting :
    (∀ host ∈ onlookers, ∀ step ∈ host.onRaise, step.Detached onlookers)
      ∧ (∀ step ∈ abortingSteps, step.Names onlookers)
      ∧ Lockstep onlookers 0 ⟨⟨.initial, false, true⟩, []⟩ (Session.start none) abortingSteps := by
  have hhosts : ∀ host ∈ onlookers, ∀ step ∈ host.onRaise, step.Detached onlookers := by decide
  have hnames : ∀ step ∈ abortingSteps, step.Names onlookers := by decide
  exact ⟨hhosts, hnames, explicit_lockstep hhosts hnames 0 true⟩

end ScriptBinding.ProcessWide
