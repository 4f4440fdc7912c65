import ScriptBinding.Proofs.Binding.Blocks
import ScriptBinding.Proofs.Binding.Ledger
import ScriptBinding.Proofs.ProcessWide.Progress

/-
Sessions, step by step, with all that was observed of each step.

* `Step.target?`, `Step.converted`: the VM object that a step reports to, and the mark of the
  conversion that a report begins with.
* `Takes`: what a step does to the session; `step_takes`: there is nothing else.
* `Turn`, `Session.transcript`: a history step by step, as in a journal, but with the steps
  on all states and what was observed of each.
* `Steady`: reactions add to what was observed, and leave the guard as it was; `Quiet`: there
  are none.
* `transcript_run`: a history that came to an end has a transcript, which tells all that was
  observed.
-/
namespace ScriptBinding.Binding.Session

open ProcessWide

/-- The VM object that a step reports to. -/
def Step.target? : Step → Option Nat
  | .report vm _ | .reportTypeError vm _ _ => some vm
  | _ => none

/-- What is observed of a report before anything is recorded: its message is converted. -/
def Step.converted : Step → List Mark
  | .report _ _ => [.converted]
  | _ => []

variable {react : Reaction} {hosts : List Host} {session session' : Session} {i : Nat}
  {s : Binding} {step : Step} {answer : Outcome Answer}

lemma events_converted (step : Step) : Mark.events step.converted = [] := by
  cases step <;> rfl

lemma raises_converted (step : Step) : Mark.raises step.converted = [] := by
  cases step <;> rfl

/-- A report amounts to a throw of its text. -/
lemma registry?_of_reported {host : Host} {text : String}
    (h : step.reported? hosts = some (host, text)) (default : Option Handle) :
    step.registry? hosts default = some (.throw host.vm.handle (.text text)) := by
  have hplain : ∀ p, step ≠ .plain p := by
    rintro p rfl
    cases h
  rw [(registry?_of_ne hosts default hplain).1, h]
  rfl

/-! ### One step -/

/-- The session after a report has posted its text, before the VM is involved. -/
def posted (session : Session) (i : Nat) (s : Binding) (step : Step) (host : Host)
    (text : String) : Session :=
  (session.replace i (s.post host.vm.handle text).1).observe
    (step.converted ++ (s.post host.vm.handle text).2.events.map .logged)

/-- What a step on the state `s` at an index does to the session. -/
inductive Takes (react : Reaction) (hosts : List Host) (session : Session) (i : Nat)
    (s : Binding) : Step → Session → Prop where
  /-- An operation on the state. -/
  | plain (p : Binding.Step) :
      Takes react hosts session i s (.plain p)
        ((session.replace i (s.step p).1).observe (Mark.ofReply (s.step p).2))
  /-- A report whose message does not convert. -/
  | failing (vm : Nat) (why : String) :
      Takes react hosts session i s (.report vm (.failing why)) (session.observe [.converted])
  /-- A report that raises nothing. -/
  | silent {step : Step} {vm : Nat} {host : Host} {text : String}
      (target : step.target? = some vm) (found : hosts[vm]? = some host)
      (reported : step.reported? hosts = some (host, text))
      (forward : (s.post host.vm.handle text).2.forward = false) :
      Takes react hosts session i s step (session.posted i s step host text)
  /-- A report that raises its text, and the reaction of the VM. -/
  | raising {step : Step} {vm : Nat} {host : Host} {text : String} {world : World}
      {nested : List (Outcome ProcessWide.Answer)}
      (target : step.target? = some vm) (found : hosts[vm]? = some host)
      (reported : step.reported? hosts = some (host, text))
      (forward : (s.post host.vm.handle text).2.forward = true)
      (reaction : react ((session.posted i s step host text).world.observe
        (Mark.ofRaise .direct vm host.vm.handle text)) host.onRaise = .ok (world, nested)) :
      Takes react hosts session i s step { session.posted i s step host text with world := world }
  /-- A question, or a state more. -/
  | apart {step : Step} (plain : ∀ p, step ≠ .plain p) (target : step.target? = none)
      (more : List Binding) :
      Takes react hosts session i s step { session with states := session.states ++ more }

lemma reportText_takes {start vm : Nat} {host : Host} {text : String}
    (h : (session.observe step.converted).reportText react i s start vm host text
      = .ok (session', answer)) (htarget : step.target? = some vm)
    (hhost : hosts[vm]? = some host) (hreported : step.reported? hosts = some (host, text)) :
    Takes react hosts session i s step session' := by
  have hposted : ((session.observe step.converted).replace i (s.post host.vm.handle text).1).observe
      ((s.post host.vm.handle text).2.events.map .logged) = session.posted i s step host text :=
    congrArg (Session.mk _) (observe_observe session.world _ _)
  obtain ⟨mid, hmid, hcases⟩ := reportText_cases h
  rw [hposted] at hmid
  subst hmid
  rcases hcases with ⟨hforward, rfl, -⟩ | ⟨hforward, world, nested, hnested, rfl, -⟩
  · exact .silent htarget hhost hreported hforward
  · rw [observe_observe] at hnested
    exact .raising htarget hhost hreported hforward hnested

lemma Takes.asks (hplain : ∀ p, step ≠ .plain p) (htarget : step.target? = none) :
    Takes react hosts session i s step session := by
  have h := @Takes.apart react hosts session i s step hplain htarget []
  rwa [List.append_nil] at h

/-- **What a step does** to the session that it is taken in. -/
theorem step_takes (h : session.step react hosts i step = .ok (session', answer))
    (hs : session.states[i]? = some s) : Takes react hosts session i s step session' := by
  simp only [Session.step, bind_eq_ok] at h
  obtain ⟨t, hstate, h⟩ := h
  rw [stateAt_eq_ok, hs, Option.some_inj] at hstate
  subst hstate
  cases step with
  | plain p =>
      cases h
      exact .plain p
  | report vm message =>
      simp only [bind_eq_ok] at h
      obtain ⟨host, hhost, h⟩ := h
      have hfound := hostAt_eq_ok hhost
      cases message with
      | failing why =>
          cases h
          exact .failing vm why
      | text text =>
          have h' : (session.observe (Step.report vm (.text text)).converted).reportText react i s
              session.world.trace.length vm host text = .ok (session', answer) := h
          refine reportText_takes h' rfl hfound ?_
          rw [Step.reported?, hfound]
          rfl
  | reportTypeError vm index expected =>
      simp only [bind_eq_ok] at h
      obtain ⟨host, hhost, h⟩ := h
      have hfound := hostAt_eq_ok hhost
      have hnone : session.observe (Step.reportTypeError vm index expected).converted = session :=
        congrArg (Session.mk _) (observe_nil _)
      rw [← hnone] at h
      refine reportText_takes h rfl hfound ?_
      rw [Step.reported?, hfound]
      rfl
  | typeErrorText | lastError =>
      simp only [bind_eq_ok] at h
      obtain ⟨host, -, h⟩ := h
      cases h
      refine .asks ?_ rfl
      intro p hp
      cases hp
  | fork | create =>
      cases h
      refine .apart ?_ rfl _
      intro p hp
      cases hp

/-! ### Transcripts -/

/-- What a step found in the state that it was taken on, what it answered, what it left, and
what was observed meanwhile. -/
structure Turn extends Entry where
  /-- The index of the state. -/
  index : Nat
  /-- The process-wide state before the step. -/
  process : Binding
  marks : List Mark

/-- The turns of a list of steps. -/
def transcript (react : Reaction) (hosts : List Host) (session : Session) :
    List (Nat × Step) → Except Halt (List Turn)
  | [] => return []
  | (i, step) :: steps => do
    let before ← session.stateAt i
    let (next, answer) ← session.step react hosts i step
    let after ← next.stateAt i
    let turns ← next.transcript react hosts steps
    return ⟨⟨before, step, answer, after⟩, i, session.world.cell.state,
      next.world.since session.world.trace.length⟩ :: turns

/-- A turn as it was taken in some session of a history. -/
structure Turn.Taken (react : Reaction) (hosts : List Host) (t : Turn)
    (session session' : Session) : Prop where
  before : session.states[t.index]? = some t.before
  step : session.step react hosts t.index t.step = .ok (session', t.answer)
  after : session'.states[t.index]? = some t.after
  process : t.process = session.world.cell.state
  marks : session'.world.trace = session.world.trace ++ t.marks

/-- A way to run reactions that adds to what was observed, and leaves the guard as it was. -/
def Steady (react : Reaction) (hosts : List Host) : Prop :=
  ∀ host ∈ hosts, ∀ w w' nested, react w host.onRaise = .ok (w', nested) →
    (∃ marks, w'.trace = w.trace ++ marks) ∧ w'.cell.held = w.cell.held

/-- VM objects that do nothing when they are raised. -/
def Quiet (hosts : List Host) : Prop :=
  ∀ host ∈ hosts, host.onRaise = []

instance (hosts : List Host) : Decidable (Quiet hosts) :=
  inferInstanceAs (Decidable (∀ host ∈ hosts, host.onRaise = []))

/-- Nothing is left to run. -/
lemma Quiet.eq_of_ok (h : Quiet hosts) {depth : Nat} {host : Host} (hhost : host ∈ hosts)
    {w w' : World} {nested : List (Outcome ProcessWide.Answer)}
    (hrun : ProcessWide.run hosts depth w host.onRaise = .ok (w', nested)) : w' = w := by
  rw [h host hhost] at hrun
  cases hrun
  rfl

lemma Quiet.steady (h : Quiet hosts) (depth : Nat) :
    Steady (ProcessWide.run hosts depth) hosts := by
  intro host hhost w w' nested hrun
  rw [h.eq_of_ok hhost hrun]
  exact ⟨⟨[], (List.append_nil _).symm⟩, rfl⟩

/-- A step adds to what was observed, and leaves the guard as it was. -/
lemma Takes.steady (hreact : Steady react hosts) (h : Takes react hosts session i s step session') :
    (∃ marks, session'.world.trace = session.world.trace ++ marks)
      ∧ session'.world.cell.held = session.world.cell.held := by
  cases h with
  | plain p => exact ⟨⟨_, rfl⟩, rfl⟩
  | failing vm why => exact ⟨⟨_, rfl⟩, rfl⟩
  | silent => exact ⟨⟨_, rfl⟩, rfl⟩
  | raising _ found _ _ reaction =>
      obtain ⟨⟨marks, htrace⟩, hheld⟩ :=
        hreact _ (List.mem_of_getElem? found) _ _ _ reaction
      exact ⟨⟨_, htrace.trans ((List.append_assoc ..).trans (List.append_assoc ..))⟩, hheld⟩
  | apart => exact ⟨⟨[], (List.append_nil _).symm⟩, rfl⟩

variable {steps : List (Nat × Step)} {answers : List (Outcome Answer)}

/-- **A history has a transcript**: one turn for each step, with its answer, and what was
observed of the turns is all that was observed. -/
theorem transcript_run (hreact : Steady react hosts)
    (h : session.run react hosts steps = .ok (session', answers)) :
    ∃ turns, session.transcript react hosts steps = .ok turns
      ∧ turns.map (fun t => ((t.index, t.step), t.answer)) = steps.zip answers
      ∧ session'.world.trace = session.world.trace ++ turns.flatMap (·.marks)
      ∧ session'.world.cell.held = session.world.cell.held
      ∧ ∀ t ∈ turns, ∃ now next, t.Taken react hosts now next
        ∧ now.world.cell.held = session.world.cell.held := by
  induction steps generalizing session answers with
  | nil =>
      cases h
      exact ⟨[], rfl, rfl, (List.append_nil _).symm, rfl, List.forall_mem_nil _⟩
  | cons x steps ih =>
      obtain ⟨i, step⟩ := x
      obtain ⟨next, answer, rest, hstep, hrest, rfl⟩ := run_cons_eq_ok h
      obtain ⟨before, hbefore, -⟩ := step_cases hstep
      obtain ⟨after, hafter, -⟩ := state_step hstep hbefore
      obtain ⟨⟨marks, hmarks⟩, hheld⟩ := (step_takes hstep hbefore).steady hreact
      obtain ⟨turns, hturns, hanswers, htrace, hheld', htaken⟩ := ih hrest
      have hsince : next.world.since session.world.trace.length = marks := by
        rw [World.since, hmarks, List.drop_left]
      refine ⟨⟨⟨before, step, answer, after⟩, i, session.world.cell.state, marks⟩ :: turns,
        ?_, ?_, ?_, hheld'.trans hheld, ?_⟩
      · simp only [transcript, bind_eq_ok]
        refine ⟨before, stateAt_eq_ok.mpr hbefore, _, hstep, after, stateAt_eq_ok.mpr hafter,
          turns, hturns, ?_⟩
        rw [hsince]
        rfl
      · rw [List.map_cons, hanswers, List.zip_cons_cons]
      · rw [htrace, hmarks, List.flatMap_cons, List.append_assoc]
      · refine List.forall_mem_cons.mpr
          ⟨⟨session, next, ⟨hbefore, hstep, hafter, rfl, hmarks⟩, rfl⟩, fun t ht => ?_⟩
        obtain ⟨now, then', htaken, hfree⟩ := htaken t ht
        exact ⟨now, then', htaken, hfree.trans hheld⟩

/-- In particular where VMs do nothing when they are raised. -/
lemma Quiet.transcript_run (hquiet : Quiet hosts) {depth : Nat}
    (h : session.run (ProcessWide.run hosts depth) hosts steps = .ok (session', answers)) :
    ∃ turns, session.transcript (ProcessWide.run hosts depth) hosts steps = .ok turns
      ∧ turns.map (fun t => ((t.index, t.step), t.answer)) = steps.zip answers
      ∧ session'.world.trace = session.world.trace ++ turns.flatMap (·.marks)
      ∧ ∀ t ∈ turns, ∃ now next, t.Taken (ProcessWide.run hosts depth) hosts now next := by
  obtain ⟨turns, hturns, hanswers, htrace, -, htaken⟩ :=
    Session.transcript_run (hquiet.steady depth) h
  refine ⟨turns, hturns, hanswers, htrace, fun t ht => ?_⟩
  obtain ⟨now, next, hnow, -⟩ := htaken t ht
  exact ⟨now, next, hnow⟩

end ScriptBinding.Binding.Session
