import ScriptBinding.Proofs.Binding.Conversions

/-
What a step does to the states of a session, and what it answers, whatever the VMs do.

* `Step.after`, `Step.added`: the state that a step is taken on, after the step, and the states
  that it puts last.
* `Binding.reportOutcome`, `Reports`: what a report through a state comes to, and an answer that
  tells it.
* `Step.Answers`: what a step may answer.
* `step_effect`: a step that came to an end did this and answered so.
* `Step.after_congr`: what it did is a matter of the handles and stacks of VM objects.
* `step_of_quiet`: where VMs do nothing when they are raised, a step comes to an end on any state
  that it is taken on.
-/
namespace ScriptBinding.Binding

open ProcessWide

/-- What a report of a text through a state comes to: whether it was recorded, or the abort of
the VM that it is raised in. -/
def reportOutcome (s : Binding) (host : Host) (text : String) : Outcome Bool :=
  let posting := (s.post host.vm.handle text).2
  endedBy (if posting.forward then host.abort else none) (.returned posting.recorded)

namespace Session

/-- The state that a step is taken on, after the step. -/
def Step.after (hosts : List Host) (s : Binding) : Step → Binding
  | .plain p => (s.step p).1
  | step => match step.reported? hosts with
    | some (host, text) => (s.post host.vm.handle text).1
    | none => s

/-- The states that a step puts last. -/
def Step.added (s : Binding) : Step → List Binding
  | .fork => [s]
  | .create => [.initial]
  | _ => []

/-- The answer to a report that came to an outcome, whatever was raised meanwhile. -/
def Reports (recorded : Outcome Bool) (answer : Outcome Answer) : Prop :=
  ∃ raised nested last, answer = .returned (.answered (.report recorded raised nested last))

/-- What a step answers that is taken on the state `s`, one of `n`.  Of a report it is what the
report comes to; the last error of a VM is left open. -/
def Step.Answers (hosts : List Host) (n : Nat) (s : Binding) : Step → Outcome Answer → Prop
  | .plain p, answer => answer = (s.step p).2.outcome.map fun a => .answered (.plain a)
  | .report _ (.failing why), answer => Reports (.aborted why) answer
  | .report vm (.text text), answer =>
    ∃ host, hosts[vm]? = some host ∧ Reports (s.reportOutcome host text) answer
  | .reportTypeError vm index expected, answer => ∃ host, hosts[vm]? = some host
    ∧ Reports (s.reportOutcome host (host.vm.typeErrorText index expected)) answer
  | .typeErrorText vm index expected, answer => ∃ host, hosts[vm]? = some host
    ∧ answer = .returned (.answered (.text (host.vm.typeErrorText index expected)))
  | .lastError _, answer => ∃ m, answer = .returned (.answered (.lastError m))
  | .fork, answer | .create, answer => answer = .returned (.index n)

variable {react : Reaction} {hosts : List Host} {session session' : Session} {i : Nat}
  {s : Binding} {step : Step} {answer : Outcome Answer}

/-- A report through a state posts its text in it, and comes to what that decides. -/
lemma reportText_effect {start vm : Nat} {host : Host} {text : String}
    (h : session.reportText react i s start vm host text = .ok (session', answer)) :
    session'.states = session.states.set i (s.post host.vm.handle text).1
      ∧ Reports (s.reportOutcome host text) answer := by
  rw [reportOutcome]
  obtain ⟨mid, rfl, ⟨hforward, rfl, rfl⟩ | ⟨hforward, world, nested, -, rfl, rfl⟩⟩ :=
    reportText_cases h
  · rw [hforward]
    exact ⟨rfl, _, _, _, rfl⟩
  · rw [hforward]
    exact ⟨rfl, _, _, _, rfl⟩

/-- **What a step does to the states, and what it answers.** -/
theorem step_effect (h : session.step react hosts i step = .ok (session', answer))
    (hs : session.states[i]? = some s) :
    session'.states = session.states.set i (step.after hosts s) ++ step.added s
      ∧ step.Answers hosts session.states.length s answer := by
  have hkept : ∀ more, session.states ++ more = session.states.set i s ++ more :=
    fun more => congrArg (fun kept => kept.states ++ more) (replace_self hs).symm
  simp only [Session.step, bind_eq_ok] at h
  obtain ⟨t, hstate, h⟩ := h
  rw [stateAt_eq_ok, hs, Option.some_inj] at hstate
  subst hstate
  cases step with
  | plain p =>
      cases h
      exact ⟨(List.append_nil _).symm, rfl⟩
  | report vm message =>
      simp only [bind_eq_ok] at h
      obtain ⟨host, hhost, h⟩ := h
      have hfound := hostAt_eq_ok hhost
      cases message with
      | failing why =>
          cases h
          exact ⟨(List.append_nil _).symm.trans (hkept []), _, _, _, rfl⟩
      | text text =>
          obtain ⟨hstates, hreports⟩ := reportText_effect h
          have hafter : (Step.report vm (.text text)).after hosts s
              = (s.post host.vm.handle text).1 := by
            simp only [Step.after, Step.reported?, hfound, Option.map_some]
          rw [hafter]
          exact ⟨hstates.trans (List.append_nil _).symm, host, hfound, hreports⟩
  | reportTypeError vm index expected =>
      simp only [bind_eq_ok] at h
      obtain ⟨host, hhost, h⟩ := h
      have hfound := hostAt_eq_ok hhost
      obtain ⟨hstates, hreports⟩ := reportText_effect h
      have hafter : (Step.reportTypeError vm index expected).after hosts s
          = (s.post host.vm.handle (host.vm.typeErrorText index expected)).1 := by
        simp only [Step.after, Step.reported?, hfound, Option.map_some]
      rw [hafter]
      exact ⟨hstates.trans (List.append_nil _).symm, host, hfound, hreports⟩
  | typeErrorText vm index expected =>
      simp only [bind_eq_ok] at h
      obtain ⟨host, hhost, h⟩ := h
      cases h
      exact ⟨(List.append_nil _).symm.trans (hkept []), host, hostAt_eq_ok hhost, rfl⟩
  | lastError vm =>
      simp only [bind_eq_ok] at h
      obtain ⟨host, -, h⟩ := h
      cases h
      exact ⟨(List.append_nil _).symm.trans (hkept []), _, rfl⟩
  | fork | create =>
      cases h
      exact ⟨hkept _, rfl⟩

/-! ### Other VM objects of the same handles and stacks -/

section Congr

variable {hosts' : List Host} (hvms : hosts'.map (·.vm) = hosts.map (·.vm))

include hvms

lemma vm_getElem? (vm : Nat) : (hosts'[vm]?).map (·.vm) = (hosts[vm]?).map (·.vm) := by
  rw [← List.getElem?_map, ← List.getElem?_map, hvms]

lemma getElem?_congr {vm : Nat} {host host' : Host} (h : hosts[vm]? = some host)
    (h' : hosts'[vm]? = some host') : host'.vm = host.vm := by
  have hvm := vm_getElem? hvms vm
  rw [h, h'] at hvm
  exact Option.some_inj.mp hvm

/-- Which text a step posts, and for which VM, is a matter of handles and stacks. -/
lemma reported?_congr (step : Step) :
    (step.reported? hosts').map (fun x => (x.1.vm, x.2))
      = (step.reported? hosts).map fun x => (x.1.vm, x.2) := by
  have hmap : ∀ (vm : Nat) (f : Vm → String),
      ((hosts'[vm]?).map fun host => (host, f host.vm)).map (fun x => (x.1.vm, x.2))
        = ((hosts[vm]?).map fun host => (host, f host.vm)).map fun x => (x.1.vm, x.2) := by
    intro vm f
    have hvm := congrArg (Option.map fun v : Vm => (v, f v)) (vm_getElem? hvms vm)
    rw [Option.map_map, Option.map_map] at hvm ⊢
    exact hvm
  cases step with
  | report vm message =>
      cases message with
      | failing why => rfl
      | text text => exact hmap vm fun _ => text
  | reportTypeError vm index expected => exact hmap vm (·.typeErrorText index expected)
  | _ => rfl

/-- So is what a step does to the state that it is taken on. -/
lemma Step.after_congr (step : Step) (s : Binding) : step.after hosts' s = step.after hosts s := by
  have hreported := reported?_congr hvms step
  cases step with
  | plain p => rfl
  | _ =>
      simp only [Step.after]
      revert hreported
      cases Step.reported? hosts' _ <;> cases Step.reported? hosts _ <;> intro hreported
      · rfl
      · cases hreported
      · cases hreported
      · simp only [Option.map_some, Option.some_inj, Prod.mk.injEq] at hreported
        simp only [hreported.1, hreported.2]

end Congr

/-! ### Coming to an end -/

/-- The VM object that a step names, if it names one, exists. -/
def Step.Names (hosts : List Host) : Step → Prop
  | .report vm _ | .reportTypeError vm _ _ | .typeErrorText vm _ _ | .lastError vm =>
    vm < hosts.length
  | .plain _ | .fork | .create => True

/-- A step that came to an end names a VM object that exists. -/
lemma names_of_ok (h : session.step react hosts i step = .ok (session', answer)) :
    step.Names hosts := by
  simp only [Session.step, bind_eq_ok] at h
  obtain ⟨s, -, h⟩ := h
  cases step with
  | plain | fork | create => trivial
  | report | reportTypeError | typeErrorText | lastError =>
      simp only [bind_eq_ok] at h
      obtain ⟨host, hhost, -⟩ := h
      exact (List.getElem?_eq_some_iff.mp (hostAt_eq_ok hhost)).1

/-- The end of a report to a VM that does nothing when it is raised. -/
lemma conclude_of_quiet (hosts : List Host) (depth : Nat) (layer : Layer) (w : World)
    (start vm : Nat) {host : Host} (hhost : host.onRaise = []) (text : String)
    (posting : Posting) : ∃ w' answer,
      conclude (ProcessWide.run hosts depth) layer w start vm host text posting
        = .ok (w', answer) := by
  cases hforward : posting.forward with
  | false => exact ⟨_, _, conclude_silent hforward⟩
  | true =>
      rw [conclude_raising hforward, hhost]
      exact ⟨_, _, rfl⟩

/-- A report to a VM that does nothing when it is raised comes to an end. -/
lemma reportText_of_quiet (hosts : List Host) (session : Session) (i : Nat) (s : Binding)
    (depth start vm : Nat) {host : Host} (hhost : host.onRaise = []) (text : String) :
    ∃ session' answer,
      session.reportText (ProcessWide.run hosts depth) i s start vm host text
        = .ok (session', answer) := by
  obtain ⟨world, answer, hconclude⟩ := conclude_of_quiet hosts depth .direct
    ((session.replace i (s.post host.vm.handle text).1).observe
      ((s.post host.vm.handle text).2.events.map .logged)).world start vm hhost text
    (s.post host.vm.handle text).2
  rw [reportText_eq_conclude]
  exact ⟨_, _, bind_eq_ok.mpr ⟨_, hconclude, rfl⟩⟩

/-- Where VMs do nothing when they are raised, a step comes to an end on every state there is. -/
lemma step_of_quiet (hquiet : Quiet hosts) (depth : Nat) (hs : session.states[i]? = some s)
    (hnames : step.Names hosts) : ∃ session' answer,
      session.step (ProcessWide.run hosts depth) hosts i step = .ok (session', answer) := by
  have hstate := stateAt_eq_ok.mpr hs
  cases step with
  | plain | fork | create => exact ⟨_, _, bind_eq_ok.mpr ⟨_, hstate, rfl⟩⟩
  | report vm message =>
      have hhost := hostAt_of_lt hnames
      cases message with
      | failing why =>
          exact ⟨_, _, bind_eq_ok.mpr ⟨_, hstate, bind_eq_ok.mpr ⟨_, hhost, rfl⟩⟩⟩
      | text text =>
          obtain ⟨session', answer, hreport⟩ := reportText_of_quiet hosts
            (session.observe [.converted]) i s depth session.world.trace.length vm
            (hquiet _ (List.getElem_mem hnames)) text
          exact ⟨session', answer, bind_eq_ok.mpr ⟨_, hstate, bind_eq_ok.mpr ⟨_, hhost, hreport⟩⟩⟩
  | reportTypeError vm index expected =>
      have hhost := hostAt_of_lt hnames
      obtain ⟨session', answer, hreport⟩ := reportText_of_quiet hosts
        session i s depth session.world.trace.length vm (hquiet _ (List.getElem_mem hnames))
        (hosts[vm].vm.typeErrorText index expected)
      exact ⟨session', answer, bind_eq_ok.mpr ⟨_, hstate, bind_eq_ok.mpr ⟨_, hhost, hreport⟩⟩⟩
  | typeErrorText vm | lastError vm =>
      exact ⟨_, _, bind_eq_ok.mpr ⟨_, hstate, bind_eq_ok.mpr ⟨_, hostAt_of_lt hnames, rfl⟩⟩⟩

end Session

end ScriptBinding.Binding
