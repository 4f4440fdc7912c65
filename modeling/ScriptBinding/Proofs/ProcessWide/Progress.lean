import ScriptBinding.Proofs.ProcessWide.Inversion

/-
When an execution comes to an end.

* `Step.Names`: the VM object that a step names exists; `Step.Detached`: a step that
  asks a VM object only.
* `access_of_free`: an operation runs where the guard is free.
* `conclude_silent`, `conclude_raising`: a report ends as the reaction of its VM does.
-/
namespace ScriptBinding.ProcessWide

/-- The VM object that a step names, if it names one, exists. -/
def Step.Names (hosts : List Host) : Step → Prop
  | .plain _ | .block _ _ => True
  | .report vm _ | .reportTypeError vm _ _ | .typeErrorText vm _ _ | .lastError vm =>
    vm < hosts.length

/-- A step that asks a VM object that exists, and does not use the process. -/
def Step.Detached (hosts : List Host) : Step → Prop
  | .typeErrorText vm _ _ | .lastError vm => vm < hosts.length
  | _ => False

instance Step.decidableNames (hosts : List Host) : (step : Step) → Decidable (step.Names hosts)
  | .plain _ | .block _ _ => inferInstanceAs (Decidable True)
  | .report vm _ | .reportTypeError vm _ _ | .typeErrorText vm _ _ | .lastError vm =>
    inferInstanceAs (Decidable (vm < hosts.length))

instance Step.decidableDetached (hosts : List Host) :
    (step : Step) → Decidable (step.Detached hosts)
  | .typeErrorText vm _ _ | .lastError vm => inferInstanceAs (Decidable (vm < hosts.length))
  | .plain _ | .block _ _ | .report _ _ | .reportTypeError _ _ _ =>
    inferInstanceAs (Decidable False)

variable {hosts : List Host} {vm : Nat} {w : World}

lemma hostAt_of_lt (h : vm < hosts.length) : hostAt hosts vm = .ok hosts[vm] := by
  rw [hostAt, List.getElem?_eq_getElem h]

lemma observe_nil (w : World) : w.observe [] = w := by
  simp [World.observe]

lemma observe_observe (w : World) (xs ys : List Mark) :
    (w.observe xs).observe ys = w.observe (xs ++ ys) := by
  simp [World.observe]

/-- What was observed since, with more that is observed now. -/
lemma trace_observe {before marks : List Mark} (h : w.trace = before ++ marks)
    (more : List Mark) : (w.observe more).trace = before ++ (marks ++ more) := by
  rw [World.observe, h, List.append_assoc]

/-- An operation runs where the guard is free, and leaves it free. -/
lemma access_of_free {β : Type} (h : w.cell.held = false) (operate : Binding → Binding × β)
    (marks : β → List Mark) (aborts : β → Bool) :
    ∃ w', w.access operate marks aborts = .ok (w', (operate w.cell.state).2)
      ∧ w'.cell.state = (operate w.cell.state).1 ∧ w'.cell.held = false
      ∧ w'.trace = w.trace ++ marks (operate w.cell.state).2 := by
  rw [World.access, Cell.lock?, h]
  exact ⟨_, rfl, rfl, rfl, rfl⟩

/-- The marks of a raise, before the VM reacts. -/
def Mark.ofRaise (layer : Layer) (vm : Nat) (handle : Handle) (text : String) : List Mark :=
  [.logged (.raising layer handle text), .raised vm text]

section Conclude

variable {react : Reaction} {layer : Layer} {start : Nat} {host : Host} {text : String}
  {posting : Binding.Posting}

/-- A report that does not raise its message ends at once. -/
lemma conclude_silent (h : posting.forward = false) :
    conclude react layer w start vm host text posting
      = .ok (w, .returned (reportAnswer w start vm (.returned posting.recorded) [])) := by
  rw [conclude, h]
  rfl

/-- A report that raises its message ends as the reaction of the VM does. -/
lemma conclude_raising (h : posting.forward = true) :
    conclude react layer w start vm host text posting
      = (react (w.observe (Mark.ofRaise layer vm host.vm.handle text)) host.onRaise).map fun x =>
        (x.1, .returned
          (reportAnswer x.1 start vm (endedBy host.abort (.returned posting.recorded)) x.2)) := by
  rw [conclude, if_pos h]
  simp only [raise, observe_observe, Mark.ofRaise, List.cons_append, List.nil_append]
  cases react (w.observe [.logged (.raising layer host.vm.handle text), .raised vm text])
      host.onRaise with
  | error e => rfl
  | ok x => cases host.abort <;> rfl

end Conclude

/-- A step is taken in one way, with reactions nested up to any depth. -/
lemma step_eq_stepWith (hosts : List Host) (depth : Nat) :
    ∃ react, ProcessWide.step hosts depth = stepWith react hosts := by
  cases depth with
  | zero => exact ⟨_, rfl⟩
  | succ depth => exact ⟨_, rfl⟩

end ScriptBinding.ProcessWide
