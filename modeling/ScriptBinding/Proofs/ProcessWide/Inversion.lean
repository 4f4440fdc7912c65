import Mathlib.Tactic.Common
import ScriptBinding.ProcessWide.Run
import ScriptBinding.Proofs.Registry.FirstWins

/-
What an execution that came to an end did.

* `Binding.recorded_post`, `Binding.post_eq`: what a report does to a state is to throw
  its text.
* `bind_eq_ok`: the parts of an execution came to an end.
* `access_eq_ok`, `access_trace`: the operation ran on the state and was observed, and
  the guard is as free as it was.
* `attemptBlock_eq`: what a block does, and what it comes to.
* `conclude_eq_ok`: the end of a report ran the reaction of the VM, or did
  nothing.
* `runWith_cons_eq_ok`: a list of steps is its first step and the rest.
* `Handle.one`, `Handle.two`: the names of VMs in runs on fixed inputs.
-/
namespace ScriptBinding

namespace Handle

lemma one_ne_zero : (1 : UInt64) ≠ 0 := by decide

lemma two_ne_zero : (2 : UInt64) ≠ 0 := by decide

/-- The handle with the id one. -/
def one : Handle :=
  ⟨1, one_ne_zero⟩

/-- The handle with the id two. -/
def two : Handle :=
  ⟨2, two_ne_zero⟩

end Handle

namespace Binding

/-- A report is recorded where nothing is pending. -/
lemma recorded_post (s : Binding) (vm : Handle) (text : String) :
    (s.post vm text).2.recorded = (s.errors.peek vm).isNone := by
  have houtcome := (Registry.throwText_eq s.errors vm text).2
  show decide ((s.errors.throwText vm text).2.outcome = .returned true) = _
  rw [houtcome]
  cases s.errors.peek vm <;> rfl

/-- A report throws its text, and raises it where that was recorded while the
policy was on. -/
lemma post_eq (s : Binding) (vm : Handle) (text : String) :
    (s.post vm text).1 = (s.step (.throwText vm text)).1
      ∧ (s.step (.throwText vm text)).2.outcome
        = .returned (.registry (.flag (s.post vm text).2.recorded))
      ∧ (s.post vm text).2.forward = ((s.post vm text).2.recorded && s.policy.enabled) := by
  refine ⟨rfl, ?_, rfl⟩
  have houtcome := (Registry.throwText_eq s.errors vm text).2
  show (s.errors.throwText vm text).2.outcome.map _ = _
  rw [houtcome, recorded_post]
  rfl

end Binding

namespace ProcessWide

lemma bind_eq_ok {ε α β : Type} {x : Except ε α} {f : α → Except ε β} {b : β} :
    (do let a ← x; f a) = .ok b ↔ ∃ a, x = .ok a ∧ f a = .ok b := by
  constructor
  · intro h
    cases x with
    | error e => cases h
    | ok a => exact ⟨a, rfl, h⟩
  · rintro ⟨a, rfl, h⟩
    exact h

/-- An operation under the guard. -/
lemma access_eq_ok {β : Type} {w w' : World} {operate : Binding → Binding × β}
    {marks : β → List Mark} {aborts : β → Bool} {b : β}
    (h : w.access operate marks aborts = .ok (w', b)) :
    b = (operate w.cell.state).2 ∧ w'.cell.state = (operate w.cell.state).1
      ∧ w'.cell.held = w.cell.held := by
  rw [World.access, Cell.lock?] at h
  split at h
  · cases h
  · rename_i cell hlock
    split at hlock
    · cases hlock
    · rename_i hfree
      cases hlock
      cases h
      exact ⟨rfl, rfl, (Bool.not_eq_true _ ▸ hfree).symm⟩

/-- An operation under the guard is observed after all that was before. -/
lemma access_trace {β : Type} {w w' : World} {operate : Binding → Binding × β}
    {marks : β → List Mark} {aborts : β → Bool} {b : β}
    (h : w.access operate marks aborts = .ok (w', b)) : w'.trace = w.trace ++ marks b := by
  rw [World.access] at h
  split at h
  · cases h
  · cases h
    rfl

/-- An outcome that is followed by an abort, if there is one. -/
def endedBy {α : Type} : Option String → Outcome α → Outcome α
  | some why, .returned _ => .aborted why
  | _, outcome => outcome

/-- A block is its operations, and then perhaps an abort of its own. -/
lemma attemptBlock_eq (steps : List Binding.Step) (ending : Option String) (s : Binding) :
    attemptBlock steps ending s = ((s.attempt steps).1,
      { (s.attempt steps).2 with
        outcome := (endedBy ending (s.attempt steps).2.outcome).map .block }) := by
  rw [attemptBlock]
  rcases s.attempt steps with ⟨_, _ | _, _, _⟩ <;> cases ending <;> rfl

/-- The end of a report. -/
lemma conclude_eq_ok {react : Reaction} {layer : Layer} {w w' : World} {start vm : Nat}
    {host : Host} {text : String} {posting : Binding.Posting} {answer : Outcome Answer}
    (h : conclude react layer w start vm host text posting = .ok (w', answer)) :
    (posting.forward = false ∧ w' = w ∧ answer
        = .returned (reportAnswer w start vm (.returned posting.recorded) []))
      ∨ (posting.forward = true ∧ ∃ nested,
        react ((w.observe [.logged (.raising layer host.vm.handle text)]).observe
          [.raised vm text]) host.onRaise = .ok (w', nested)
        ∧ answer = .returned
          (reportAnswer w' start vm (endedBy host.abort (.returned posting.recorded)) nested)) := by
  rw [conclude] at h
  split at h
  · rename_i hforward
    simp only [raise, bind_eq_ok] at h
    obtain ⟨_, ⟨⟨w₁, nested⟩, hreact, hraise⟩, h⟩ := h
    cases hraise
    cases h
    refine .inr ⟨hforward, nested, hreact, ?_⟩
    cases host.abort <;> rfl
  · rename_i hforward
    cases h
    exact .inl ⟨by simpa using hforward, rfl, rfl⟩

/-- A list of steps that came to an end. -/
lemma runWith_cons_eq_ok {step : World → Step → Except Halt (World × Outcome Answer)}
    {w w' : World} {s : Step} {steps : List Step} {answers : List (Outcome Answer)}
    (h : runWith step w (s :: steps) = .ok (w', answers)) :
    ∃ w₁ answer rest, step w s = .ok (w₁, answer) ∧ runWith step w₁ steps = .ok (w', rest)
      ∧ answers = answer :: rest := by
  simp only [runWith, bind_eq_ok] at h
  obtain ⟨⟨w₁, answer⟩, hstep, ⟨w₂, rest⟩, hrest, h⟩ := h
  cases h
  exact ⟨w₁, answer, rest, hstep, hrest, rfl⟩

/-- A VM object that was found. -/
lemma hostAt_eq_ok {hosts : List Host} {vm : Nat} {host : Host} (h : hostAt hosts vm = .ok host) :
    hosts[vm]? = some host := by
  rw [hostAt] at h
  split at h
  · cases h
    assumption
  · cases h

end ProcessWide

end ScriptBinding
