import ScriptBinding.Proofs.Binding.Blocks
import ScriptBinding.Proofs.Binding.Effects
import ScriptBinding.Proofs.ProcessWide.Flat
import ScriptBinding.Proofs.Registry.Lineage
import ScriptBinding.Proofs.Registry.Views

/-
The registries of VMs that there can be, and that no key stands twice in any of them.

* `Registry.Session.distinct_run?`: the registries of a session keep their keys distinct.
* `Binding.Tidy`: the registry of a state has distinct keys; operations, blocks and reports keep
  this, `Tidy.step`, `Tidy.attempt`, `Tidy.post`.
* `Binding.Session.tidy_run`, `ProcessWide.tidy_run`: so do sessions, in all of their states, and
  the process.
* `Registry.Arises`: the registries of all histories; `Arises.distinct`.
-/
namespace ScriptBinding

namespace Registry.Session

variable {κ : Type} [DecidableEq κ] {session next last : Session κ}

lemma distinct_step? {i : Nat} {step : Step κ} {reply : Reply (Event κ) (Answer κ)}
    (hall : ∀ r ∈ session, r.pending.Distinct) (h : session.step? i step = some (next, reply)) :
    ∀ r ∈ next, r.pending.Distinct := by
  obtain ⟨r, hr, hcases⟩ := step?_cases h
  have hdistinct : r.pending.Distinct := hall r (List.mem_of_getElem? hr)
  intro t ht
  rcases hcases with ⟨op, -, rfl, -⟩ | ⟨-, rfl, -⟩
  · rcases List.mem_or_eq_of_mem_set ht with hold | rfl
    · exact hall t hold
    · exact distinct_step hdistinct op
  · rcases List.mem_append.mp ht with hold | hcopy
    · exact hall t hold
    · exact List.mem_singleton.mp hcopy ▸ hdistinct

/-- No key stands twice in any registry of a session. -/
lemma distinct_run? {steps : List (Nat × Step κ)} {replies : List (Reply (Event κ) (Answer κ))}
    (hall : ∀ r ∈ session, r.pending.Distinct) (h : session.run? steps = some (last, replies)) :
    ∀ r ∈ last, r.pending.Distinct := by
  induction steps generalizing session replies with
  | nil =>
      cases h
      exact hall
  | cons x steps ih =>
      obtain ⟨next, reply, rest, hstep, hrest, -⟩ := run?_cons_eq_some h
      exact ih (distinct_step? hall hstep) hrest

end Registry.Session

namespace Binding

/-- No key stands twice in the registry of a state. -/
def Tidy (s : Binding) : Prop :=
  s.errors.pending.Distinct

variable {s : Binding}

lemma tidy_initial : initial.Tidy :=
  Table.distinct_empty

lemma Tidy.step (h : s.Tidy) (step : Step) : (s.step step).1.Tidy := by
  rw [Tidy, errors_step]
  exact Registry.distinct_run h _

lemma Tidy.attempt (h : s.Tidy) (steps : List Step) : (s.attempt steps).1.Tidy := by
  induction steps generalizing s with
  | nil => exact h
  | cons step steps ih =>
      cases houtcome : (s.step step).2.outcome with
      | aborted why =>
          rw [attempt_aborted houtcome]
          exact h.step step
      | returned a =>
          rw [attempt_returned houtcome]
          exact ih (h.step step)

lemma Tidy.post (h : s.Tidy) (vm : Handle) (text : String) : (s.post vm text).1.Tidy := by
  rw [(post_eq s vm text).1]
  exact h.step _

namespace Session

open ProcessWide

variable {react : Reaction} {hosts : List Host} {session last next : Session} {i : Nat}
  {step : Step} {steps : List (Nat × Step)} {answer : Outcome Answer}
  {answers : List (Outcome Answer)}

lemma tidy_after (h : s.Tidy) (hosts : List Host) (step : Step) : (step.after hosts s).Tidy := by
  cases step with
  | plain p => exact h.step p
  | report | reportTypeError =>
      simp only [Step.after]
      split
      · exact h.post _ _
      · exact h
  | typeErrorText | lastError | fork | create => exact h

lemma tidy_step (hall : ∀ s ∈ session.states, s.Tidy)
    (h : session.step react hosts i step = .ok (next, answer)) : ∀ s ∈ next.states, s.Tidy := by
  obtain ⟨s, hs, -⟩ := step_cases h
  have htidy : s.Tidy := hall s (List.mem_of_getElem? hs)
  intro t ht
  rw [(step_effect h hs).1] at ht
  rcases List.mem_append.mp ht with hset | hadded
  · rcases List.mem_or_eq_of_mem_set hset with hold | rfl
    · exact hall t hold
    · exact tidy_after htidy hosts step
  · cases step with
    | fork => exact List.mem_singleton.mp hadded ▸ htidy
    | create => exact List.mem_singleton.mp hadded ▸ tidy_initial
    | _ => cases hadded

/-- No key stands twice in any state of a session. -/
lemma tidy_run (hall : ∀ s ∈ session.states, s.Tidy)
    (h : session.run react hosts steps = .ok (last, answers)) : ∀ s ∈ last.states, s.Tidy := by
  induction steps generalizing session answers with
  | nil =>
      cases h
      exact hall
  | cons x steps ih =>
      obtain ⟨next, answer, rest, hstep, hrest, -⟩ := run_cons_eq_ok h
      exact ih (tidy_step hall hstep) hrest

lemma tidy_start (config : Option Config) : ∀ s ∈ (start config).states, s.Tidy := by
  intro s hs
  cases config with
  | none => exact List.mem_singleton.mp hs ▸ tidy_initial
  | some c => exact List.mem_singleton.mp hs ▸ tidy_initial.step (.configure c)

end Session

end Binding

namespace ProcessWide

variable {s : Binding}

lemma Primitive.tidy_step (h : s.Tidy) (p : Primitive) : (p.step s).1.Tidy := by
  cases p with
  | plain p => exact h.step p
  | block ps _ => exact h.attempt ps
  | record vm text _ => exact h.step (.throwText vm text)
  | settled _ => exact h

lemma Primitive.tidy_run (h : s.Tidy) (ps : List Primitive) : (Primitive.run s ps).1.Tidy := by
  induction ps generalizing s with
  | nil => exact h
  | cons p ps ih => exact ih (tidy_step h p)

/-- No key stands twice in the state of the process, whatever reactions do. -/
lemma tidy_run {hosts : List Host} {depth : Nat} {w w' : World} {steps : List Step}
    {answers : List (Outcome Answer)} (htidy : w.cell.state.Tidy)
    (h : run hosts depth w steps = .ok (w', answers)) : w'.cell.state.Tidy := by
  obtain ⟨ps, -, hrun, -⟩ := runWith_flattens (step_flattens depth) h
  have hstate : (Primitive.run w.cell.state ps).1 = w'.cell.state := congrArg Prod.fst hrun
  rw [← hstate]
  exact Primitive.tidy_run htidy ps

end ProcessWide

namespace Registry

/-- The registries of VMs that there can be: those of a history, in which they may be copied, those
in the states of a session, and the one in the process. -/
inductive Arises : Registry Handle → Prop
  | history (mode : Mode) (steps : List (Step Handle)) : Arises ((empty mode).run steps).1
  | copies {mode : Mode} {steps : List (Nat × Session.Step Handle)} {last : Session Handle}
      {replies : List (Reply (Event Handle) (Session.Answer Handle))} {r : Registry Handle}
      (run : Session.run? [empty mode] steps = some (last, replies)) (mem : r ∈ last) : Arises r
  | session {config : Option Config} {react : ProcessWide.Reaction}
      {hosts : List ProcessWide.Host} {steps : List (Nat × Binding.Session.Step)}
      {last : Binding.Session} {answers : List (Outcome Binding.Session.Answer)} {s : Binding}
      (run : (Binding.Session.start config).run react hosts steps = .ok (last, answers))
      (mem : s ∈ last.states) : Arises s.errors
  | process {hosts : List ProcessWide.Host} {depth : Nat} {steps : List ProcessWide.Step}
      {w : ProcessWide.World} {answers : List (Outcome ProcessWide.Answer)}
      (run : ProcessWide.run hosts depth .fresh steps = .ok (w, answers)) :
      Arises w.cell.state.errors

/-- **No key stands twice** in a registry that arises. -/
theorem Arises.distinct {r : Registry Handle} (h : r.Arises) : r.pending.Distinct := by
  cases h with
  | history mode steps => exact distinct_run Table.distinct_empty steps
  | copies run mem =>
      refine Session.distinct_run? ?_ run r mem
      exact List.forall_mem_singleton.mpr Table.distinct_empty
  | session run mem => exact Binding.Session.tidy_run (Binding.Session.tidy_start _) run _ mem
  | process run => exact ProcessWide.tidy_run Binding.tidy_initial run

end Registry

end ScriptBinding
