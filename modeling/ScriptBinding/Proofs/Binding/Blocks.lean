import ScriptBinding.Proofs.Binding.FirstWins

/-
Blocks of operations, one operation at a time.

* `carried`: the operations of a block that are carried out.
* `Event.through`: an event as another layer tells it; `through_step`: no operation
  on a state speaks for a layer.
* `Mark.raises`: what was raised, and where; with `Mark.conversions` and
  `Mark.events` it is all that marks show.
* `Session.Tells`, `Session.run_carried`: a state of a session that is given these
  operations ends as the block does, and shows the same.
-/
namespace ScriptBinding

/-- An event as it is told when the report came another way. -/
def Event.through (layer : Layer) : Event → Event
  | raising _ vm m => raising layer vm m
  | e => e

namespace ProcessWide.Mark

/-- The VM object and the message of a mark, if one was raised. -/
def raised? : Mark → Option (Nat × String)
  | raised vm m => some (vm, m)
  | _ => none

/-- What was raised among marks, and in which VM objects. -/
def raises (marks : List Mark) : List (Nat × String) :=
  marks.filterMap raised?

section Parts

variable {α : Type} (marks others : List Mark) (events : List Event) (r : Reply Event α)

@[simp] lemma conversions_append :
    conversions (marks ++ others) = conversions marks + conversions others :=
  List.count_append

@[simp] lemma events_append :
    Mark.events (marks ++ others) = Mark.events marks ++ Mark.events others :=
  List.filterMap_append

@[simp] lemma raises_append : raises (marks ++ others) = raises marks ++ raises others :=
  List.filterMap_append

@[simp] lemma conversions_logged : conversions (events.map logged) = 0 := by
  simp [conversions, List.count_eq_zero]

@[simp] lemma events_logged : Mark.events (events.map logged) = events := by
  simp [Mark.events, List.filterMap_map, Function.comp_def, event?]

@[simp] lemma raises_logged : raises (events.map logged) = [] := by
  simp [raises, raised?]

@[simp] lemma conversions_ofReply : conversions (ofReply r) = r.conversions := by
  rw [ofReply, conversions_append, conversions_logged]
  simp [conversions]

@[simp] lemma events_ofReply : Mark.events (ofReply r) = r.events := by
  rw [ofReply, events_append, events_logged]
  simp [Mark.events, event?]

@[simp] lemma raises_ofReply : raises (ofReply r) = [] := by
  rw [ofReply, raises_append, raises_logged]
  simp [raises, raised?]

/-- What was raised in one VM object, among all that was raised. -/
lemma filterMap_raisedIn? (vm : Nat) :
    marks.filterMap (raisedIn? vm) = ((raises marks).filter (·.1 = vm)).map (·.2) := by
  induction marks with
  | nil => rfl
  | cons m marks ih =>
      cases m with
      | converted | logged => exact ih
      | raised v text =>
          by_cases hv : v = vm
          · simp [raises, raised?, raisedIn?, hv] at ih ⊢
            exact ih
          · simp [raises, raised?, raisedIn?, hv] at ih ⊢
            exact ih

end Parts

end ProcessWide.Mark

namespace Binding

open ProcessWide

/-- The operations of a block that are carried out: those up to the first one to
abort. -/
def carried (s : Binding) : List Step → List Step
  | [] => []
  | step :: steps =>
    if (s.step step).2.outcome.isAborted then [step] else step :: (s.step step).1.carried steps

/-- A block whose first operation aborts. -/
lemma attempt_aborted {s : Binding} {step : Step} {why : String}
    (h : (s.step step).2.outcome = .aborted why) (steps : List Step) :
    s.attempt (step :: steps) = ((s.step step).1, ⟨.aborted why, (s.step step).2.conversions,
      (s.step step).2.events⟩) := by
  rcases hstep : s.step step with ⟨s', outcome, conversions, events⟩
  rw [hstep] at h
  cases h
  rw [attempt, hstep]

/-- A block whose first operation returns. -/
lemma attempt_returned {s : Binding} {step : Step} {a : Answer}
    (h : (s.step step).2.outcome = .returned a) (steps : List Step) :
    s.attempt (step :: steps) = (((s.step step).1.attempt steps).1,
      ⟨((s.step step).1.attempt steps).2.outcome.map (a :: ·),
        (s.step step).2.conversions + ((s.step step).1.attempt steps).2.conversions,
        (s.step step).2.events ++ ((s.step step).1.attempt steps).2.events⟩) := by
  rcases hstep : s.step step with ⟨s', outcome, conversions, events⟩
  rw [hstep] at h
  cases h
  rw [attempt, hstep]

/-- No operation on a state speaks for a layer. -/
lemma through_step (s : Binding) (step : Step) (layer : Layer) :
    (s.step step).2.events.map (Event.through layer) = (s.step step).2.events := by
  have hregistry : ∀ events : List (Registry.Event Handle),
      (events.map Event.registry).map (Event.through layer) = events.map Event.registry := by
    intro events
    rw [List.map_map]
    rfl
  cases step with
  | throw | throwText | isPending | clear | message | errors => exact hregistry _
  | close vm =>
      show (List.map id _).map _ = List.map id _
      rw [List.map_id]
      exact hregistry _
  | configure c =>
      show (s.configure c).2.map _ = (s.configure c).2
      rw [configure]
      cases c.defaultVm <;> rfl
  | _ => rfl

lemma through_attempt (s : Binding) (steps : List Step) (layer : Layer) :
    (s.attempt steps).2.events.map (Event.through layer) = (s.attempt steps).2.events := by
  induction steps generalizing s with
  | nil => rfl
  | cons step steps ih =>
      cases houtcome : (s.step step).2.outcome with
      | aborted why => rw [attempt_aborted houtcome, through_step]
      | returned a => rw [attempt_returned houtcome, List.map_append, through_step, ih]

namespace Session

variable {react : Reaction} {hosts : List Host} {session session' : Session} {i : Nat}
  {s : Binding}

/-- What the operations of a block answer one by one: all of them return, or the last
one aborts. -/
def Tells (inner : Outcome (List Binding.Answer)) (outcomes : List (Outcome Answer)) : Prop :=
  match inner with
  | .returned as => outcomes = as.map fun a => .returned (.answered (.plain a))
  | .aborted why => ∃ as : List Binding.Answer,
      outcomes = as.map (fun a => .returned (.answered (.plain a))) ++ [.aborted why]

/-- An operation on a state of a session. -/
lemma step_plain (react : Reaction) (hosts : List Host) (hs : session.states[i]? = some s)
    (p : Binding.Step) :
    session.step react hosts i (.plain p)
      = .ok ((session.replace i (s.step p).1).observe (Mark.ofReply (s.step p).2),
        (s.step p).2.outcome.map fun a => .answered (.plain a)) := by
  simp only [step, bind_eq_ok]
  exact ⟨s, stateAt_eq_ok.mpr hs, rfl⟩

/-- A session in which one step is taken. -/
lemma run_singleton {st : Step} {answer : Outcome Answer}
    (h : session.step react hosts i st = .ok (session', answer)) :
    session.run react hosts [(i, st)] = .ok (session', [answer]) := by
  simp only [run, bind_eq_ok]
  exact ⟨_, h, _, rfl, rfl⟩

/-- **A block is the run of the operations that it carries out.** -/
theorem run_carried (react : Reaction) (hosts : List Host) (hs : session.states[i]? = some s)
    (steps : List Binding.Step) :
    ∃ session' outcomes marks,
      session.run react hosts ((s.carried steps).map fun p => (i, .plain p))
        = .ok (session', outcomes)
      ∧ session'.states = session.states.set i (s.attempt steps).1
      ∧ session'.world.trace = session.world.trace ++ marks
      ∧ Mark.conversions marks = (s.attempt steps).2.conversions
      ∧ Mark.events marks = (s.attempt steps).2.events
      ∧ Mark.raises marks = []
      ∧ Tells (s.attempt steps).2.outcome outcomes := by
  induction steps generalizing session s with
  | nil =>
      refine ⟨session, [], [], rfl, ?_, (List.append_nil _).symm, rfl, rfl, rfl, rfl⟩
      obtain ⟨hi, rfl⟩ := List.getElem?_eq_some_iff.mp hs
      exact (List.set_getElem_self hi).symm
  | cons step steps ih =>
      have hfirst := step_plain react hosts hs step
      cases houtcome : (s.step step).2.outcome with
      | aborted why =>
          rw [houtcome] at hfirst
          rw [carried, houtcome, attempt_aborted houtcome]
          exact ⟨_, _, Mark.ofReply (s.step step).2, run_singleton hfirst, rfl, rfl, by simp,
            by simp, by simp, [], rfl⟩
      | returned a =>
          rw [houtcome] at hfirst
          rw [carried, houtcome, attempt_returned houtcome]
          have hnext : ((session.replace i (s.step step).1).observe
              (Mark.ofReply (s.step step).2)).states[i]? = some (s.step step).1 :=
            getElem?_set_of_eq_some hs _
          obtain ⟨session', outcomes, marks, hrun, hstates, htrace, hconversions, hevents, hraises,
            htells⟩ := ih hnext
          refine ⟨session', .returned (.answered (.plain a)) :: outcomes,
            Mark.ofReply (s.step step).2 ++ marks, ?_, ?_, ?_, ?_, ?_, ?_, ?_⟩
          · simp only [Outcome.isAborted, Bool.false_eq_true, if_false, List.map_cons, run,
              bind_eq_ok]
            exact ⟨_, hfirst, _, hrun, rfl⟩
          · rw [hstates]
            exact List.set_set ..
          · rw [htrace]
            exact List.append_assoc _ _ _
          · simp [hconversions]
          · simp [hevents]
          · simp [hraises]
          · cases hinner : ((s.step step).1.attempt steps).2.outcome with
            | returned as =>
                rw [hinner] at htells
                rw [htells]
                rfl
            | aborted why =>
                rw [hinner] at htells
                obtain ⟨as, rfl⟩ := htells
                exact ⟨a :: as, rfl⟩

end Session

end Binding

end ScriptBinding
