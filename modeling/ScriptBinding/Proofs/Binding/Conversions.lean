import ScriptBinding.Proofs.Binding.Transcript
import ScriptBinding.Proofs.Registry.Conversions

/-
Which messages binding states convert, and what a conversion that fails does to a session.

* `Binding.Step.given?`: the operation of the registry that an operation hands its message to;
  `step_given`: it does what that one does.
* `Step.offers`, `Step.failure?`: the attempts that a step makes, and what the conversion of its
  message aborts with.
* `Session.Careful`: how the steps of a session treat the messages that they are given;
  `careful`: all of them do.
* `Step.reaction`, `Takes.conversions`: a step converts the messages of its attempts, and what
  else is converted is converted by the reaction that it calls for.
-/
namespace ScriptBinding

/-- The answer to a report that raised nothing, after its message was converted. -/
lemma ProcessWide.reportAnswer_converted (w : World) (vm : Nat) (recorded : Outcome Bool) :
    reportAnswer (w.observe [.converted]) w.trace.length vm recorded []
      = .report recorded [] [] (w.errorsOf vm).lastText := by
  have hlast : (w.observe [.converted]).errorsOf vm = w.errorsOf vm :=
    List.filterMap_append.trans (List.append_nil _)
  rw [reportAnswer, hlast, World.since, World.observe, List.drop_left]
  rfl

namespace Binding

/-- The operation of the registry that an operation hands its message to, as it was given. -/
def Step.given? : Step → Option (Registry.Step Handle)
  | .throw vm m => some (.throw vm m)
  | .errors op => some op
  | _ => none

/-- The attempts that an operation makes, each as whether it is dropped unseen.  A text that is
thrown as it is has nothing to convert, and is not one of them. -/
def Step.offers (s : Binding) (p : Step) : List Bool :=
  p.given?.toList.flatMap (·.offers s.errors)

/-- What the conversion of the message aborts with, where an operation converts one. -/
def Step.failure? (s : Binding) (p : Step) : Option String :=
  p.given?.bind (·.failure? s.errors)

variable {s : Binding} {p : Step} {op : Registry.Step Handle} {why : String}

/-- An operation does what the operation of the registry does that it hands its message to. -/
lemma step_given (h : p.given? = some op) :
    s.step p = s.onErrors (s.errors.step op) .registry := by
  cases p with
  | throw vm m =>
      cases h
      rw [step, Registry.step]
      rcases s.errors.throw vm m with ⟨r, outcome, conversions, events⟩
      cases outcome <;> simp [onErrors, Reply.map, Outcome.map]
  | errors step =>
      cases h
      rfl
  | _ => cases h

/-- An operation converts the message of each attempt that it makes, unless it is dropped
unseen. -/
lemma conversions_step (s : Binding) (p : Step) :
    (s.step p).2.conversions = (p.offers s).count false := by
  cases hgiven : p.given? with
  | some op =>
      rw [step_given hgiven, Step.offers, hgiven]
      show (s.errors.step op).2.conversions = _
      rw [Registry.conversions_step]
      simp
  | none =>
      rw [Step.offers, hgiven]
      show (s.step p).2.conversions = 0
      cases p with
      | throw | errors => cases hgiven
      | throwText vm text =>
          show (s.errors.throwText vm text).2.conversions = 0
          rw [Registry.throwText]
          cases s.errors.peek vm <;> rfl
      | _ => rfl

/-- An operation whose message cannot be converted. -/
lemma step_failing (h : p.failure? s = some why) :
    s.step p = (s, { outcome := .aborted why, conversions := 1 }) := by
  obtain ⟨op, hgiven, hop⟩ := Option.bind_eq_some_iff.mp h
  rw [step_given hgiven, Registry.step_failing hop]
  rfl

/-- An operation that is dropped unseen. -/
lemma step_unseen {vm : Handle} {m : Message} (h : p.given? = some (.throw vm m))
    (hpending : s.errors.isPending vm = true) (hmode : s.errors.mode = .firstWins) :
    s.step p = (s, { outcome := .returned (.registry (.flag false)),
                     events := [.registry (.dropped vm)] }) := by
  rw [step_given h, (Registry.careful s.errors (.throw vm m)).dropped vm m rfl hpending hmode]
  rfl

namespace Session

open ProcessWide

/-- The attempts that a step makes, each as whether it is dropped unseen. -/
def Step.offers (s : Binding) : Step → List Bool
  | .plain p => p.offers s
  | .report _ _ => [false]
  | _ => []

/-- What the conversion of the message aborts with, where a step converts one. -/
def Step.failure? (s : Binding) : Step → Option String
  | .plain p => p.failure? s
  | .report _ (.failing why) => some why
  | _ => none

/-- How a step ends whose message cannot be converted: it aborts, a report with nothing raised
in its VM. -/
def Step.failed (session : Session) (why : String) : Step → Outcome Answer
  | .report vm _ => .returned (.answered
      (.report (.aborted why) [] [] (session.world.errorsOf vm).lastText))
  | _ => .aborted why

/-- How the steps on a state of a session treat the messages that they are given. -/
structure Careful (react : Reaction) (hosts : List Host) (session : Session) (i : Nat)
    (s : Binding) : Prop where
  /-- A throw while a message is pending, where the first one wins, does not look at it. -/
  dropped : ∀ p vm m, p.given? = some (.throw vm m) → s.errors.isPending vm = true →
    s.errors.mode = .firstWins → session.step react hosts i (.plain p)
      = .ok (session.observe [.logged (.registry (.dropped vm))],
        .returned (.answered (.plain (.registry (.flag false)))))
  /-- Where a conversion aborts, so does the step, and nothing else happens. -/
  atomic : ∀ step why, step.failure? s = some why →
    (∀ vm, step.target? = some vm → vm < hosts.length) → session.step react hosts i step
      = .ok (session.observe [.converted], step.failed session why)

variable {react : Reaction} {hosts : List Host} {session session' : Session} {i : Nat}
  {step : Step}

lemma replace_self (hs : session.states[i]? = some s) : session.replace i s = session := by
  obtain ⟨hi, rfl⟩ := List.getElem?_eq_some_iff.mp hs
  rw [replace, List.set_getElem_self]

/-- **The steps of a session are careful with the messages that they are given.** -/
theorem careful (react : Reaction) (hosts : List Host) (hs : session.states[i]? = some s) :
    session.Careful react hosts i s where
  dropped := by
    intro p vm m hgiven hpending hmode
    rw [step_plain react hosts hs, step_unseen hgiven hpending hmode, replace_self hs]
    rfl
  atomic := by
    intro step why hwhy hvm
    cases step with
    | plain p =>
        rw [step_plain react hosts hs, step_failing hwhy, replace_self hs]
        rfl
    | report vm message =>
        cases message with
        | text => cases hwhy
        | failing why' =>
            cases hwhy
            simp only [Session.step, bind_eq_ok]
            refine ⟨s, stateAt_eq_ok.mpr hs, _, hostAt_of_lt (hvm vm rfl), ?_⟩
            rw [Step.failed, ← reportAnswer_converted]
            rfl
    | _ => cases hwhy

/-! ### Conversions of a step -/

/-- The reaction of a VM that a step calls for. -/
def Step.reaction (hosts : List Host) (s : Binding) (step : Step) : List ProcessWide.Step :=
  match step.reported? hosts with
  | some (host, text) => if (s.post host.vm.handle text).2.forward then host.onRaise else []
  | none => []

/-- A step converts the messages of its attempts, unless they are dropped unseen, and then its
reaction is run in the process as it was, which has no other part in the step. -/
lemma Takes.conversions {depth : Nat}
    (hsteady : Steady (ProcessWide.run hosts depth) hosts)
    (h : Takes (ProcessWide.run hosts depth) hosts session i s step session') :
    ∃ w w' nested marks others, w.cell = session.world.cell
      ∧ ProcessWide.run hosts depth w (step.reaction hosts s) = .ok (w', nested)
      ∧ session'.world.cell = w'.cell
      ∧ session'.world.trace = session.world.trace ++ marks ∧ w'.trace = w.trace ++ others
      ∧ Mark.conversions marks = (step.offers s).count false + Mark.conversions others := by
  have hnone : ∀ w : World, w.trace = w.trace ++ [] := fun w => (List.append_nil _).symm
  -- what a report observes before its VM is involved
  have hposted : ∀ (host : Host) (text : String), step.reported? hosts = some (host, text) →
      Mark.conversions (step.converted ++ (s.post host.vm.handle text).2.events.map .logged)
        = (step.offers s).count false := by
    intro host text hreported
    rw [Mark.conversions_append, Mark.conversions_logged]
    cases step with
    | report | reportTypeError => rfl
    | _ => cases hreported
  cases h with
  | plain p =>
      refine ⟨session.world, session.world, [], _, [], rfl, rfl, rfl, rfl, hnone _, ?_⟩
      rw [Mark.conversions_ofReply]
      exact Binding.conversions_step s p
  | failing vm why =>
      exact ⟨session.world, session.world, [], _, [], rfl, rfl, rfl, rfl, hnone _, rfl⟩
  | silent _ _ reported forward =>
      refine ⟨session.world, session.world, [], _, [], rfl, ?_, rfl, rfl, hnone _,
        hposted _ _ reported⟩
      simp only [Step.reaction, reported, forward]
      rfl
  | @raising _ vm host text world nested _ found reported forward reaction =>
      obtain ⟨⟨others, hothers⟩, -⟩ :=
        hsteady _ (List.mem_of_getElem? found) _ _ _ reaction
      refine ⟨(session.posted i s step host text).world.observe
          (Mark.ofRaise .direct vm host.vm.handle text), world, nested, _, others, rfl, ?_, rfl,
        hothers.trans ((List.append_assoc ..).trans (List.append_assoc ..)), hothers, ?_⟩
      · simp only [Step.reaction, reported, forward]
        exact reaction
      · rw [Mark.conversions_append, hposted host text reported, Mark.conversions_append]
        show _ + (0 + _) = _
        rw [Nat.zero_add]
  | apart plain target =>
      have hquiet : step.reported? hosts = none ∧ step.offers s = [] := by
        cases step with
        | plain p => exact absurd rfl (plain p)
        | report | reportTypeError => cases target
        | _ => exact ⟨rfl, rfl⟩
      refine ⟨session.world, session.world, [], [], [], rfl, ?_, rfl, hnone _, hnone _, ?_⟩
      · rw [Step.reaction, hquiet.1]
        rfl
      · rw [hquiet.2]
        rfl

end Session

end Binding

end ScriptBinding
