import ScriptBinding.Proofs.Binding.Transcript
import ScriptBinding.Proofs.Registry.Logged

/-
What the log tells of binding states.

* `Event.registry?`: the event of a registry among the events of a binding state;
  `filterMap_carried?`, `filter_level`: the others neither carry a message nor warn.
* `Binding.registry_events`, `Takes.registry_events`: a step on a state logs for its registry
  what the operation logs that it amounts to.
* `Turn.account?`: the account of that operation, with the answer of the step.
* `log_tells`: the log of every history tells of its operations on registries; of a registry
  that stands alone, and of those inside binding states.
-/
namespace ScriptBinding

namespace Event

/-- The event of a registry. -/
def registry? : Event → Option (Registry.Event Handle)
  | registry e => some e
  | _ => none

/-- Only events of a registry carry a message. -/
lemma filterMap_carried? (events : List Event) :
    (events.map Event.entry).filterMap (·.carried?)
      = ((events.filterMap registry?).map Registry.Event.entry).filterMap (·.carried?) := by
  induction events with
  | nil => rfl
  | cons e events ih =>
      cases e with
      | registry e =>
          simp only [List.map_cons, List.filterMap_cons, registry?, ih]
          rfl
      | defaultSet vm => exact ih
      | raising layer vm m =>
          cases layer <;> exact ih

/-- Only events of a registry are more than a trace. -/
lemma filter_level (events : List Event) {level : Log.Level} (hlevel : level ≠ .trace) :
    (events.map Event.entry).filter (·.level = level)
      = ((events.filterMap registry?).map Registry.Event.entry).filter (·.level = level) := by
  induction events with
  | nil => rfl
  | cons e events ih =>
      cases e with
      | registry e =>
          simp only [List.map_cons, List.filterMap_cons, registry?, List.filter_cons, ih]
          rfl
      | defaultSet vm | raising layer vm m =>
          have hother : ¬ decide (Log.Level.trace = level) = true :=
            fun h => hlevel (of_decide_eq_true h).symm
          rw [List.map_cons, List.filter_cons]
          exact (if_neg hother).trans ih

/-- Events of a registry only. -/
lemma filterMap_registry (events : List (Registry.Event Handle)) :
    (events.map Event.registry).filterMap registry? = events := by
  induction events with
  | nil => rfl
  | cons e events ih => exact congrArg (e :: ·) ih

end Event

/-- Throwing a text that needs conversion logs what throwing it as it is logs. -/
lemma Registry.events_throw_text {κ : Type} [DecidableEq κ] (r : Registry κ) (k : κ)
    (s : String) : (r.step (.throw k (.text s))).2.events = (r.throwText k s).2.events := by
  have hid : (r.step (.throw k (.text s))).2.events = (r.throw k (.text s)).2.events :=
    List.map_id _
  rw [hid, throw]
  split
  · rename_i hquiet
    obtain ⟨existing, hpeek⟩ := Option.isSome_iff_exists.mp hquiet.1
    rw [throwText, hpeek, hquiet.2]
  · rfl

namespace Binding

/-- An operation logs for the registry what the operation logs that it amounts to. -/
lemma registry_events (s : Binding) (p : Step) :
    (s.step p).2.events.filterMap Event.registry?
      = match p.registry? s.defaultVm.vm with
        | some op => (s.errors.step op).2.events
        | none => [] := by
  cases p with
  | throwText vm text =>
      show _ = (s.errors.step (.throw vm (.text text))).2.events
      rw [Registry.events_throw_text]
      exact Event.filterMap_registry _
  | throw vm m =>
      show _ = ((s.errors.throw vm m).2.events).map id
      rw [List.map_id]
      exact Event.filterMap_registry _
  | isPending | clear | message | errors => exact Event.filterMap_registry _
  | check | defaultVm | setDefault | clearDefault | isEnabled | enable | inspect
  | unaddressed => rfl
  | checkDefault =>
      rw [Step.registry?]
      cases s.defaultVm.vm <;> rfl
  | close vm =>
      show (List.map id (((s.errors.close vm).2.events).map Event.registry)).filterMap _
        = ((s.errors.close vm).2.events).map id
      rw [List.map_id, List.map_id]
      exact Event.filterMap_registry _
  | configure c =>
      show (s.configure c).2.filterMap _ = []
      rw [configure]
      cases c.defaultVm <;> rfl

namespace Session

open ProcessWide

variable {hosts : List Host} {depth : Nat} {session session' : Session} {i : Nat}
  {s : Binding} {step : Step}

/-- What is observed of a report before its VM reacts logs for the registry what the throw of
its text logs. -/
lemma events_posted {host : Host} {text : String} (s : Binding)
    (h : step.reported? hosts = some (host, text)) (default : Option Handle) :
    (Mark.events (step.converted
        ++ (s.post host.vm.handle text).2.events.map .logged)).filterMap Event.registry?
      = match step.registry? hosts default with
        | some op => (s.errors.step op).2.events
        | none => [] := by
  rw [registry?_of_reported h, Mark.events_append, events_converted, List.nil_append,
    Mark.events_logged]
  show _ = (s.errors.step (.throw host.vm.handle (.text text))).2.events
  rw [Registry.events_throw_text]
  exact Event.filterMap_registry _

/-- So does a step, where VMs do nothing when they are raised. -/
lemma Takes.registry_events (hquiet : Quiet hosts)
    (h : Takes (ProcessWide.run hosts depth) hosts session i s step session') {marks : List Mark}
    (hmarks : session'.world.trace = session.world.trace ++ marks) :
    (Mark.events marks).filterMap Event.registry?
      = match step.registry? hosts s.defaultVm.vm with
        | some op => (s.errors.step op).2.events
        | none => [] := by
  cases h with
  | plain p =>
      rw [← List.append_cancel_left hmarks, Mark.events_ofReply]
      exact Binding.registry_events s p
  | failing vm why =>
      rw [← List.append_cancel_left hmarks]
      rfl
  | silent _ _ reported =>
      rw [← List.append_cancel_left hmarks]
      exact events_posted s reported _
  | raising _ found reported _ reaction =>
      obtain rfl := hquiet.eq_of_ok (List.mem_of_getElem? found) reaction
      rw [World.observe, posted, observe, World.observe, List.append_assoc] at hmarks
      rw [← List.append_cancel_left hmarks, Mark.events_append, List.filterMap_append,
        events_posted s reported]
      exact List.append_nil _
  | apart plain target =>
      have hnone : marks = [] := (List.append_cancel_left (List.append_nil _ |>.trans hmarks)).symm
      have hregistry : step.registry? hosts s.defaultVm.vm = none := by
        cases step with
        | plain p => exact absurd rfl (plain p)
        | report | reportTypeError => cases target
        | _ => rfl
      rw [hnone, hregistry]
      rfl

/-- The account of the operation of the registry that a step amounts to, if it amounts to
one, with what the step answered. -/
def Turn.account? (hosts : List Host) (t : Turn) : Option (Registry.Account Handle) :=
  (t.op? hosts).map fun op =>
    ⟨t.before.errors, op, Answer.accepts t.answer, Answer.text? t.answer⟩

/-- Steps answer the truth about the registry. -/
lemma Turn.Taken.sincere {react : Reaction} {t : Turn} {now next : Session}
    (h : t.Taken react hosts now next) {a : Registry.Account Handle}
    (ha : t.account? hosts = some a) : a.Sincere := by
  obtain ⟨op, hop, rfl⟩ := Option.map_eq_some_iff.mp ha
  refine ⟨fun k text hattempt => ?_, fun k hclose => ?_⟩
  · have hoffer : op.offered? k = some text := by
      cases op with
      | throw | tryThrow =>
          cases hattempt
          exact if_pos rfl
      | _ => cases hattempt
    exact accepts_step h.step h.before hop hoffer
  · have hop' : op = .close k := hclose
    subst hop'
    have htext := text?_step h.step h.before hop (decide_eq_true rfl)
    rwa [if_neg nofun] at htext

/-- The log of a turn tells of it. -/
lemma Turn.Taken.tells (hquiet : Quiet hosts) {t : Turn} {now next : Session}
    (h : t.Taken (ProcessWide.run hosts depth) hosts now next) :
    Registry.Tells (t.account? hosts).toList ((Mark.events t.marks).map Event.entry) := by
  have hevents := (step_takes h.step h.before).registry_events hquiet h.marks
  refine .congr ?_ (Event.filterMap_carried? _) fun level => Event.filter_level _
  rw [hevents]
  cases hop : t.op? hosts with
  | none =>
      have hnone : t.step.registry? hosts t.before.defaultVm.vm = none := hop
      rw [Turn.account?, hop, hnone]
      exact .nil
  | some op =>
      have hsome : t.step.registry? hosts t.before.defaultVm.vm = some op := hop
      have haccount : t.account? hosts = some
          ⟨t.before.errors, op, Answer.accepts t.answer, Answer.text? t.answer⟩ := by
        rw [Turn.account?, hop]
        rfl
      rw [haccount, hsome]
      exact Registry.tells_step (h.sincere haccount)

/-! ### Histories -/

lemma tells_turns (hquiet : Quiet hosts) {turns : List Turn}
    (h : ∀ t ∈ turns, ∃ now next, t.Taken (ProcessWide.run hosts depth) hosts now next) :
    Registry.Tells (turns.filterMap (·.account? hosts))
      ((Mark.events (turns.flatMap (·.marks))).map Event.entry) := by
  induction turns with
  | nil => exact .nil
  | cons t turns ih =>
      obtain ⟨⟨now, next, ht⟩, hturns⟩ := List.forall_mem_cons.mp h
      have hcons : (t :: turns).filterMap (·.account? hosts)
          = (t.account? hosts).toList ++ turns.filterMap (·.account? hosts) := by
        cases haccount : t.account? hosts <;> simp [haccount]
      rw [hcons, List.flatMap_cons, Mark.events_append, List.map_append]
      exact (ht.tells hquiet).append (ih hturns)

variable {steps : List (Nat × Step)} {answers : List (Outcome Answer)}

/-- **No error is lost without a word in the log**: the log of every history of a registry
tells of its operations, and so does the log of every history of binding states, where VMs do
nothing when they are raised.  As long as the mode is strict, it carries the texts of all
messages that were handed in, in order; and in any mode, it warns of each throw and report
that was rejected aloud, and names each message that a close handed out. -/
theorem log_tells {κ : Type} [DecidableEq κ] [Key κ] (r : Registry κ)
    (ops : List (Registry.Step κ)) (hquiet : Quiet hosts)
    (h : session.run (ProcessWide.run hosts depth) hosts steps = .ok (session', answers)) :
    ((r.turns ops).map (·.step) = ops ∧ (r.run ops).2 = (r.turns ops).map (·.reply)
      ∧ Registry.Tells ((r.turns ops).map (·.account))
        ((r.run ops).2.flatMap fun reply => reply.events.map Registry.Event.entry))
    ∧ ∃ turns, session.transcript (ProcessWide.run hosts depth) hosts steps = .ok turns
      ∧ turns.map (fun t => ((t.index, t.step), t.answer)) = steps.zip answers
      ∧ session'.world.trace = session.world.trace ++ turns.flatMap (·.marks)
      ∧ Registry.Tells (turns.filterMap (·.account? hosts))
        ((Mark.events (turns.flatMap (·.marks))).map Event.entry) := by
  refine ⟨⟨Registry.steps_turns r ops, Registry.replies_run r ops, Registry.tells_run r ops⟩, ?_⟩
  obtain ⟨turns, hturns, hanswers, htrace, htaken⟩ := hquiet.transcript_run h
  exact ⟨turns, hturns, hanswers, htrace, tells_turns hquiet htaken⟩

/-- Attempts that are recorded, rejected, refused without a word, and aborted, and a VM that is
closed while one is pending. -/
def strictSteps : List (Nat × Step) :=
  [(0, .report 0 (.text "first")), (0, .report 1 (.text "second")),
    (0, .plain (.errors (.tryThrow .one (.text "third")))),
    (0, .plain (.throw .one (.failing "no text"))), (0, .plain (.close .one)),
    (0, .report 1 (.text "fourth"))]

/-- In strict mode the log carries what was recorded and what was rejected. -/
theorem log_tells_strict :
    Quiet aliased ∧ ∃ x turns, (start (some { throwMode := .strict })).run
        (ProcessWide.run aliased 0) aliased strictSteps = .ok x
      ∧ (start (some { throwMode := .strict })).transcript (ProcessWide.run aliased 0) aliased
          strictSteps = .ok turns
      ∧ Registry.Tells (turns.filterMap (·.account? aliased))
        ((Mark.events (turns.flatMap (·.marks))).map Event.entry)
      ∧ (turns.filterMap (·.account? aliased)).filterMap (·.handed?) = ["first", "second", "fourth"]
      ∧ ((turns.filterMap (·.account? aliased)).filter (·.aloud)).length = 1
      ∧ ((turns.filterMap (·.account? aliased)).filter (·.undrained)).length = 1 := by
  have hquiet : Quiet aliased := by decide
  obtain ⟨x, hx⟩ : ∃ x, (start (some { throwMode := .strict })).run
      (ProcessWide.run aliased 0) aliased strictSteps = .ok x := ⟨_, rfl⟩
  obtain ⟨-, turns, hturns, -, -, htells⟩ :=
    log_tells (.empty .strict : Registry Bool)
      [.throw true (.text "first"), .throw true (.text "second")] hquiet hx
  refine ⟨hquiet, x, turns, hx, hturns, htells, ?_⟩
  cases hturns
  exact ⟨rfl, rfl, rfl⟩

end Session

end Binding

end ScriptBinding
