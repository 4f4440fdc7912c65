import ScriptBinding.Binding.Session
import ScriptBinding.Proofs.ProcessWide.Inversion
import ScriptBinding.Proofs.Registry.FirstWins

/-
The first error wins in the registry inside a binding state, too.

* `Step.registry?`, `Step.defaultAfter`: the operation of the registry that an
  operation on a binding state amounts to, which may depend on the default VM,
  and the default VM after it.
* `Session.reportText_cases`, `Session.step_cases`: what a report through a state, and a
  step on it, can do.
* `Session.history`: the operations on the registry of one of the states.
* `first_error_wins`: what is pending for a key, and what every operation on it
  answers, is decided by the first text offered since it was last drained; in a
  registry, and in a binding state.
-/
namespace ScriptBinding.Binding

/-- The default VM after an operation. -/
def Step.defaultAfter (vm : Option Handle) : Step → Option Handle
  | .setDefault new => some new
  | .clearDefault => none
  | .close closed => if vm = some closed then none else vm
  | .configure c => c.defaultVm.or vm
  | _ => vm

/-- The operation of the registry that an operation amounts to while `default` is
the default VM, if any. -/
def Step.registry? (default : Option Handle) : Step → Option (Registry.Step Handle)
  | .throw vm m => some (.throw vm m)
  | .throwText vm text => some (.throw vm (.text text))
  | .isPending vm => some (.isPending vm)
  | .clear vm => some (.clear vm)
  | .message vm => some (.message vm)
  | .check vm => some (.take vm)
  | .checkDefault => default.map .take
  | .close vm => some (.close vm)
  | .configure c => some (.setMode c.throwMode)
  | .errors step => some step
  | .defaultVm | .setDefault _ | .clearDefault | .isEnabled | .enable _ | .inspect
  | .unaddressed => none

/-- How an operation shows what the registry answers: checks show a message as an
error. -/
def Step.shown : Step → Registry.Answer Handle → Registry.Answer Handle
  | .check _, .found m | .checkDefault, .found m => .ofRefusal (m.map .script)
  | _, a => a

variable {s : Binding} {step : Step}

/-- The default VM is drained where there is one. -/
lemma checkDefault_eq (s : Binding) :
    s.checkDefault = match s.defaultVm.vm with
      | some vm => s.check vm
      | none => (s, some .noDefault) := by
  rw [checkDefault, DefaultVm.require]
  cases s.defaultVm.vm <;> rfl

/-- What an operation does to the registry. -/
lemma errors_step (s : Binding) (step : Step) :
    (s.step step).1.errors = (s.errors.run (step.registry? s.defaultVm.vm).toList).1 := by
  cases step with
  | throwText vm text => exact (Registry.throw_text s.errors vm text).1.symm
  | checkDefault =>
      show s.checkDefault.1.errors = _
      rw [checkDefault_eq]
      cases hvm : s.defaultVm.vm <;> rfl
  | configure c =>
      show (s.configure c).1.errors = _
      rw [configure]
      cases c.defaultVm <;> rfl
  | _ => rfl

/-- What an operation does to the default VM. -/
lemma defaultVm_step (s : Binding) (step : Step) :
    (s.step step).1.defaultVm.vm = step.defaultAfter s.defaultVm.vm := by
  cases step with
  | checkDefault =>
      show s.checkDefault.1.defaultVm.vm = _
      rw [checkDefault_eq]
      cases hvm : s.defaultVm.vm <;> exact hvm
  | close vm =>
      show (s.defaultVm.forget vm).vm = if s.defaultVm.vm = some vm then none else s.defaultVm.vm
      rw [DefaultVm.forget]
      split <;> rfl
  | configure c =>
      show (s.configure c).1.defaultVm.vm = c.defaultVm.or s.defaultVm.vm
      rw [configure]
      cases c.defaultVm <;> rfl
  | _ => rfl

/-- What an operation on a key answers. -/
lemma outcome_step (s : Binding) (step : Step) {op : Registry.Step Handle}
    (hop : step.registry? s.defaultVm.vm = some op) {vm : Handle} (hkey : op.key? = some vm) :
    (s.step step).2.outcome
      = (s.errors.step op).2.outcome.map fun a => .registry (step.shown a) := by
  cases step with
  | isPending | clear | message | check | close =>
      cases hop
      rfl
  | throw vm m =>
      cases hop
      show (s.errors.throw vm m).2.outcome.map _ = ((s.errors.throw vm m).2.outcome.map _).map _
      cases (s.errors.throw vm m).2.outcome <;> rfl
  | throwText vm text =>
      cases hop
      show (s.errors.throwText vm text).2.outcome.map _
        = ((s.errors.throw vm (.text text)).2.outcome.map _).map _
      rw [(Registry.throw_text s.errors vm text).2]
      cases (s.errors.throwText vm text).2.outcome <;> rfl
  | checkDefault =>
      obtain ⟨vm, hvm, rfl⟩ := Option.map_eq_some_iff.mp hop
      show Outcome.returned (Answer.registry (.ofRefusal s.checkDefault.2)) = _
      rw [checkDefault_eq, hvm]
      rfl
  | configure c =>
      cases hop
      cases hkey
  | errors _ =>
      cases hop
      show (s.errors.step op).2.outcome.map _ = (s.errors.step op).2.outcome.map _
      cases (s.errors.step op).2.outcome <;> rfl
  | _ => cases hop

/-! ### Sessions -/

namespace Session

open ProcessWide

/-- The VM object that a step reports to, and the text, where its message
converts. -/
def Step.reported? (hosts : List Host) : Step → Option (Host × String)
  | .report vm (.text s) => hosts[vm]?.map (·, s)
  | .reportTypeError vm index expected =>
      hosts[vm]?.map fun host => (host, host.vm.typeErrorText index expected)
  | _ => none

/-- The operation of the registry that a step amounts to: a report throws its
text. -/
def Step.registry? (hosts : List Host) (default : Option Handle) :
    Step → Option (Registry.Step Handle)
  | .plain step => step.registry? default
  | step => (step.reported? hosts).map fun x => .throw x.1.vm.handle (.text x.2)

/-- The default VM after a step. -/
def Step.defaultAfter (vm : Option Handle) : Step → Option Handle
  | .plain step => step.defaultAfter vm
  | _ => vm

/-- The operations on the registry of the state at an index, which begins with a
default VM or none. -/
def history (hosts : List Host) (i : Nat) :
    Option Handle → List (Nat × Step) → List (Registry.Step Handle)
  | _, [] => []
  | vm, (j, step) :: steps =>
    if j = i then (step.registry? hosts vm).toList ++ history hosts i (step.defaultAfter vm) steps
    else history hosts i vm steps

/-- The default VM of the state at an index after steps. -/
def defaultAfter (i : Nat) (vm : Option Handle) (steps : List (Nat × Step)) : Option Handle :=
  steps.foldl (fun vm x => if x.1 = i then x.2.defaultAfter vm else vm) vm

/-- The answer to a report while `pending` is pending for its VM: whether it is
recorded, or the abort of the VM that it is raised in. -/
def Recorded (host : Host) (pending : Option String) (outcome : Outcome Answer) : Prop :=
  ∃ recorded raised nested last,
    outcome = .returned (.answered (.report recorded raised nested last)) ∧
    (recorded = .returned pending.isNone ∨
      pending = none ∧ ∃ why, host.abort = some why ∧ recorded = .aborted why)

/-- The answer to a step that amounts to an operation of the registry, while
`pending` is pending for its key. -/
def Step.Follows (hosts : List Host) (op : Registry.Step Handle) (mode : Registry.Mode)
    (pending : Option String) : Step → Outcome Answer → Prop
  | .plain step, outcome =>
      (∀ a, outcome = .returned a → ∃ b, op.answer? pending = some b ∧
        a = .answered (.plain (.registry (step.shown b)))) ∧
      ∀ why, outcome = .aborted why ↔ op.abort? mode pending = some why
  | step, outcome =>
      ∀ host text, step.reported? hosts = some (host, text) → Recorded host pending outcome

variable {react : Reaction} {hosts : List Host} {session session' : Session} {i j : Nat}
  {s : Binding} {step : Step} {answer : Outcome Answer}

lemma stateAt_eq_ok : session.stateAt i = .ok s ↔ session.states[i]? = some s := by
  rw [stateAt]
  split
  · rename_i s' hs'
    rw [hs', Option.some_inj]
    exact ⟨fun h => by cases h; rfl, fun h => congrArg _ h⟩
  · rename_i hnone
    rw [hnone]
    exact ⟨nofun, nofun⟩

/-- What a report through a state does: its text is posted in the state, and that is all, or
the text is raised and the VM reacts. -/
lemma reportText_cases {start vm : Nat} {host : Host} {text : String}
    (h : session.reportText react i s start vm host text = .ok (session', answer)) :
    ∃ mid, mid = (session.replace i (s.post host.vm.handle text).1).observe
        ((s.post host.vm.handle text).2.events.map .logged)
      ∧ (((s.post host.vm.handle text).2.forward = false ∧ session' = mid
          ∧ answer = .returned (.answered (reportAnswer mid.world start vm
            (.returned (s.post host.vm.handle text).2.recorded) [])))
        ∨ ((s.post host.vm.handle text).2.forward = true ∧ ∃ world nested,
          react ((mid.world.observe [.logged (.raising .direct host.vm.handle text)]).observe
            [.raised vm text]) host.onRaise = .ok (world, nested)
          ∧ session' = { mid with world := world }
          ∧ answer = .returned (.answered (reportAnswer world start vm (endedBy host.abort
            (.returned (s.post host.vm.handle text).2.recorded)) nested)))) := by
  simp only [reportText_eq_conclude, bind_eq_ok] at h
  obtain ⟨⟨world, concluded⟩, hconclude, h⟩ := h
  cases h
  refine ⟨_, rfl, ?_⟩
  rcases conclude_eq_ok hconclude with ⟨hforward, rfl, rfl⟩ | ⟨hforward, nested, hnested, rfl⟩
  · exact .inl ⟨hforward, rfl, rfl⟩
  · exact .inr ⟨hforward, world, nested, hnested, rfl, rfl⟩

/-- A report through a state records in it, whatever the VM does. -/
lemma reportText_eq_ok {start vm : Nat} {host : Host} {text : String}
    (h : session.reportText react i s start vm host text = .ok (session', answer)) :
    session'.states = session.states.set i (s.post host.vm.handle text).1
      ∧ Recorded host (s.errors.peek host.vm.handle) answer := by
  have hrecorded := recorded_post s host.vm.handle text
  obtain ⟨mid, rfl, ⟨-, rfl, rfl⟩ | ⟨hforward, world, nested, -, rfl, rfl⟩⟩ := reportText_cases h
  · exact ⟨rfl, _, _, _, _, rfl, .inl (by rw [hrecorded])⟩
  · refine ⟨rfl, _, _, _, _, rfl, ?_⟩
    cases habort : host.abort with
    | none => exact .inl (by rw [hrecorded]; rfl)
    | some why =>
        have hnone : s.errors.peek host.vm.handle = none := by
          rw [← Option.isNone_iff_eq_none, ← hrecorded]
          exact (Bool.and_eq_true_iff.mp hforward).1
        exact .inr ⟨hnone, why, rfl, rfl⟩

/-- What a step on a state can do: an operation on it, a report through it, or
nothing to any state there is. -/
lemma step_cases (h : session.step react hosts i step = .ok (session', answer)) :
    ∃ s, session.states[i]? = some s
      ∧ ((∃ p, step = .plain p ∧ session'.states = session.states.set i (s.step p).1
          ∧ answer = (s.step p).2.outcome.map fun a => .answered (.plain a))
        ∨ (∃ host text, (∀ p, step ≠ .plain p) ∧ step.reported? hosts = some (host, text)
          ∧ session'.states = session.states.set i (s.post host.vm.handle text).1
          ∧ Recorded host (s.errors.peek host.vm.handle) answer)
        ∨ ((∀ p, step ≠ .plain p) ∧ step.reported? hosts = none
          ∧ ∃ more, session'.states = session.states ++ more)) := by
  simp only [Session.step, bind_eq_ok] at h
  obtain ⟨s, hstate, h⟩ := h
  refine ⟨s, stateAt_eq_ok.mp hstate, ?_⟩
  cases step with
  | plain p =>
      cases h
      exact .inl ⟨p, rfl, rfl, rfl⟩
  | report vm message =>
      simp only [bind_eq_ok] at h
      obtain ⟨host, hhost, h⟩ := h
      cases message with
      | failing why =>
          cases h
          exact .inr (.inr ⟨nofun, rfl, [], (List.append_nil _).symm⟩)
      | text text =>
          obtain ⟨hstates, hrecorded⟩ := reportText_eq_ok h
          refine .inr (.inl ⟨host, text, nofun, ?_, hstates, hrecorded⟩)
          rw [Step.reported?, hostAt_eq_ok hhost]
          rfl
  | reportTypeError vm index expected =>
      simp only [bind_eq_ok] at h
      obtain ⟨host, hhost, h⟩ := h
      obtain ⟨hstates, hrecorded⟩ := reportText_eq_ok h
      refine .inr (.inl ⟨host, _, nofun, ?_, hstates, hrecorded⟩)
      rw [Step.reported?, hostAt_eq_ok hhost]
      rfl
  | typeErrorText | lastError =>
      simp only [bind_eq_ok] at h
      obtain ⟨host, -, h⟩ := h
      cases h
      exact .inr (.inr ⟨nofun, rfl, [], (List.append_nil _).symm⟩)
  | fork | create =>
      cases h
      exact .inr (.inr ⟨nofun, rfl, _, rfl⟩)

/-- A step that is no operation on its state amounts to what it reports. -/
lemma registry?_of_ne (hosts : List Host) (default : Option Handle)
    (hplain : ∀ p, step ≠ .plain p) :
    step.registry? hosts default
        = (step.reported? hosts).map (fun x => .throw x.1.vm.handle (.text x.2))
      ∧ step.defaultAfter default = default := by
  cases step with
  | plain p => exact absurd rfl (hplain p)
  | _ => exact ⟨rfl, rfl⟩

lemma follows_of_ne {op : Registry.Step Handle} {mode : Registry.Mode} {pending : Option String}
    (hplain : ∀ p, step ≠ .plain p) : step.Follows hosts op mode pending answer ↔
      ∀ host text, step.reported? hosts = some (host, text) → Recorded host pending answer := by
  cases step with
  | plain p => exact absurd rfl (hplain p)
  | _ => exact Iff.rfl

lemma getElem?_set_of_eq_some {xs : List Binding} (hs : xs[i]? = some s) (s' : Binding) :
    (xs.set i s')[i]? = some s' :=
  List.getElem?_set_self (List.getElem?_eq_some_iff.mp hs).1

/-- A step on a state changes its registry and its default VM as the operation
that it amounts to. -/
lemma state_step (h : session.step react hosts i step = .ok (session', answer))
    (hs : session.states[i]? = some s) : ∃ s', session'.states[i]? = some s'
      ∧ s'.errors = (s.errors.run (step.registry? hosts s.defaultVm.vm).toList).1
      ∧ s'.defaultVm.vm = step.defaultAfter s.defaultVm.vm := by
  obtain ⟨t, ht, hcases⟩ := step_cases h
  rw [hs, Option.some_inj] at ht
  subst ht
  rcases hcases with ⟨p, rfl, hstates, -⟩ | ⟨host, text, hplain, hreported, hstates, -⟩
    | ⟨hplain, hreported, more, hstates⟩
  · rw [hstates]
    exact ⟨_, getElem?_set_of_eq_some hs _, errors_step s p, defaultVm_step s p⟩
  · obtain ⟨hregistry, hdefault⟩ := registry?_of_ne hosts s.defaultVm.vm hplain
    rw [hstates, hregistry, hdefault, hreported]
    exact ⟨_, getElem?_set_of_eq_some hs _, (Registry.throw_text _ _ _).1.symm, rfl⟩
  · obtain ⟨hregistry, hdefault⟩ := registry?_of_ne hosts s.defaultVm.vm hplain
    rw [hstates, hregistry, hdefault, hreported]
    exact ⟨s, by rw [List.getElem?_append_left (List.getElem?_eq_some_iff.mp hs).1, hs], rfl, rfl⟩

/-- A step answers by the rule. -/
lemma follows_step (h : session.step react hosts i step = .ok (session', answer))
    (hs : session.states[i]? = some s) {op : Registry.Step Handle}
    (hop : step.registry? hosts s.defaultVm.vm = some op) {vm : Handle} (hkey : op.key? = some vm) :
    step.Follows hosts op s.errors.mode (s.errors.peek vm) answer := by
  obtain ⟨t, ht, hcases⟩ := step_cases h
  rw [hs, Option.some_inj] at ht
  subst ht
  rcases hcases with ⟨p, rfl, -, hanswer⟩ | ⟨host, text, hplain, hreported, -, hrecorded⟩
    | ⟨hplain, hreported, -⟩
  · obtain ⟨hreturned, haborted⟩ := Registry.outcome_step s.errors hkey
    rw [Step.Follows, hanswer, outcome_step s p hop hkey]
    cases houtcome : (s.errors.step op).2.outcome with
    | returned b =>
        refine ⟨fun a ha => ?_, fun why => ?_⟩
        · cases ha
          exact ⟨b, hreturned b houtcome, rfl⟩
        · rw [← haborted, houtcome]
          exact ⟨nofun, nofun⟩
    | aborted why =>
        refine ⟨nofun, fun why' => ?_⟩
        rw [← haborted, houtcome]
        exact ⟨fun ha => by cases ha; rfl, fun ha => by cases ha; rfl⟩
  · rw [(registry?_of_ne hosts s.defaultVm.vm hplain).1, hreported] at hop
    cases hop
    cases hkey
    refine (follows_of_ne hplain).mpr ?_
    intro host' text' hreported'
    rw [hreported] at hreported'
    cases hreported'
    exact hrecorded
  · rw [(registry?_of_ne hosts s.defaultVm.vm hplain).1, hreported] at hop
    cases hop

/-- A step leaves the other states alone. -/
lemma step_other (h : session.step react hosts j step = .ok (session', answer)) (hij : j ≠ i)
    (hs : session.states[i]? = some s) : session'.states[i]? = some s := by
  obtain ⟨t, ht, hcases⟩ := step_cases h
  rcases hcases with ⟨p, -, hstates, -⟩ | ⟨host, text, -, -, hstates, -⟩ | ⟨-, -, more, hstates⟩
  · rw [hstates, List.getElem?_set_ne hij, hs]
  · rw [hstates, List.getElem?_set_ne hij, hs]
  · rw [hstates, List.getElem?_append_left (List.getElem?_eq_some_iff.mp hs).1, hs]

/-! ### Histories of sessions -/

variable {steps before after : List (Nat × Step)} {answers : List (Outcome Answer)}

lemma run_cons_eq_ok (h : session.run react hosts ((j, step) :: steps) = .ok (session', answers)) :
    ∃ mid answer rest, session.step react hosts j step = .ok (mid, answer)
      ∧ mid.run react hosts steps = .ok (session', rest) ∧ answers = answer :: rest := by
  simp only [run, bind_eq_ok] at h
  obtain ⟨⟨mid, answer⟩, hstep, ⟨_, rest⟩, hrest, h⟩ := h
  cases h
  exact ⟨mid, answer, rest, hstep, hrest, rfl⟩

/-- The registry of a state has the history of the operations on it, whatever
happens to other states and in the process. -/
lemma state_run (h : session.run react hosts steps = .ok (session', answers))
    (hs : session.states[i]? = some s) : ∃ s', session'.states[i]? = some s'
      ∧ s'.errors = (s.errors.run (history hosts i s.defaultVm.vm steps)).1
      ∧ s'.defaultVm.vm = defaultAfter i s.defaultVm.vm steps := by
  induction steps generalizing session s answers with
  | nil =>
      cases h
      exact ⟨s, hs, rfl, rfl⟩
  | cons x steps ih =>
      obtain ⟨j, step⟩ := x
      obtain ⟨mid, answer, rest, hstep, hrest, -⟩ := run_cons_eq_ok h
      by_cases hij : j = i
      · subst hij
        obtain ⟨t, ht, herrors, hdefault⟩ := state_step hstep hs
        obtain ⟨s', hs', herrors', hdefault'⟩ := ih hrest ht
        refine ⟨s', hs', ?_, ?_⟩
        · rw [herrors', herrors, hdefault, history, if_pos rfl, Registry.run_append]
        · rw [hdefault', hdefault, defaultAfter, defaultAfter, List.foldl_cons, if_pos rfl]
      · obtain ⟨s', hs', herrors', hdefault'⟩ := ih hrest (step_other hstep hij hs)
        refine ⟨s', hs', ?_, ?_⟩
        · rw [herrors', history, if_neg hij]
        · rw [hdefault', defaultAfter, defaultAfter, List.foldl_cons, if_neg hij]

/-- A history up to one of its steps. -/
lemma run_split
    (h : session.run react hosts (before ++ (i, step) :: after) = .ok (session', answers)) :
    ∃ mid next earlier answer, session.run react hosts before = .ok (mid, earlier)
      ∧ mid.step react hosts i step = .ok (next, answer)
      ∧ answers[before.length]? = some answer := by
  induction before generalizing session answers with
  | nil =>
      obtain ⟨next, answer, rest, hstep, -, rfl⟩ := run_cons_eq_ok h
      exact ⟨session, next, [], answer, rfl, hstep, rfl⟩
  | cons x before ih =>
      obtain ⟨mid₁, answer₁, rest₁, hstep₁, hrest₁, rfl⟩ := run_cons_eq_ok h
      obtain ⟨mid, next, earlier, answer, hbefore, hstep, hanswer⟩ := ih hrest₁
      refine ⟨mid, next, answer₁ :: earlier, answer, ?_, hstep, hanswer⟩
      simp only [run, bind_eq_ok]
      exact ⟨_, hstep₁, _, hbefore, rfl⟩

/-- **The first error wins**, for each key and over every history: in a registry,
and in the registry inside a binding state of a session. -/
theorem first_error_wins {κ : Type} [DecidableEq κ] (mode : Registry.Mode)
    (ops : List (Registry.Step κ)) (k : κ) {mode' : Registry.Mode}
    (hs : session.states[i]? = some s) (hempty : s.errors = .empty mode')
    (hrun : session.run react hosts steps = .ok (session', answers)) (vm : Handle) :
    (((Registry.empty mode).run ops).1.peek k = Registry.firstSince k ops
      ∧ (∀ other : Registry.Mode,
          ((Registry.empty other).run (ops.filter (·.key? = some k))).1.peek k
            = Registry.firstSince k ops)
      ∧ ∀ before op after, ops = before ++ op :: after → op.key? = some k →
          ∃ reply, ((Registry.empty mode).run ops).2[before.length]? = some reply
            ∧ (∀ a, reply.outcome = .returned a →
                op.answer? (Registry.firstSince k before) = some a)
            ∧ ∀ why, reply.outcome = .aborted why ↔
                op.abort? (Registry.modeAfter mode before) (Registry.firstSince k before)
                  = some why)
    ∧ ∃ s', session'.states[i]? = some s'
      ∧ s'.errors.peek vm = Registry.firstSince vm (history hosts i s.defaultVm.vm steps)
      ∧ ∀ before step after op, steps = before ++ (i, step) :: after →
          step.registry? hosts (defaultAfter i s.defaultVm.vm before) = some op →
          op.key? = some vm →
          ∃ answer, answers[before.length]? = some answer
            ∧ step.Follows hosts op
                (Registry.modeAfter mode' (history hosts i s.defaultVm.vm before))
                (Registry.firstSince vm (history hosts i s.defaultVm.vm before)) answer := by
  refine ⟨⟨Registry.peek_run mode ops k, fun other => ?_, ?_⟩, ?_⟩
  · rw [Registry.peek_run, Registry.firstSince_filter]
  · intro before op after hops hkey
    exact Registry.outcome_run mode hops hkey
  · obtain ⟨s', hs', herrors, -⟩ := state_run hrun hs
    refine ⟨s', hs', by rw [herrors, hempty, Registry.peek_run], ?_⟩
    rintro before step after op rfl hop hkey
    obtain ⟨mid, next, earlier, answer, hbefore, hstep, hanswer⟩ := run_split hrun
    obtain ⟨t, ht, herrors, hdefault⟩ := state_run hbefore hs
    rw [← hdefault] at hop
    have hfollows := follows_step hstep ht hop hkey
    rw [herrors, hempty, Registry.peek_run, Registry.mode_run] at hfollows
    exact ⟨answer, hanswer, hfollows⟩

/-- A text thrown in strict mode stands against one that is tried; a report is
refused while a message is pending, and recorded again after a check. -/
theorem first_error_wins_reported :
    ((Registry.empty .strict).run [.throw 1 (.text "first"), .throw 2 (.failing "no text"),
        .tryThrow 1 (.text "second")]).1.peek 1 = some "first"
      ∧ ∃ x, (start none).run (ProcessWide.run [⟨⟨⟨1, by decide⟩, .typeNames []⟩, [], none⟩] 1)
          [⟨⟨⟨1, by decide⟩, .typeNames []⟩, [], none⟩]
          [(0, .plain (.throw ⟨1, by decide⟩ (.text "first"))), (0, .report 0 (.text "second")),
            (0, .plain (.check ⟨1, by decide⟩)), (0, .report 0 (.text ""))] = .ok x
        ∧ ∃ s', x.1.states[0]? = some s' ∧ s'.errors.peek ⟨1, by decide⟩ = some "" := by
  obtain ⟨x, hx⟩ : ∃ x, (start none).run
      (ProcessWide.run [⟨⟨⟨1, by decide⟩, .typeNames []⟩, [], none⟩] 1)
      [⟨⟨⟨1, by decide⟩, .typeNames []⟩, [], none⟩]
      [(0, .plain (.throw ⟨1, by decide⟩ (.text "first"))), (0, .report 0 (.text "second")),
        (0, .plain (.check ⟨1, by decide⟩)), (0, .report 0 (.text ""))] = .ok x := ⟨_, rfl⟩
  have hs : (start none).states[0]? = some .initial := rfl
  obtain ⟨⟨hregistry, -, -⟩, s', hs', hpending, -⟩ := first_error_wins .strict
    [.throw 1 (.text "first"), .throw 2 (.failing "no text"), .tryThrow 1 (.text "second")] 1
    hs rfl hx ⟨1, by decide⟩
  exact ⟨hregistry, x, hx, s', hs', hpending⟩

end Session

end ScriptBinding.Binding
