import ScriptBinding.Proofs.Binding.Blocks
import ScriptBinding.Proofs.ProcessWide.Flat
import ScriptBinding.Proofs.ProcessWide.Progress

/-
What an execution did to the process-wide state, deed by deed.

* `Deed`: an operation as it happened, with the state before it and the VM that was
  raised right after; `Deed.Removes`: it took away what was pending.
* `Follows`: deeds, each from where the one before it ended; `Follows.removed_between`:
  between two raises of one VM, what was pending for it was removed.
* `chronicle`: the deeds of primitive steps; `follows_chronicle`.
* `raisedAmong`: the VMs that were raised, by the marks of an execution.
* `Unrolls`: an execution so far, perhaps one without an end; `Unrolls.chronicled`: it
  raised the VMs that its chronicle tells of.
* `Step.Opens`: what a step does before the reaction of its VM.
* `run_unrolls`: every execution that comes to an end unrolls until nothing is left.
-/
namespace ScriptBinding.ProcessWide

/-! ### Deeds -/

/-- An operation as it happened: the state it happened in, and the VM that its text was
raised in right after, if it was. -/
structure Deed where
  before : Binding
  step : Binding.Step
  raised : Option Handle := none

namespace Deed

/-- The state that the operation left. -/
def after (d : Deed) : Binding :=
  (d.before.step d.step).1

/-- The operation took away what was pending for a VM. -/
def Removes (vm : Handle) (d : Deed) : Prop :=
  d.before.errors.isPending vm = true ∧ d.after.errors.isPending vm = false

/-- A VM is raised where something was recorded for it, and nothing was pending
before. -/
def Sound (d : Deed) : Prop :=
  ∀ vm, d.raised = some vm →
    d.before.errors.isPending vm = false ∧ d.after.errors.isPending vm = true

end Deed

/-- Deeds that lead from one state to another, each from where the one before it
ended. -/
inductive Follows : Binding → List Deed → Binding → Prop where
  | nil (s : Binding) : Follows s [] s
  | cons {d : Deed} {ds : List Deed} {t : Binding} (sound : d.Sound)
      (rest : Follows d.after ds t) : Follows d.before (d :: ds) t

namespace Follows

variable {s t u : Binding} {xs ys zs ds : List Deed} {d e : Deed} {vm : Handle}

lemma append (h : Follows s xs t) (h' : Follows t ys u) : Follows s (xs ++ ys) u := by
  induction h with
  | nil => exact h'
  | cons sound _ ih => exact .cons sound (ih h')

lemma split (h : Follows s (xs ++ d :: ys) t) :
    Follows s xs d.before ∧ d.Sound ∧ Follows d.after ys t := by
  induction xs generalizing s with
  | nil =>
      cases h with
      | cons sound rest => exact ⟨.nil _, sound, rest⟩
  | cons x xs ih =>
      cases h with
      | cons sound rest =>
          obtain ⟨hxs, hd, hys⟩ := ih rest
          exact ⟨.cons sound hxs, hd, hys⟩

/-- What is pending stays, unless it is removed. -/
lemma removed_or_pending (h : Follows s ds t) (hs : s.errors.isPending vm = true) :
    (∃ r ∈ ds, r.Removes vm) ∨ t.errors.isPending vm = true := by
  induction h with
  | nil => exact .inr hs
  | @cons d ds t sound rest ih =>
      cases hafter : d.after.errors.isPending vm with
      | false => exact .inl ⟨d, .head _, hs, hafter⟩
      | true => exact (ih hafter).imp_left fun ⟨r, hr, hremoves⟩ => ⟨r, .tail _ hr, hremoves⟩

/-- A VM with something pending is raised only after that was removed. -/
lemma removed_before (h : Follows s (xs ++ d :: ys) t) (hd : d.raised = some vm)
    (hs : s.errors.isPending vm = true) : ∃ r ∈ xs, r.Removes vm := by
  obtain ⟨hxs, sound, -⟩ := h.split
  refine (hxs.removed_or_pending hs).resolve_right fun hpending => ?_
  rw [(sound vm hd).1] at hpending
  cases hpending

/-- **Between two raises of one VM, what was pending for it was removed.** -/
lemma removed_between (h : Follows s (xs ++ d :: (ys ++ e :: zs)) t) (hd : d.raised = some vm)
    (he : e.raised = some vm) : ∃ r ∈ ys, r.Removes vm := by
  obtain ⟨-, sound, hrest⟩ := h.split
  exact hrest.removed_before he (sound vm hd).2

end Follows

/-! ### The chronicle of primitive steps -/

/-- Operations one after the other, none of which raises a VM. -/
def deedsOf (s : Binding) : List Binding.Step → List Deed
  | [] => []
  | step :: steps => ⟨s, step, none⟩ :: deedsOf (s.step step).1 steps

/-- The deeds of a primitive step.  A block is the operations that it carries out, and a
record raises its VM where the policy is on and nothing was pending. -/
def Primitive.deeds (s : Binding) : Primitive → List Deed
  | .plain p => [⟨s, p, none⟩]
  | .block ps _ => deedsOf s (s.carried ps)
  | .record vm text _ =>
    [⟨s, .throwText vm text, if (s.post vm text).2.forward then some vm else none⟩]
  | .settled _ => []

/-- The deeds of primitive steps, in the order in which they happen. -/
def chronicle (s : Binding) : List Primitive → List Deed
  | [] => []
  | p :: ps => p.deeds s ++ chronicle (p.step s).1 ps

/-- The VMs raised by deeds. -/
def raisedBy (ds : List Deed) : List Handle :=
  ds.filterMap (·.raised)

variable {s : Binding} {ps qs : List Primitive}

lemma sound_of_quiet (s : Binding) (step : Binding.Step) : Deed.Sound ⟨s, step, none⟩ :=
  nofun

/-- A text that is recorded is pending after that. -/
lemma sound_record (s : Binding) (vm : Handle) (text : String) :
    Deed.Sound ⟨s, .throwText vm text, if (s.post vm text).2.forward then some vm else none⟩ := by
  intro vm' hraised
  split at hraised
  · rename_i hforward
    cases hraised
    have hidle : (s.errors.peek vm).isNone = true := by
      rw [← Binding.recorded_post s vm text]
      exact (Bool.and_eq_true_iff.mp hforward).1
    refine ⟨by simpa [Registry.isPending] using hidle, ?_⟩
    show ((s.errors.throwText vm text).1.peek vm).isSome = true
    rw [Registry.peek_throwText]
    simp
  · cases hraised

lemma follows_carried (s : Binding) (steps : List Binding.Step) :
    Follows s (deedsOf s (s.carried steps)) (s.attempt steps).1 := by
  induction steps generalizing s with
  | nil => exact .nil s
  | cons step steps ih =>
      cases houtcome : (s.step step).2.outcome with
      | aborted why =>
          rw [Binding.carried, houtcome, Binding.attempt_aborted houtcome]
          exact .cons (sound_of_quiet s step) (.nil _)
      | returned a =>
          rw [Binding.carried, houtcome, Binding.attempt_returned houtcome]
          exact .cons (sound_of_quiet s step) (ih _)

lemma follows_deeds (s : Binding) (p : Primitive) : Follows s (p.deeds s) (p.step s).1 := by
  cases p with
  | plain p => exact .cons (sound_of_quiet s p) (.nil _)
  | block ps ending => exact follows_carried s ps
  | record vm text ending => exact .cons (sound_record s vm text) (.nil _)
  | settled outcome => exact .nil s

/-- A chronicle leads to the state that the primitive steps end in. -/
lemma follows_chronicle (s : Binding) (ps : List Primitive) :
    Follows s (chronicle s ps) (Primitive.run s ps).1 := by
  induction ps generalizing s with
  | nil => exact .nil s
  | cons p ps ih => exact (follows_deeds s p).append (ih _)

lemma chronicle_append (s : Binding) (ps qs : List Primitive) :
    chronicle s (ps ++ qs) = chronicle s ps ++ chronicle (Primitive.run s ps).1 qs := by
  induction ps generalizing s with
  | nil => rfl
  | cons p ps ih =>
      rw [List.cons_append, chronicle, ih, chronicle, List.append_assoc]
      rfl

lemma raisedBy_append (xs ys : List Deed) : raisedBy (xs ++ ys) = raisedBy xs ++ raisedBy ys :=
  List.filterMap_append

/-- Operations that are not reports raise nothing. -/
lemma raisedBy_deedsOf (s : Binding) (steps : List Binding.Step) :
    raisedBy (deedsOf s steps) = [] := by
  induction steps generalizing s with
  | nil => rfl
  | cons step steps ih => exact ih _

/-- A record raises its VM where it is to be forwarded. -/
lemma raisedBy_record (s : Binding) (vm : Handle) (text : String) (ending : Option String) :
    raisedBy (chronicle s [.record vm text ending])
      = if (s.post vm text).2.forward then [vm] else [] := by
  simp only [chronicle, Primitive.deeds, raisedBy, List.append_nil]
  split <;> rfl

/-! ### Executions, one step after the other -/

/-- The VMs that were raised, by the marks of an execution. -/
def raisedAmong (hosts : List Host) (marks : List Mark) : List (Option Handle) :=
  (Mark.raises marks).map fun x => hosts[x.1]?.map (·.vm.handle)

/-- A reaction that is put off. -/
def pause : Reaction := fun w _ => .ok (w, [])

/-- An execution of steps so far: the primitive steps that were done, the process then, and
the steps that are left.  Those of a reaction come first, and are taken from the process
that the step leaves that they react to. -/
inductive Unrolls (hosts : List Host) :
    World → List Step → List Primitive → World → List Step → Prop where
  | start (w : World) (steps : List Step) : Unrolls hosts w steps [] w steps
  | next {w w₁ w' : World} {step : Step} {answer : Outcome Answer}
      {steps reaction left : List Step} {ps qs : List Primitive}
      (first : stepWith pause hosts w step = .ok (w₁, answer))
      (expand : step.expand hosts w.cell.state = some (ps, reaction))
      (rest : Unrolls hosts w₁ (reaction ++ steps) qs w' left) :
      Unrolls hosts w (step :: steps) (ps ++ qs) w' left

/-- How a step ends: at once, or as the reaction does of a VM for which a text was recorded
just now. -/
def Step.Leaves (hosts : List Host) (step : Step) (w w₁ : World) (reaction : List Step) : Prop :=
  (reaction = [] ∧ ∃ answer, ∀ react, stepWith react hosts w step = .ok (w₁, answer))
  ∨ ∃ host ∈ hosts, ∃ text, reaction = host.onRaise
    ∧ (w.cell.state.post host.vm.handle text).2.forward = true
    ∧ w₁.cell.state = (w.cell.state.post host.vm.handle text).1
    ∧ ∃ answer : World → List (Outcome Answer) → Outcome Answer, ∀ react,
      stepWith react hosts w step = (react w₁ reaction).map fun x => (x.1, answer x.1 x.2)

/-- What a step does before its reaction: it brings the state to where its primitive steps
lead, and raises the VMs that their chronicle tells of. -/
structure Step.Opens (hosts : List Host) (step : Step) (w : World) (ps : List Primitive)
    (w₁ : World) (reaction : List Step) : Prop where
  expand : step.expand hosts w.cell.state = some (ps, reaction)
  state : w₁.cell.state = (Primitive.run w.cell.state ps).1
  free : w₁.cell.held = false
  trace : ∃ marks, w₁.trace = w.trace ++ marks
    ∧ raisedAmong hosts marks = (raisedBy (chronicle w.cell.state ps)).map some
  leaves : step.Leaves hosts w w₁ reaction

variable {hosts : List Host} {w w₁ w' : World} {step : Step} {steps reaction left : List Step}
  {answer : Outcome Answer} {answers : List (Outcome Answer)} {react : Reaction}

lemma raisedAmong_append (marks others : List Mark) :
    raisedAmong hosts (marks ++ others) = raisedAmong hosts marks ++ raisedAmong hosts others := by
  simp [raisedAmong]

/-! ### One step -/

/-- An operation under the guard. -/
lemma access_opens {p : Primitive} {α : Type} {operate : Binding → Binding × Reply Event α}
    (hfree : w.cell.held = false) (hexpand : step.expand hosts w.cell.state = some ([p], []))
    (hstate : (operate w.cell.state).1 = (p.step w.cell.state).1)
    (hraised : raisedBy (p.deeds w.cell.state) = [])
    (answer : Reply Event α → Outcome Answer)
    (hstep : ∀ react, stepWith react hosts w step = do
      let (w, reply) ← w.access operate Mark.ofReply (·.outcome.isAborted)
      return (w, answer reply)) : ∃ ps w₁ reaction, step.Opens hosts w ps w₁ reaction := by
  obtain ⟨w₁, haccess, hstate₁, hfree₁, htrace⟩ :=
    access_of_free hfree operate Mark.ofReply (·.outcome.isAborted)
  refine ⟨[p], w₁, [], hexpand, hstate₁.trans hstate, hfree₁, ⟨_, htrace, ?_⟩,
    .inl ⟨rfl, answer (operate w.cell.state).2, fun react => ?_⟩⟩
  · rw [raisedAmong, Mark.raises_ofReply, chronicle, raisedBy_append, hraised]
    rfl
  · rw [hstep react, haccess]
    rfl

/-- A step that leaves the state as it is, and raises nothing. -/
lemma asks_opens (hfree : w.cell.held = false) (marks : List Mark) (answer : Outcome Answer)
    (hexpand : step.expand hosts w.cell.state = some (ps, []))
    (hstate : w.cell.state = (Primitive.run w.cell.state ps).1)
    (hraised : raisedBy (chronicle w.cell.state ps) = []) (hquiet : Mark.raises marks = [])
    (hstep : ∀ react, stepWith react hosts w step = .ok (w.observe marks, answer)) :
    ∃ ps w₁ reaction, step.Opens hosts w ps w₁ reaction := by
  refine ⟨ps, w.observe marks, [], hexpand, hstate, hfree, ⟨marks, rfl, ?_⟩,
    .inl ⟨rfl, answer, hstep⟩⟩
  rw [raisedAmong, hquiet, hraised]
  rfl

/-- A report of a text, where it is all that is left to do in a step. -/
lemma reportText_opens {vm : Nat} (hfree : w.cell.held = false) (hvm : vm < hosts.length)
    (start : Nat) (text : String) (marks : List Mark) (hquiet : Mark.raises marks = [])
    (hexpand : step.expand hosts w.cell.state = some (hosts[vm].expand w.cell.state text))
    (hstep : ∀ react, stepWith react hosts w step
      = reportText react (w.observe marks) start vm hosts[vm] text) :
    ∃ ps w₁ reaction, step.Opens hosts w ps w₁ reaction := by
  obtain ⟨w₁, haccess, hstate, hfree₁, htrace⟩ := access_of_free (w := w.observe marks) hfree
    (·.post hosts[vm].vm.handle text) (fun posting => posting.events.map Mark.logged)
    (fun _ => false)
  rw [World.observe, List.append_assoc] at htrace
  have hreport : ∀ react, stepWith react hosts w step
      = conclude react .processWide w₁ start vm hosts[vm] text
        (w.cell.state.post hosts[vm].vm.handle text).2 := by
    intro react
    rw [hstep react, reportText, haccess]
    rfl
  rw [Host.expand_eq] at hexpand
  cases hforward : (w.cell.state.post hosts[vm].vm.handle text).2.forward with
  | false =>
      rw [hforward] at hexpand
      refine ⟨_, w₁, [], hexpand, hstate, hfree₁, ⟨_, htrace, ?_⟩,
        .inl ⟨rfl, _, fun react => (hreport react).trans (conclude_silent hforward)⟩⟩
      rw [raisedBy_record, hforward]
      simp [raisedAmong, hquiet]
  | true =>
      rw [hforward] at hexpand
      have hraise : Mark.raises (Mark.ofRaise .processWide vm hosts[vm].vm.handle text)
          = [(vm, text)] := rfl
      refine ⟨_, w₁.observe (Mark.ofRaise .processWide vm hosts[vm].vm.handle text),
        hosts[vm].onRaise, hexpand, hstate, hfree₁,
        ⟨marks ++ (w.cell.state.post hosts[vm].vm.handle text).2.events.map .logged
          ++ Mark.ofRaise .processWide vm hosts[vm].vm.handle text, ?_, ?_⟩,
        .inr ⟨hosts[vm], List.getElem_mem hvm, text, rfl, hforward, hstate,
          fun w' nested => .returned (reportAnswer w' start vm (endedBy hosts[vm].abort
            (.returned (w.cell.state.post hosts[vm].vm.handle text).2.recorded)) nested),
          fun react => (hreport react).trans (conclude_raising hforward)⟩⟩
      · show w₁.trace ++ _ = _
        rw [htrace, List.append_assoc, List.append_assoc]
      · rw [raisedBy_record, hforward]
        simp [raisedAmong, hquiet, hraise, List.getElem?_eq_getElem hvm]

/-- Wherever the guard is free, a step that names an existing VM object opens. -/
lemma Step.opens (hfree : w.cell.held = false) (hnames : step.Names hosts) :
    ∃ ps w₁ reaction, step.Opens hosts w ps w₁ reaction := by
  cases step with
  | plain p =>
      exact access_opens hfree rfl rfl rfl (·.outcome.map .plain) fun react => rfl
  | block ps ending =>
      refine access_opens hfree rfl ?_ (raisedBy_deedsOf _ _) (·.outcome) fun react => rfl
      rw [attemptBlock_eq]
      rfl
  | report vm message =>
      have hfound := List.getElem?_eq_getElem hnames
      cases message with
      | failing why =>
          have hexpand : (Step.report vm (.failing why)).expand hosts w.cell.state
              = some ([.settled (.aborted why)], []) := by
            rw [Step.expand, hfound]
            rfl
          refine asks_opens hfree [.converted] (.returned
            (reportAnswer (w.observe [.converted]) w.trace.length vm (.aborted why) []))
            hexpand rfl rfl rfl fun react => ?_
          rw [stepWith, hostAt_of_lt hnames]
          rfl
      | text text =>
          have hexpand : (Step.report vm (.text text)).expand hosts w.cell.state
              = some (hosts[vm].expand w.cell.state text) := by
            rw [Step.expand, hfound]
            rfl
          refine reportText_opens hfree hnames w.trace.length text [.converted] rfl hexpand
            fun react => ?_
          rw [stepWith, hostAt_of_lt hnames]
          rfl
  | reportTypeError vm index expected =>
      have hexpand : (Step.reportTypeError vm index expected).expand hosts w.cell.state
          = some (hosts[vm].expand w.cell.state (hosts[vm].vm.typeErrorText index expected)) := by
        rw [Step.expand, List.getElem?_eq_getElem hnames]
        rfl
      refine reportText_opens hfree hnames w.trace.length _ [] rfl hexpand fun react => ?_
      rw [stepWith, hostAt_of_lt hnames, observe_nil]
      rfl
  | typeErrorText vm index expected =>
      have hexpand : (Step.typeErrorText vm index expected).expand hosts w.cell.state
          = some ([.settled (.returned (.text (hosts[vm].vm.typeErrorText index expected)))],
            []) := by
        rw [Step.expand, List.getElem?_eq_getElem hnames]
        rfl
      refine asks_opens hfree [] (.returned (.text (hosts[vm].vm.typeErrorText index expected)))
        hexpand rfl rfl rfl fun react => ?_
      rw [stepWith, hostAt_of_lt hnames, observe_nil]
      rfl
  | lastError vm =>
      have hexpand : (Step.lastError vm).expand hosts w.cell.state = some ([], []) := by
        rw [Step.expand, List.getElem?_eq_getElem hnames]
        rfl
      refine asks_opens hfree [] (.returned (.lastError (w.errorsOf vm).lastText))
        hexpand rfl rfl rfl fun react => ?_
      rw [stepWith, hostAt_of_lt hnames, observe_nil]
      rfl

/-- A step that came to an end names a VM object that exists. -/
lemma names_of_ok (h : stepWith react hosts w step = .ok (w', answer)) : step.Names hosts := by
  cases step with
  | plain | block => trivial
  | report | reportTypeError | typeErrorText | lastError =>
      simp only [stepWith, bind_eq_ok] at h
      obtain ⟨host, hhost, -⟩ := h
      exact (List.getElem?_eq_some_iff.mp (hostAt_eq_ok hhost)).1

/-- A step that came to an end did its own part, and then its reaction came to one. -/
lemma Step.Opens.of_ok (hfree : w.cell.held = false)
    (h : stepWith react hosts w step = .ok (w', answer)) :
    ∃ ps w₁ reaction, step.Opens hosts w ps w₁ reaction
      ∧ (w' = w₁ ∧ reaction = [] ∨ ∃ nested, react w₁ reaction = .ok (w', nested)) := by
  obtain ⟨ps, w₁, reaction, hopens⟩ := Step.opens hfree (names_of_ok h)
  refine ⟨ps, w₁, reaction, hopens, ?_⟩
  rcases hopens.leaves with ⟨hnone, _, hends⟩ | ⟨host, -, text, -, -, -, _, hends⟩
  · rw [hends react] at h
    cases h
    exact .inl ⟨rfl, hnone⟩
  · rw [hends react] at h
    cases hreact : react w₁ reaction with
    | error e =>
        rw [hreact] at h
        cases h
    | ok x =>
        rw [hreact] at h
        cases h
        exact .inr ⟨x.2, rfl⟩

/-- Putting the reaction off leaves what the step does before it. -/
lemma Step.Opens.pause (h : step.Opens hosts w ps w₁ reaction) :
    ∃ answer, stepWith pause hosts w step = .ok (w₁, answer) := by
  rcases h.leaves with ⟨-, answer, hends⟩ | ⟨host, -, text, -, -, -, answer, hends⟩
  · exact ⟨answer, hends _⟩
  · exact ⟨answer w₁ [], hends _⟩

/-- What a step does before its reaction is determined. -/
lemma Step.opens_of_pause (hfree : w.cell.held = false)
    (hpause : stepWith pause hosts w step = .ok (w₁, answer))
    (hexpand : step.expand hosts w.cell.state = some (ps, reaction)) :
    step.Opens hosts w ps w₁ reaction := by
  obtain ⟨ps', w₂, reaction', hopens, -⟩ := Step.Opens.of_ok hfree hpause
  obtain ⟨answer', hpause'⟩ := hopens.pause
  have heq := hopens.expand.symm.trans hexpand
  cases heq
  have heq' := hpause'.symm.trans hpause
  cases heq'
  exact hopens

/-! ### Whole executions -/

/-- An execution goes on with what is left, and then with more steps. -/
lemma Unrolls.append {more left' : List Step} (h : Unrolls hosts w steps ps w₁ left)
    (hmore : Unrolls hosts w₁ (left ++ more) qs w' left') :
    Unrolls hosts w (steps ++ more) (ps ++ qs) w' left' := by
  induction h with
  | start => exact hmore
  | next first expand _ ih =>
      have hrest := ih hmore
      rw [List.append_assoc] at hrest
      rw [List.append_assoc]
      exact .next first expand hrest

/-- So far, an execution brought the state to where its primitive steps lead, and raised
the VMs that their chronicle tells of, in that order. -/
lemma Unrolls.chronicled (h : Unrolls hosts w steps ps w' left) (hfree : w.cell.held = false) :
    w'.cell.state = (Primitive.run w.cell.state ps).1 ∧ w'.cell.held = false
      ∧ ∃ marks, w'.trace = w.trace ++ marks
        ∧ raisedAmong hosts marks = (raisedBy (chronicle w.cell.state ps)).map some := by
  induction h with
  | start w steps => exact ⟨rfl, hfree, [], (List.append_nil _).symm, rfl⟩
  | @next w w₁ w' step answer steps reaction left ps qs first expand rest ih =>
      obtain ⟨-, hstate, hfree₁, ⟨marks, htrace, hraised⟩, -⟩ :=
        Step.opens_of_pause hfree first expand
      obtain ⟨hstate', hfree', others, htrace', hraised'⟩ := ih hfree₁
      rw [hstate] at hstate' hraised'
      refine ⟨?_, hfree', marks ++ others, ?_, ?_⟩
      · rw [hstate', Primitive.run_append]
      · rw [htrace', htrace, List.append_assoc]
      · rw [raisedAmong_append, hraised, hraised', chronicle_append, raisedBy_append,
          List.map_append]

/-- When nothing is left, the primitive steps are those that the steps expand to. -/
lemma Unrolls.expands (h : Unrolls hosts w steps ps w' left) (hfree : w.cell.held = false)
    (hleft : left = []) : Expands hosts w.cell.state steps ps := by
  induction h with
  | start w steps =>
      subst hleft
      exact .nil _
  | next first expand _ ih =>
      obtain ⟨-, hstate, hfree₁, -, -⟩ := Step.opens_of_pause hfree first expand
      exact .cons expand (hstate ▸ ih hfree₁ hleft)

/-- A way to run reactions whose executions unroll. -/
def Unrolling (hosts : List Host) (react : Reaction) : Prop :=
  ∀ ⦃w w' steps answers⦄, w.cell.held = false → react w steps = .ok (w', answers) →
    ∃ ps, Unrolls hosts w steps ps w' []

lemma stepWith_unrolls (hreact : Unrolling hosts react) (hfree : w.cell.held = false)
    (h : stepWith react hosts w step = .ok (w', answer)) :
    ∃ ps, Unrolls hosts w [step] ps w' [] := by
  obtain ⟨ps, w₁, reaction, hopens, ⟨rfl, rfl⟩ | ⟨nested, hnested⟩⟩ := Step.Opens.of_ok hfree h
  · obtain ⟨answer, hpause⟩ := hopens.pause
    exact ⟨ps ++ [], .next hpause hopens.expand (.start _ _)⟩
  · obtain ⟨answer, hpause⟩ := hopens.pause
    obtain ⟨qs, hqs⟩ := hreact hopens.free hnested
    exact ⟨ps ++ qs, .next hpause hopens.expand (by rwa [List.append_nil])⟩

/-- A list of steps unrolls if each of them does. -/
lemma runWith_unrolls {step : World → Step → Except Halt (World × Outcome Answer)}
    (hstep : ∀ {w w' s answer}, w.cell.held = false → step w s = .ok (w', answer) →
      ∃ ps, Unrolls hosts w [s] ps w' []) : Unrolling hosts (runWith step) := by
  intro w w' steps answers hfree h
  induction steps generalizing w answers with
  | nil =>
      cases h
      exact ⟨[], .start _ _⟩
  | cons s steps ih =>
      obtain ⟨w₁, answer, rest, hfirst, hrest, rfl⟩ := runWith_cons_eq_ok h
      obtain ⟨ps, hps⟩ := hstep hfree hfirst
      obtain ⟨qs, hqs⟩ := ih (hps.chronicled hfree).2.1 hrest
      exact ⟨ps ++ qs, hps.append hqs⟩

lemma step_unrolls (depth : Nat) {w w' : World} {step : Step} {answer : Outcome Answer}
    (hfree : w.cell.held = false) (h : ProcessWide.step hosts depth w step = .ok (w', answer)) :
    ∃ ps, Unrolls hosts w [step] ps w' [] := by
  -- reactions run one level deeper, so the induction is on the depth alone
  induction depth generalizing w w' step answer with
  | zero =>
      refine stepWith_unrolls ?_ hfree h
      intro w w' steps answers _ hnone
      cases hnone
  | succ depth ih => exact stepWith_unrolls (runWith_unrolls ih) hfree h

/-- Every execution that comes to an end unrolls until nothing is left. -/
theorem run_unrolls {depth : Nat} (hfree : w.cell.held = false)
    (h : run hosts depth w steps = .ok (w', answers)) : ∃ ps, Unrolls hosts w steps ps w' [] :=
  runWith_unrolls (step_unrolls depth) hfree h

end ScriptBinding.ProcessWide
