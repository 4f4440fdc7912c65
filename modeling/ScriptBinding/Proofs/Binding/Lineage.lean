import ScriptBinding.Proofs.Binding.Effects
import ScriptBinding.Proofs.Registry.Lineage

/-
Copies of binding states are faithful, and go their own way.

* `Session.growths`: what the steps of a session make of its list of states.
* `Session.Alone`: a run of one state on its own; what VM objects do when they are raised does
  not matter to it.
* `Session.Faithful`: every state is that of a run of its line, and answers as that run does;
  `faithful_run`: so it is in every history.
* `Session.Apart`: a step leaves the other states alone, and a copy is what was copied.
* `clones_faithful`: so it is for registries and for binding states.
-/
namespace ScriptBinding

/-- A VM object that does nothing when it is raised, and then perhaps aborts. -/
def ProcessWide.Host.still (host : ProcessWide.Host) : ProcessWide.Host :=
  { host with onRaise := [] }

namespace Binding.Session

open ProcessWide

/-- What a step makes of the list of states. -/
def Step.growth : Step → Growth Binding Step
  | .fork => .copy
  | .create => .fresh .initial
  | step => .act step

/-- What steps make of the list of states, each with the index that it names. -/
def growths (steps : List (Nat × Step)) : List (Nat × Growth Binding Step) :=
  steps.map fun x => (x.1, x.2.growth)

/-- A run of a line on its own, with VM objects that differ in nothing but in what they do when
they are raised. -/
def Alone (hosts : List Host) (l : Line Binding Step) (single : Session)
    (replies : List (Outcome Answer)) : Prop :=
  ∃ hosts' depth w, hosts'.map Host.still = hosts.map Host.still
    ∧ (Session.mk [l.origin] w).run (ProcessWide.run hosts' depth) hosts' (l.acts.map (0, ·))
      = .ok (single, replies)

/-- Two answers to a step that differ at most in what was raised and what the VM objects did
then: reports tell the same of their recording, and nothing is said about last errors. -/
def Step.Same : Step → Outcome Answer → Outcome Answer → Prop
  | .report _ _, answer, reply | .reportTypeError _ _ _, answer, reply =>
    ∃ recorded, Reports recorded answer ∧ Reports recorded reply
  | .lastError _, _, _ => True
  | _, answer, reply => reply = answer

/-- A history in which every state is that of its line, run on its own. -/
structure Faithful (hosts : List Host) (session last : Session) (steps : List (Nat × Step))
    (answers : List (Outcome Answer)) : Prop where
  /-- Every line can be run on its own. -/
  alone : ∀ l ∈ lines session.states (growths steps), ∃ single replies,
    Alone hosts l single replies
  /-- The states after the history. -/
  contents : List.Forall₂ (fun l s => ∀ single replies, Alone hosts l single replies →
    single.states = [s]) (lines session.states (growths steps)) last.states
  /-- The line of a state that was there at the start is what was asked of it. -/
  original : ∀ i s, session.states[i]? = some s →
    (lines session.states (growths steps))[i]? = some (Line.mk s (addressed i (growths steps)))
  /-- The line of a copy is what was asked of the original before, and then of the copy. -/
  copied : ∀ before j after, steps = before ++ (j, .fork) :: after → ∃ n l,
    answers[before.length]? = some (.returned (.index n))
    ∧ (lines session.states (growths before))[j]? = some l
    ∧ (lines session.states (growths steps))[n]? = some (l.extend (addressed n (growths after)))
  /-- A step answers as it does when the line is run. -/
  answers : ∀ before i step after, steps = before ++ (i, step) :: after →
    step.growth = .act step → ∃ l answer,
    (lines session.states (growths before))[i]? = some l
    ∧ (lines session.states (growths steps))[i]?
      = some (l.extend (step :: addressed i (growths after)))
    ∧ answers[before.length]? = some answer
    ∧ ∀ single replies,
      Alone hosts (l.extend (step :: addressed i (growths after))) single replies →
      ∃ reply, replies[l.acts.length]? = some reply ∧ step.Same answer reply

/-- What a step does to the other states, and what a copy is. -/
structure Apart (session next : Session) (i : Nat) (step : Step) : Prop where
  others : ∀ j s, j ≠ i → session.states[j]? = some s → next.states[j]? = some s
  copy : step = .fork → next.states[session.states.length]? = session.states[i]?

variable {react : Reaction} {hosts hosts' : List Host} {session last next single : Session}
  {i n m : Nat} {s : Binding} {step : Step} {steps before after : List (Nat × Step)}
  {acts : List Step} {l : Line Binding Step} {answer reply : Outcome Answer}
  {answers replies : List (Outcome Answer)}

lemma growths_append (before after : List (Nat × Step)) :
    growths (before ++ after) = growths before ++ growths after :=
  List.map_append

lemma growth_eq_act {a : Step} (h : step.growth = .act a) : a = step := by
  cases step with
  | fork | create => cases h
  | _ => exact (Growth.act.inj h).symm

/-! ### One step -/

/-- A step leaves the other states alone. -/
lemma apart_step (h : session.step react hosts i step = .ok (next, answer)) :
    Apart session next i step where
  others j s hji hs := step_other h (Ne.symm hji) hs
  copy := by
    rintro rfl
    obtain ⟨s, hs, -⟩ := step_cases h
    have hlength : session.states.length = (session.states.set i s).length :=
      List.length_set.symm
    rw [(step_effect h hs).1, hs]
    show (session.states.set i s ++ [s])[session.states.length]? = _
    rw [hlength, List.getElem?_concat_length]

/-- What a step makes of the list of states is what it does to the state that it names, or a
state more. -/
lemma step_grows (h : session.step react hosts i step = .ok (next, answer))
    (hs : session.states[i]? = some s) {ys : List Binding}
    (hrest : Grows (fun s step => step.after hosts s) next.states (growths steps) ys) :
    Grows (fun s step => step.after hosts s) session.states (growths ((i, step) :: steps)) ys := by
  have hself : session.states.set i s = session.states := congrArg states (replace_self hs)
  have hstates := (step_effect h hs).1
  have hact : step.added s = [] → Grows (fun s step => step.after hosts s) session.states
      ((i, .act step) :: growths steps) ys := by
    intro hadded
    rw [hadded, List.append_nil] at hstates
    exact .act hs (hstates ▸ hrest)
  cases step with
  | fork =>
      rw [show next.states = session.states.set i s ++ [s] from hstates, hself] at hrest
      exact .copy hs hrest
  | create =>
      rw [show next.states = session.states.set i s ++ [.initial] from hstates, hself] at hrest
      exact .fresh hrest
  | _ => exact hact rfl

/-- Two answers to one step, given on equal states, with VM objects that abort in the same
way. -/
lemma Step.Answers.same (hstill : hosts'.map Host.still = hosts.map Host.still)
    (hact : step.growth = .act step) (h : step.Answers hosts n s answer)
    (h' : step.Answers hosts' m s reply) : step.Same answer reply := by
  have hhosts : ∀ {vm : Nat} {host host' : Host}, hosts[vm]? = some host →
      hosts'[vm]? = some host' → host'.vm = host.vm ∧ host'.abort = host.abort := by
    intro vm host host' hhost hhost'
    have hsame := congrArg (·[vm]?) hstill
    simp only [List.getElem?_map, hhost, hhost', Option.map_some, Option.some_inj, Host.still,
      Host.mk.injEq] at hsame
    exact ⟨hsame.1, hsame.2.2⟩
  have houtcome : ∀ {vm : Nat} {host host' : Host} (text : String), hosts[vm]? = some host →
      hosts'[vm]? = some host' → s.reportOutcome host' text = s.reportOutcome host text := by
    intro vm host host' text hhost hhost'
    obtain ⟨hvm, habort⟩ := hhosts hhost hhost'
    rw [reportOutcome, reportOutcome, hvm, habort]
  cases step with
  | plain p => exact h'.trans h.symm
  | report vm message =>
      cases message with
      | failing why => exact ⟨_, h, h'⟩
      | text text =>
          obtain ⟨host, hhost, hreports⟩ := h
          obtain ⟨host', hhost', hreports'⟩ := h'
          rw [houtcome text hhost hhost'] at hreports'
          exact ⟨_, hreports, hreports'⟩
  | reportTypeError vm index expected =>
      obtain ⟨host, hhost, hreports⟩ := h
      obtain ⟨host', hhost', hreports'⟩ := h'
      rw [(hhosts hhost hhost').1, houtcome _ hhost hhost'] at hreports'
      exact ⟨_, hreports, hreports'⟩
  | typeErrorText vm index expected =>
      obtain ⟨host, hhost, rfl⟩ := h
      obtain ⟨host', hhost', rfl⟩ := h'
      show Outcome.returned (Answer.answered (.text (host'.vm.typeErrorText index expected))) = _
      rw [(hhosts hhost hhost').1]
  | lastError vm => trivial
  | fork | create => cases hact

/-! ### One line on its own -/

/-- What a line makes of the state that it goes back to. -/
def changed (hosts : List Host) (s : Binding) (acts : List Step) : Binding :=
  acts.foldl (fun s step => step.after hosts s) s

/-- A state on its own ends as what its line makes of it. -/
lemma states_run_single (hacts : ∀ step ∈ acts, step.growth = .act step)
    (hs : session.states = [s])
    (h : session.run react hosts (acts.map (0, ·)) = .ok (single, replies)) :
    single.states = [changed hosts s acts] := by
  induction acts generalizing session s replies with
  | nil =>
      cases h
      exact hs
  | cons step acts ih =>
      obtain ⟨hstep, hacts⟩ := List.forall_mem_cons.mp hacts
      obtain ⟨next, answer, rest, hfirst, hrest, -⟩ := run_cons_eq_ok h
      have hnext := (step_effect hfirst (hs ▸ rfl : session.states[0]? = some s)).1
      have hadded : step.added s = [] := by
        cases step with
        | fork | create => cases hstep
        | _ => rfl
      rw [hadded, List.append_nil, hs] at hnext
      exact ih hacts hnext hrest

/-- What VM objects do when they are raised does not matter to it. -/
lemma changed_congr (hstill : hosts'.map Host.still = hosts.map Host.still) (s : Binding)
    (acts : List Step) : changed hosts' s acts = changed hosts s acts := by
  have hvms : hosts'.map (·.vm) = hosts.map (·.vm) := by
    have hmap := congrArg (List.map Host.vm) hstill
    rwa [List.map_map, List.map_map] at hmap
  have hchange : (fun (s : Binding) (step : Step) => step.after hosts' s)
      = fun s step => step.after hosts s :=
    funext fun s => funext fun step => step.after_congr hvms s
  rw [changed, hchange, changed]

/-- What a state on its own answers to one of the steps of its line. -/
lemma answers_run_single {earlier later : List Step}
    (hacts : ∀ step ∈ earlier, step.growth = .act step) (hs : session.states = [s])
    (h : session.run react hosts ((earlier ++ step :: later).map (0, ·)) = .ok (single, replies)) :
    ∃ reply, replies[earlier.length]? = some reply
      ∧ step.Answers hosts 1 (changed hosts s earlier) reply := by
  rw [List.map_append, List.map_cons] at h
  obtain ⟨mid, next, earlier', reply, hbefore, hstep, hreply⟩ := run_split h
  have hmid := states_run_single hacts hs hbefore
  have hzero : mid.states[0]? = some (changed hosts s earlier) := by
    rw [hmid]
    rfl
  have heffect := (step_effect hstep hzero).2
  rw [hmid] at heffect
  rw [List.length_map] at hreply
  exact ⟨reply, hreply, heffect⟩

lemma Step.Names.of_length (h : step.Names hosts) (hlength : hosts'.length = hosts.length) :
    step.Names hosts' := by
  cases step with
  | plain | fork | create => trivial
  | _ => exact Nat.lt_of_lt_of_eq h hlength.symm

/-- Where VMs do nothing when they are raised, steps on the states there are come to an end. -/
lemma run_of_quiet (hquiet : Quiet hosts) (depth : Nat)
    (hsteps : ∀ x ∈ steps, x.1 < session.states.length ∧ x.2.Names hosts) :
    ∃ last answers,
      session.run (ProcessWide.run hosts depth) hosts steps = .ok (last, answers) := by
  induction steps generalizing session with
  | nil => exact ⟨_, _, rfl⟩
  | cons x steps ih =>
      obtain ⟨i, step⟩ := x
      obtain ⟨⟨hi, hnames⟩, hsteps⟩ := List.forall_mem_cons.mp hsteps
      have hs := List.getElem?_eq_getElem hi
      obtain ⟨next, answer, hstep⟩ := step_of_quiet hquiet depth hs hnames
      have hlength : session.states.length ≤ next.states.length := by
        rw [(step_effect hstep hs).1, List.length_append, List.length_set]
        exact Nat.le_add_right _ _
      obtain ⟨last, answers, hrest⟩ := ih fun x hx =>
        ⟨Nat.lt_of_lt_of_le (hsteps x hx).1 hlength, (hsteps x hx).2⟩
      exact ⟨last, _, bind_eq_ok.mpr ⟨_, hstep, bind_eq_ok.mpr ⟨_, hrest, rfl⟩⟩⟩

/-! ### Histories -/

lemma grows_run (h : session.run react hosts steps = .ok (last, answers)) :
    Grows (fun s step => step.after hosts s) session.states (growths steps) last.states := by
  induction steps generalizing session answers with
  | nil =>
      cases h
      exact .nil _
  | cons x steps ih =>
      obtain ⟨i, step⟩ := x
      obtain ⟨next, answer, rest, hstep, hrest, -⟩ := run_cons_eq_ok h
      obtain ⟨s, hs, -⟩ := step_cases hstep
      exact step_grows hstep hs (ih hrest)

/-- The states after a history are what their lines make of the states that they go back to. -/
lemma lines_run (h : session.run react hosts steps = .ok (last, answers)) :
    (lines session.states (growths steps)).map (fun l => changed hosts l.origin l.acts)
      = last.states :=
  replay_lines (grows_run h)

lemma getElem?_lines_run (h : session.run react hosts steps = .ok (last, answers))
    (hs : last.states[i]? = some s) :
    ∃ l, (lines session.states (growths steps))[i]? = some l
      ∧ changed hosts l.origin l.acts = s := by
  rw [← lines_run h, List.getElem?_map] at hs
  exact Option.map_eq_some_iff.mp hs

/-- The steps of a history that came to an end name VM objects that exist. -/
lemma names_of_run (h : session.run react hosts steps = .ok (last, answers)) :
    ∀ x ∈ steps, x.2.Names hosts := by
  induction steps generalizing session answers with
  | nil => exact List.forall_mem_nil _
  | cons x steps ih =>
      obtain ⟨next, answer, rest, hstep, hrest, -⟩ := run_cons_eq_ok h
      exact List.forall_mem_cons.mpr ⟨names_of_ok hstep, ih hrest⟩

/-- What belongs to the line of a state is a step of the history, and no copy. -/
lemma mem_acts_growths {xs : List Binding} (hl : l ∈ lines xs (growths steps)) :
    ∀ step ∈ l.acts, step.growth = .act step ∧ ∃ i, (i, step) ∈ steps := by
  intro step hstep
  obtain ⟨i, hi⟩ := mem_acts hl hstep
  obtain ⟨⟨j, step'⟩, hmem, heq⟩ := List.mem_map.mp hi
  obtain ⟨rfl, hgrowth⟩ := Prod.mk.injEq .. ▸ heq
  obtain rfl := growth_eq_act hgrowth
  exact ⟨hgrowth, j, hmem⟩

/-- Every line can be run on its own. -/
lemma alone_of_run (h : session.run react hosts steps = .ok (last, answers))
    (hl : l ∈ lines session.states (growths steps)) : ∃ single replies,
      Alone hosts l single replies := by
  have hquiet : Quiet (hosts.map Host.still) := by
    intro host hhost
    obtain ⟨host', -, rfl⟩ := List.mem_map.mp hhost
    rfl
  have hacts : ∀ x ∈ l.acts.map ((0 : Nat), ·), x.1 < (Session.mk [l.origin] .fresh).states.length
      ∧ x.2.Names (hosts.map Host.still) := by
    intro x hx
    obtain ⟨step, hstep, rfl⟩ := List.mem_map.mp hx
    obtain ⟨-, i, hi⟩ := mem_acts_growths hl step hstep
    have hnames := names_of_run h _ hi
    exact ⟨Nat.zero_lt_one, hnames.of_length (List.length_map _)⟩
  obtain ⟨single, replies, hrun⟩ := run_of_quiet hquiet 0 hacts
  exact ⟨single, replies, _, 0, .fresh, by rw [List.map_map]; rfl, hrun⟩

/-- **Copies of binding states are faithful**: in every history each state, and what it answers,
is that of the run of its line, on its own. -/
theorem faithful_run (h : session.run react hosts steps = .ok (last, answers)) :
    Faithful hosts session last steps answers where
  alone l hl := alone_of_run h hl
  contents := by
    rw [← lines_run h, List.forall₂_map_right_iff, List.forall₂_same]
    rintro l hl single replies ⟨hosts', depth, w, hstill, hrun⟩
    rw [states_run_single (fun step hstep => (mem_acts_growths hl step hstep).1) rfl hrun,
      changed_congr hstill]
  original i s hs := lines_start hs (growths steps)
  copied := by
    rintro before j after rfl
    obtain ⟨mid, next, earlier, answer, hbefore, hstep, hanswer⟩ := run_split h
    obtain ⟨s, hs, -⟩ := step_cases hstep
    obtain ⟨l, hl, -⟩ := getElem?_lines_run hbefore hs
    have hindex : answer = .returned (.index mid.states.length) := (step_effect hstep hs).2
    have hlength : mid.states.length = (lines session.states (growths before)).length := by
      rw [← lines_run hbefore, List.length_map]
    rw [hindex, hlength] at hanswer
    rw [growths_append]
    exact ⟨_, l, hanswer, hl, lines_copied hl _⟩
  answers := by
    rintro before i step after rfl hact
    obtain ⟨mid, next, earlier, answer, hbefore, hstep, hanswer⟩ := run_split h
    obtain ⟨s, hs, -⟩ := step_cases hstep
    obtain ⟨l, hl, rfl⟩ := getElem?_lines_run hbefore hs
    refine ⟨l, answer, hl, ?_, hanswer, ?_⟩
    · rw [growths_append]
      refine (lines_append hl _).trans ?_
      simp [growths, addressed, hact, Growth.act?]
    · rintro single replies ⟨hosts', depth, w, hstill, hrun⟩
      obtain ⟨reply, hreply, hreplies⟩ := answers_run_single (fun step hstep =>
        (mem_acts_growths (List.mem_of_getElem? hl) step hstep).1) rfl hrun
      rw [changed_congr hstill] at hreplies
      exact ⟨reply, hreply, (step_effect hstep hs).2.same hstill hact hreplies⟩

end Binding.Session

/-- **Copies are faithful, and go their own way**: in every history of registries, or of binding
states, that may be copied at any point, each of them is in the end what it would be on its own,
had it been given the steps that were taken on what it is a copy of, before it was copied, and
then those taken on itself; and it answers each step as it would then, but for the last errors
of VMs, and for what is raised in them.  No step on one of them changes another. -/
theorem clones_faithful {κ : Type} [DecidableEq κ] :
    (∀ (session last : Registry.Session κ) steps replies,
      session.run? steps = some (last, replies) →
      Registry.Session.Faithful session last steps replies)
    ∧ (∀ (session next : Registry.Session κ) i step reply,
      session.step? i step = some (next, reply) → Registry.Session.Apart session next i step)
    ∧ (∀ hosts depth (session last : Binding.Session) steps answers,
      session.run (ProcessWide.run hosts depth) hosts steps = .ok (last, answers) →
      Binding.Session.Faithful hosts session last steps answers)
    ∧ ∀ hosts depth (session next : Binding.Session) i step answer,
      session.step (ProcessWide.run hosts depth) hosts i step = .ok (next, answer) →
      Binding.Session.Apart session next i step :=
  ⟨fun _ _ _ _ h => Registry.Session.faithful_run h,
    fun _ _ _ _ _ h => Registry.Session.apart_step? h,
    fun _ _ _ _ _ _ h => Binding.Session.faithful_run h,
    fun _ _ _ _ _ _ _ h => Binding.Session.apart_step h⟩

/-- A registry is copied twice, and the copies go different ways. -/
def copiedSteps : List (Nat × Registry.Session.Step Nat) :=
  [(0, .perform (.throw 1 (.text "first"))), (0, .fork), (1, .perform (.take 1)), (0, .fork),
    (1, .perform (.throw 1 (.text "second"))), (2, .perform (.message 1)), (1, .fork)]

/-- So is a binding state, beside a new one, with reports through all of them. -/
def copiedHistory : List (Nat × Binding.Session.Step) :=
  [(0, .report 0 (.text "first")), (0, .fork), (1, .plain (.check .one)), (0, .create),
    (1, .report 1 (.text "second")), (2, .report 0 (.text "third")), (0, .report 1 (.text "late"))]

theorem clones_faithful_copied :
    (∃ last replies, Registry.Session.run? [.empty .strict] copiedSteps = some (last, replies)
      ∧ last.map (·.peek 1) = [some "first", some "second", none, some "second"]
      ∧ Registry.Session.Faithful [.empty .strict] last copiedSteps replies)
    ∧ ∃ x, (Binding.Session.start none).run (ProcessWide.run Binding.Session.aliased 0)
        Binding.Session.aliased copiedHistory = .ok x
      ∧ x.1.states.map (·.errors.peek .one) = [some "first", some "second", some "third"]
      ∧ Binding.Session.Faithful Binding.Session.aliased (.start none) x.1 copiedHistory x.2 := by
  obtain ⟨hregistries, -, hstates, -⟩ := @clones_faithful Nat _
  refine ⟨⟨_, _, rfl, rfl, hregistries _ _ _ _ rfl⟩, ?_⟩
  obtain ⟨x, hx⟩ : ∃ x, (Binding.Session.start none).run
      (ProcessWide.run Binding.Session.aliased 0) Binding.Session.aliased copiedHistory = .ok x :=
    ⟨_, rfl⟩
  refine ⟨x, hx, ?_, hstates _ _ _ _ _ _ hx⟩
  cases hx
  rfl

end ScriptBinding
