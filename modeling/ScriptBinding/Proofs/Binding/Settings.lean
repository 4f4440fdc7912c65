import ScriptBinding.Proofs.Binding.Lineage
import ScriptBinding.Proofs.Registry.Modes
import ScriptBinding.Proofs.Table.Entries

/-
The settings of a binding state are a matter of the steps that set them.

* `Binding.settings`: default VM, policy and mode, as one configuration; `Step.settle`: what a
  step makes of them, and of nothing else.
* `Step.appoints?`, `Step.dismisses`, `Step.switch?`, `Step.mode?`: what a step has to say about
  each of the three; `Governed`: settings that are what the last steps to say so made them.
* `settings_after`, `settle_spares`: a step does this to the settings, and most steps do nothing.
* `Closes`: what closing a VM takes with it, and what it leaves.
* `settings_governed`: so it is in every history, for each state and what it is a copy of.
-/
namespace ScriptBinding.Binding

/-- The settings in force, as a configuration that names the default VM. -/
def settings (s : Binding) : Config where
  errorHandling := s.policy.enabled
  throwMode := s.errors.mode
  defaultVm := s.defaultVm.vm

/-- The settings after an operation. -/
def Step.settle (c : Config) : Step → Config
  | .setDefault vm => { c with defaultVm := some vm }
  | .clearDefault => { c with defaultVm := none }
  | .close vm => { c with defaultVm := if c.defaultVm = some vm then none else c.defaultVm }
  | .enable enabled => { c with errorHandling := enabled }
  | .configure new => { new with defaultVm := new.defaultVm.or c.defaultVm }
  | .errors (.setMode mode) => { c with throwMode := mode }
  | _ => c

/-- Whether an operation is none of those that set the policy, the mode or the default VM, or
that close a VM. -/
def Step.spares : Step → Bool
  | .setDefault _ | .clearDefault | .close _ | .enable _ | .configure _ => false
  | .errors op => !op.setsMode
  | .throw _ _ | .throwText _ _ | .isPending _ | .clear _ | .message _ | .check _ | .checkDefault
  | .defaultVm | .isEnabled | .inspect | .unaddressed => true

/-- What closing a VM does to a state, and what it answers. -/
structure Closes (s : Binding) (vm : Handle) (s' : Binding) (reply : Reply Event Answer) :
    Prop where
  /-- The message that was pending is handed out. -/
  answer : reply.outcome = .returned (.registry (.found (s.errors.peek vm)))
  drained : s'.errors.peek vm = none
  dismissed : s'.defaultVm.vm ≠ some vm
  others : ∀ other, other ≠ vm → s'.errors.peek other = s.errors.peek other
  mode : s'.errors.mode = s.errors.mode
  policy : s'.policy = s.policy
  default : s.defaultVm.vm ≠ some vm → s'.defaultVm = s.defaultVm
  /-- Once more, there is nothing to close. -/
  again : s'.step (.close vm) = (s', .quiet (.registry (.found none)))

variable {s : Binding} {vm : Handle}

/-! ### One operation -/

lemma settings_withErrors (s : Binding) {errors : Registry Handle}
    (h : errors.mode = s.errors.mode) : Binding.settings { s with errors } = s.settings := by
  rw [settings, settings, h]

/-- The mode after an operation of the registry. -/
lemma mode_errors_step (r : Registry Handle) (op : Registry.Step Handle) :
    (r.step op).1.mode = Registry.modeAfter r.mode [op] :=
  Registry.mode_run r [op]

/-- **What an operation does to the settings.** -/
lemma settings_step (s : Binding) (step : Step) :
    (s.step step).1.settings = step.settle s.settings := by
  cases step with
  | throw vm m => exact settings_withErrors s (mode_errors_step s.errors (.throw vm m))
  | throwText vm text =>
      refine settings_withErrors s ?_
      rw [← (Registry.throw_text s.errors vm text).1]
      exact mode_errors_step s.errors (.throw vm (.text text))
  | checkDefault =>
      show s.checkDefault.1.settings = s.settings
      rw [checkDefault_eq]
      cases s.defaultVm.vm with
      | none => rfl
      | some vm => exact settings_withErrors s rfl
  | close vm =>
      have hdefault := defaultVm_step s (.close vm)
      show Config.mk _ _ ((s.step (.close vm)).1.defaultVm.vm) = _
      rw [hdefault]
      rfl
  | configure c =>
      show (s.configure c).1.settings = _
      rw [configure, Step.settle, settings]
      cases c.defaultVm <;> rfl
  | errors op =>
      cases op with
      | setMode mode => rfl
      | _ => exact settings_withErrors s (mode_errors_step s.errors _)
  | _ => rfl

/-- A VM for which nothing is pending, and that is not the default, is closed without a trace. -/
lemma close_idle (hidle : s.errors.peek vm = none) (hdefault : s.defaultVm.vm ≠ some vm) :
    s.step (.close vm) = (s, .quiet (.registry (.found none))) := by
  have hremove : s.errors.remove vm = s.errors := by
    rw [Registry.remove, Table.erase_eq_self hidle]
  have hforget : s.defaultVm.forget vm = s.defaultVm := if_neg hdefault
  simp only [step, close, Registry.close, hidle, hremove, hforget]
  rfl

lemma closes (s : Binding) (vm : Handle) :
    Closes s vm (s.step (.close vm)).1 (s.step (.close vm)).2 := by
  have hpeek : ∀ other, (s.step (.close vm)).1.errors.peek other
      = if other = vm then none else s.errors.peek other := Registry.peek_remove s.errors vm
  have hdrained : (s.step (.close vm)).1.errors.peek vm = none := (hpeek vm).trans (if_pos rfl)
  have hdismissed : (s.step (.close vm)).1.defaultVm.vm ≠ some vm := by
    rw [defaultVm_step, Step.defaultAfter]
    split
    · exact nofun
    · assumption
  exact {
    answer := rfl
    drained := hdrained
    dismissed := hdismissed
    others := fun other hother => (hpeek other).trans (if_neg hother)
    mode := rfl
    policy := rfl
    default := fun hdefault => if_neg hdefault
    again := close_idle hdrained hdismissed }

/-- The default VM is checked where there is one; else nothing is done, and the error says so. -/
lemma step_checkDefault (s : Binding) : s.step .checkDefault = match s.defaultVm.vm with
    | some vm => s.step (.check vm)
    | none => (s, .quiet (.registry (.refused .noDefault))) := by
  simp only [step, checkDefault_eq]
  cases s.defaultVm.vm <;> rfl

/-- The error that there is no default VM tells the truth. -/
lemma noDefault_iff (s : Binding) :
    (s.step .checkDefault).2.outcome = .returned (.registry (.refused .noDefault))
      ↔ s.defaultVm.vm = none := by
  rw [step_checkDefault]
  cases s.defaultVm.vm with
  | none => exact ⟨fun _ => rfl, fun _ => rfl⟩
  | some vm =>
      -- a check answers with a script error, or with none
      show Outcome.returned (Answer.registry (.ofRefusal ((s.errors.peek vm).map .script))) = _ ↔ _
      cases s.errors.peek vm <;> simp [Registry.Answer.ofRefusal]

namespace Session

open ProcessWide

/-- The settings after a step. -/
def Step.settle (c : Config) : Step → Config
  | .plain p => p.settle c
  | _ => c

/-- Whether a step is a report, a new state, or an operation that spares the settings. -/
def Step.spares : Step → Bool
  | .plain p => p.spares
  | .report _ _ | .reportTypeError _ _ _ | .typeErrorText _ _ _ | .lastError _ | .fork
  | .create => true

/-- The VM that a step makes the default. -/
def Step.appoints? : Step → Option Handle
  | .plain (.setDefault vm) => some vm
  | .plain (.configure c) => c.defaultVm
  | _ => none

/-- Whether a step makes a VM the default no longer. -/
def Step.dismisses (vm : Handle) : Step → Bool
  | .plain .clearDefault => true
  | .plain (.close closed) => closed = vm
  | _ => false

/-- What a step switches the policy to. -/
def Step.switch? : Step → Option Bool
  | .plain (.enable enabled) => some enabled
  | .plain (.configure c) => some c.errorHandling
  | _ => none

/-- The mode that a step sets. -/
def Step.mode? : Step → Option Registry.Mode
  | .plain (.errors (.setMode mode)) => some mode
  | .plain (.configure c) => some c.throwMode
  | _ => none

/-- A VM was made the default by one of some steps, and by none of the later ones was another
made so, or this one the default no longer. -/
def Stands (vm : Handle) (acts : List Step) : Prop :=
  ∃ before step after, acts = before ++ step :: after ∧ step.appoints? = some vm
    ∧ ∀ later ∈ after, later.appoints? = none ∧ later.dismisses vm = false

/-- Settings that are what the last steps to say so made them; where no step said so they are
those of a new state. -/
structure Governed (acts : List Step) (c : Config) : Prop where
  defaultVm : ∀ vm, c.defaultVm = some vm ↔ Stands vm acts
  errorHandling : c.errorHandling = (acts.filterMap Step.switch?).getLast?.getD true
  throwMode : c.throwMode = (acts.filterMap Step.mode?).getLast?.getD .firstWins

/-- The step that makes a new state one with settings. -/
def opening (config : Option Config) : List (Nat × Step) :=
  config.toList.map fun c => (0, .plain (.configure c))

/-- The lines of the states of a history that began with settings or without: what was done to
each state since it was new, and to those that it is a copy of. -/
def pasts (config : Option Config) (steps : List (Nat × Step)) : List (Line Binding Step) :=
  lines [.initial] (growths (opening config ++ steps))

variable {react : Reaction} {hosts : List Host} {session next last : Session} {i j n : Nat}
  {step : Step} {acts : List Step} {c : Config} {config : Option Config}
  {steps : List (Nat × Step)} {answer : Outcome Answer} {answers : List (Outcome Answer)}

/-! ### One step -/

/-- What a step does to the settings of the state that it is taken on. -/
lemma settings_after (hosts : List Host) (s : Binding) (step : Step) :
    (step.after hosts s).settings = step.settle s.settings := by
  cases step with
  | plain p => exact settings_step s p
  | _ =>
      simp only [Step.after]
      split
      · exact settings_step s (.throwText _ _)
      · rfl

/-- Steps that spare the settings leave them as they are. -/
lemma settle_spares (hspares : step.spares = true) (c : Config) : step.settle c = c := by
  cases step with
  | plain p =>
      cases p with
      | setDefault | clearDefault | close | enable | configure => cases hspares
      | errors op =>
          cases op with
          | setMode => cases hspares
          | _ => rfl
      | _ => rfl
  | _ => rfl

/-- A step that spares the settings leaves those of all states. -/
lemma settings_spared (hspares : step.spares = true)
    (h : session.step react hosts i step = .ok (next, answer)) (hs : session.states[j]? = some s) :
    ∃ s', next.states[j]? = some s' ∧ s'.settings = s.settings := by
  by_cases hij : i = j
  · subst hij
    refine ⟨step.after hosts s, ?_, ?_⟩
    · have hset := getElem?_set_of_eq_some hs (step.after hosts s)
      rw [(step_effect h hs).1, List.getElem?_append_left (List.getElem?_eq_some_iff.mp hset).1,
        hset]
    · rw [settings_after, settle_spares hspares]
  · exact ⟨s, step_other h hij hs, rfl⟩

lemma errorHandling_settle (step : Step) (c : Config) :
    (step.settle c).errorHandling = step.switch?.getD c.errorHandling := by
  cases step with
  | plain p =>
      cases p with
      | errors op => cases op <;> rfl
      | _ => rfl
  | _ => rfl

lemma throwMode_settle (step : Step) (c : Config) :
    (step.settle c).throwMode = step.mode?.getD c.throwMode := by
  cases step with
  | plain p =>
      cases p with
      | errors op => cases op <;> rfl
      | _ => rfl
  | _ => rfl

/-- A VM is the default after a step that makes it so, and after one that leaves it so. -/
lemma defaultVm_settle (step : Step) (c : Config) (vm : Handle) :
    (step.settle c).defaultVm = some vm ↔ step.appoints? = some vm
      ∨ step.appoints? = none ∧ step.dismisses vm = false ∧ c.defaultVm = some vm := by
  have hkept : c.defaultVm = some vm ↔ (none : Option Handle) = some vm
      ∨ (none : Option Handle) = none ∧ false = false ∧ c.defaultVm = some vm := by simp
  cases step with
  | plain p =>
      cases p with
      | setDefault new => exact ⟨.inl, fun h => h.resolve_right nofun⟩
      | clearDefault => exact ⟨nofun, nofun⟩
      | close closed =>
          show (if c.defaultVm = some closed then none else c.defaultVm) = some vm
            ↔ _ ∨ _ ∧ decide (closed = vm) = false ∧ _
          by_cases hclosed : closed = vm <;> by_cases hdefault : c.defaultVm = some closed <;>
            simp_all [Step.appoints?]
      | configure new =>
          show new.defaultVm.or c.defaultVm = some vm
            ↔ new.defaultVm = some vm ∨ new.defaultVm = none ∧ false = false ∧ _
          cases new.defaultVm <;> simp
      | errors op => cases op <;> exact hkept
      | _ => exact hkept
  | _ => exact hkept

/-! ### Histories -/

/-- What a line makes of the settings. -/
lemma settings_changed (hosts : List Host) (s : Binding) (acts : List Step) :
    (changed hosts s acts).settings = acts.foldl Step.settle s.settings := by
  induction acts generalizing s with
  | nil => rfl
  | cons step acts ih =>
      rw [List.foldl_cons, ← settings_after hosts]
      exact ih (step.after hosts s)

/-- One more step makes a VM the default, or leaves it so. -/
lemma stands_concat {acts : List Step} {step : Step} : Stands vm (acts ++ [step])
    ↔ step.appoints? = some vm
      ∨ step.appoints? = none ∧ step.dismisses vm = false ∧ Stands vm acts := by
  constructor
  · rintro ⟨before, made, after, heq, hmade, hlater⟩
    rcases List.eq_nil_or_concat after with rfl | ⟨after, final, rfl⟩
    · obtain ⟨-, hstep⟩ := List.append_inj' heq rfl
      obtain rfl := List.singleton_inj.mp hstep
      exact .inl hmade
    · rw [List.concat_eq_append] at heq hlater
      have heq' : acts ++ [step] = (before ++ made :: after) ++ [final] := by
        rw [heq, List.append_assoc, List.cons_append]
      obtain ⟨rfl, hstep⟩ := List.append_inj' heq' rfl
      obtain rfl := List.singleton_inj.mp hstep
      obtain ⟨hafter, hfinal⟩ := List.forall_mem_append.mp hlater
      obtain ⟨happoints, hdismisses⟩ := hfinal step (List.mem_singleton_self _)
      exact .inr ⟨happoints, hdismisses, before, made, after, rfl, hmade, hafter⟩
  · rintro (hmade | ⟨happoints, hdismisses, before, made, after, rfl, hmade, hlater⟩)
    · exact ⟨acts, step, [], rfl, hmade, List.forall_mem_nil _⟩
    · refine ⟨before, made, after ++ [step], by rw [List.append_assoc, List.cons_append], hmade,
        List.forall_mem_append.mpr ⟨hlater, fun later hmem => ?_⟩⟩
      rw [List.mem_singleton.mp hmem]
      exact ⟨happoints, hdismisses⟩

/-- What is set by some steps is what the last of them set. -/
lemma last_concat {α : Type} (f : Step → Option α) (acts : List Step) (step : Step) (a : α) :
    ((acts ++ [step]).filterMap f).getLast?.getD a
      = (f step).getD ((acts.filterMap f).getLast?.getD a) := by
  rw [List.filterMap_append, List.getLast?_append]
  cases hf : f step <;> simp [hf]

/-- The settings of a new state are governed by what is done to it. -/
lemma governed_settle (acts : List Step) : Governed acts (acts.foldl Step.settle {}) := by
  induction acts using List.reverseRecOn with
  | nil =>
      refine ⟨fun vm => ⟨nofun, ?_⟩, rfl, rfl⟩
      rintro ⟨before, step, after, hnil, -⟩
      simp at hnil
  | append_singleton acts step ih =>
      rw [List.foldl_concat]
      refine ⟨fun vm => ?_, ?_, ?_⟩
      · rw [defaultVm_settle, stands_concat, ih.defaultVm]
      · rw [errorHandling_settle, last_concat, ih.errorHandling]
      · rw [throwMode_settle, last_concat, ih.throwMode]

/-- Settings to begin with are settings given to a new state. -/
lemma grows_start (h : (start config).run react hosts steps = .ok (last, answers)) :
    Grows (fun s step => step.after hosts s) [.initial] (growths (opening config ++ steps))
      last.states := by
  cases config with
  | none => exact grows_run h
  | some c => exact .act rfl (grows_run h)

/-- Every line of such a history begins with a new state. -/
lemma origin_pasts {l : Line Binding Step} (hl : l ∈ pasts config steps) :
    l.origin = .initial := by
  rcases origin_prolonged hl with ⟨l', hl', horigin⟩ | ⟨i, hmem⟩
  · obtain rfl := List.mem_singleton.mp hl'
    exact horigin
  · obtain ⟨⟨j, step⟩, -, heq⟩ := List.mem_map.mp hmem
    cases step with
    | create => exact (Growth.fresh.inj (Prod.mk.inj heq).2).symm
    | _ => cases (Prod.mk.inj heq).2

/-- The settings of a state are governed by its line. -/
lemma governed_run (h : (start config).run react hosts steps = .ok (last, answers))
    (hs : last.states[n]? = some s) :
    ∃ l, (pasts config steps)[n]? = some l ∧ changed hosts .initial l.acts = s
      ∧ Governed l.acts s.settings := by
  rw [← replay_lines (grows_start h), List.getElem?_map] at hs
  obtain ⟨l, hl, hreplay⟩ := Option.map_eq_some_iff.mp hs
  have hchanged : changed hosts .initial l.acts = s := by
    rw [← hreplay, Line.replay, origin_pasts (List.mem_of_getElem? hl), changed]
  refine ⟨l, hl, hchanged, ?_⟩
  rw [← hchanged, settings_changed]
  exact governed_settle l.acts

/-- **The settings have a history of their own**: in every history, default VM, policy and mode
of a state are what the last steps to say so made them, of those that were taken on it, or on
what it is a copy of; no other step changes them.  Closing a VM hands out what is pending for
it, and leaves no trace of it, nor a difference to any other VM; the error that there is no
default VM is met exactly where there is none, and then nothing is done. -/
theorem settings_governed (hrun : (start config).run react hosts steps = .ok (last, answers))
    (hs : last.states[n]? = some s) :
    (∃ l, (pasts config steps)[n]? = some l ∧ changed hosts .initial l.acts = s
      ∧ Governed l.acts s.settings)
    ∧ (∀ i step next answer, step.spares = true →
        last.step react hosts i step = .ok (next, answer) →
        ∃ s', next.states[n]? = some s' ∧ s'.settings = s.settings)
    ∧ (∀ vm, Closes s vm (s.step (.close vm)).1 (s.step (.close vm)).2)
    ∧ ((s.step .checkDefault).2.outcome = .returned (.registry (.refused .noDefault))
        ↔ s.defaultVm.vm = none)
    ∧ s.step .checkDefault = match s.defaultVm.vm with
      | some vm => s.step (.check vm)
      | none => (s, .quiet (.registry (.refused .noDefault))) :=
  ⟨governed_run hrun hs, fun _ _ _ _ hspares hstep => settings_spared hspares hstep hs, closes s,
    noDefault_iff s, step_checkDefault s⟩

/-- A state with settings is copied, and the copy gets others; closing a VM in the registry
does not count, and closing it in the state does. -/
def settledSteps : List (Nat × Step) :=
  [(0, .report 0 (.text "first")), (0, .fork), (1, .plain (.errors (.close .one))),
    (1, .plain (.enable true)), (0, .plain (.close .two)), (0, .create),
    (0, .plain (.close .one)), (1, .plain (.errors (.setMode .firstWins))),
    (1, .plain (.throw .two (.text "second")))]

theorem settings_governed_copied :
    ∃ x, (start (some ⟨false, .strict, some .one⟩)).run (ProcessWide.run aliased 0) aliased
        settledSteps = .ok x
      ∧ x.1.states.map settings
        = [⟨false, .strict, none⟩, ⟨true, .firstWins, some .one⟩, ⟨true, .firstWins, none⟩]
      ∧ ∃ s l, x.1.states[1]? = some s
        ∧ (pasts (some ⟨false, .strict, some .one⟩) settledSteps)[1]? = some l
        ∧ Governed l.acts s.settings
        ∧ Closes s .two (s.step (.close .two)).1 (s.step (.close .two)).2 := by
  obtain ⟨x, hx⟩ : ∃ x, (start (some ⟨false, .strict, some .one⟩)).run
      (ProcessWide.run aliased 0) aliased settledSteps = .ok x := ⟨_, rfl⟩
  have hstates : x.1.states.map settings
      = [⟨false, .strict, none⟩, ⟨true, .firstWins, some .one⟩, ⟨true, .firstWins, none⟩] := by
    cases hx
    rfl
  obtain ⟨s, hs⟩ : ∃ s, x.1.states[1]? = some s := by
    cases hx
    exact ⟨_, rfl⟩
  obtain ⟨⟨l, hl, -, hgoverned⟩, -, hcloses, -⟩ := settings_governed hx hs
  exact ⟨x, hx, hstates, s, l, hs, hl, hgoverned, hcloses .two⟩

end Session

end ScriptBinding.Binding
