import Mathlib.Data.Finset.Card
import ScriptBinding.Proofs.ProcessWide.Chronicle

/-
Re-entrant reports cannot loop by themselves.

* `Step.drains`: whether a step may take away what is pending; `Step.Harmless`: it does
  not, and the VM object that it names exists.
* `Unrolls.keeps`, `Follows.nodup`: an execution of such steps removes nothing, and raises
  each VM once at most.
* `idle`: the VMs that have nothing pending, the measure of termination.
* `step_ends`: each raise leaves one idle VM less to the reaction that follows it.
* `run_ends`: every depth that the idle VMs do not exceed is enough.
* `raised_once_per_drain`: a VM is raised again only after it was drained, so that reports
  come to an end if no reaction drains.
-/
namespace ScriptBinding

/-- Whether an operation takes away what is pending for a VM, where there is some. -/
def Binding.Step.drains : Binding.Step → Bool
  | .clear _ | .message _ | .check _ | .checkDefault | .close _ => true
  | .errors (.clear _) | .errors (.message _) | .errors (.take _) | .errors (.close _) => true
  | _ => false

/-- An operation that does not drain leaves what is pending. -/
lemma Binding.isPending_step (s : Binding) {p : Binding.Step} (hp : p.drains = false)
    {vm : Handle} (hs : s.errors.isPending vm = true) :
    (s.step p).1.errors.isPending vm = true := by
  have hdrains : ∀ op, p.registry? s.defaultVm.vm = some op → op.drains vm = false := by
    intro op hop
    cases p with
    | clear | message | check | checkDefault | close => cases hp
    | throw | throwText | isPending | configure =>
        cases hop
        rfl
    | errors step =>
        cases hop
        cases op with
        | clear | message | take | close => cases hp
        | _ => rfl
    | _ => cases hop
  rw [errors_step]
  cases hop : p.registry? s.defaultVm.vm with
  | none => exact hs
  | some op =>
      rw [Registry.isPending] at hs ⊢
      show ((s.errors.step op).1.peek vm).isSome = true
      rw [Registry.peek_step, hdrains op hop, if_neg Bool.false_ne_true, Option.isSome_or, hs,
        Bool.true_or]

namespace ProcessWide

/-- Whether a step drains, the operations of a block included. -/
def Step.drains : Step → Bool
  | .plain p => p.drains
  | .block ps _ => ps.any (·.drains)
  | _ => false

/-- Whether a primitive step drains. -/
def Primitive.drains : Primitive → Bool
  | .plain p => p.drains
  | .block ps _ => ps.any (·.drains)
  | _ => false

variable {hosts : List Host} {s t : Binding} {vm : Handle}

/-! ### Executions that do not drain -/

lemma mem_deedsOf {d : Deed} {steps : List Binding.Step} (hd : d ∈ deedsOf s steps) :
    d.step ∈ steps := by
  induction steps generalizing s with
  | nil => cases hd
  | cons step steps ih =>
      rcases List.mem_cons.mp hd with rfl | hd
      · exact .head _
      · exact .tail _ (ih hd)

lemma mem_carried {p : Binding.Step} {steps : List Binding.Step} (hp : p ∈ s.carried steps) :
    p ∈ steps := by
  induction steps generalizing s with
  | nil => cases hp
  | cons step steps ih =>
      rw [Binding.carried] at hp
      split at hp
      · exact List.mem_cons.mpr (.inl (List.mem_singleton.mp hp))
      · exact (List.mem_cons.mp hp).elim (· ▸ .head _) fun hp => .tail _ (ih hp)

/-- The deeds of primitive steps that do not drain remove nothing. -/
lemma not_removes {ps : List Primitive} (hps : ∀ p ∈ ps, p.drains = false) {d : Deed}
    (hd : d ∈ chronicle s ps) (vm : Handle) : ¬ d.Removes vm := by
  have hquiet : d.step.drains = false := by
    induction ps generalizing s with
    | nil => cases hd
    | cons p ps ih =>
        obtain ⟨hp, hps⟩ := List.forall_mem_cons.mp hps
        rcases List.mem_append.mp hd with hd | hd
        · cases p with
          | plain p =>
              rw [List.mem_singleton.mp hd]
              exact hp
          | block steps ending =>
              have hmem := mem_carried (mem_deedsOf hd)
              exact Bool.eq_false_iff.mpr (List.any_eq_false.mp hp _ hmem)
          | record vm text ending =>
              rw [List.mem_singleton.mp hd]
              rfl
          | settled outcome => cases hd
        · exact ih hps hd
  rintro ⟨hbefore, hafter⟩
  rw [Deed.after, Binding.isPending_step d.before hquiet hbefore] at hafter
  cases hafter

/-- A step that does not drain begins with primitive steps that do not, and its reaction
is that of a VM. -/
lemma Step.drains_expand {step : Step} {ps : List Primitive} {reaction : List Step}
    (h : step.expand hosts s = some (ps, reaction)) (hstep : step.drains = false) :
    (∀ p ∈ ps, p.drains = false) ∧ (reaction = [] ∨ ∃ host ∈ hosts, reaction = host.onRaise) := by
  have hreport : ∀ {host : Host} {text : String}, host ∈ hosts →
      host.expand s text = (ps, reaction) →
      (∀ p ∈ ps, p.drains = false) ∧ (reaction = [] ∨ ∃ host ∈ hosts, reaction = host.onRaise) := by
    intro host text hhost hexpand
    rw [Host.expand] at hexpand
    split at hexpand
    · cases hexpand
      exact ⟨by simp [Primitive.drains], .inr ⟨host, hhost, rfl⟩⟩
    · cases hexpand
      exact ⟨by simp [Primitive.drains], .inl rfl⟩
  cases step with
  | plain p =>
      cases h
      exact ⟨List.forall_mem_singleton.mpr hstep, .inl rfl⟩
  | block steps ending =>
      cases h
      exact ⟨List.forall_mem_singleton.mpr hstep, .inl rfl⟩
  | report vm message =>
      obtain ⟨host, hhost, hexpand⟩ := Option.map_eq_some_iff.mp h
      cases message with
      | failing why =>
          cases hexpand
          exact ⟨List.forall_mem_singleton.mpr rfl, .inl rfl⟩
      | text text => exact hreport (List.mem_of_getElem? hhost) hexpand
  | reportTypeError vm index expected =>
      obtain ⟨host, hhost, hexpand⟩ := Option.map_eq_some_iff.mp h
      exact hreport (List.mem_of_getElem? hhost) hexpand
  | typeErrorText vm index expected =>
      obtain ⟨host, hhost, hexpand⟩ := Option.map_eq_some_iff.mp h
      cases hexpand
      exact ⟨List.forall_mem_singleton.mpr rfl, .inl rfl⟩
  | lastError vm =>
      obtain ⟨host, hhost, hexpand⟩ := Option.map_eq_some_iff.mp h
      cases hexpand
      exact ⟨List.forall_mem_nil _, .inl rfl⟩

/-- Deeds that remove nothing raise each VM once at most, and only where nothing was
pending for it. -/
lemma Follows.nodup {ds : List Deed} (h : Follows s ds t)
    (hkeeps : ∀ d ∈ ds, ∀ vm, ¬ d.Removes vm) :
    (raisedBy ds).Nodup ∧ ∀ vm ∈ raisedBy ds, s.errors.isPending vm = false := by
  induction h with
  | nil => exact ⟨List.nodup_nil, nofun⟩
  | @cons d ds t sound rest ih =>
      obtain ⟨hd, hds⟩ := List.forall_mem_cons.mp hkeeps
      obtain ⟨hnodup, hidle⟩ := ih hds
      -- what is idle after the deed was so before
      have hbefore : ∀ vm ∈ raisedBy ds, d.before.errors.isPending vm = false := by
        intro vm hvm
        refine Bool.eq_false_iff.mpr fun hpending => ?_
        exact hd vm ⟨hpending, hidle vm hvm⟩
      cases hraised : d.raised with
      | none =>
          rw [raisedBy, List.filterMap_cons_none hraised]
          exact ⟨hnodup, hbefore⟩
      | some vm =>
          rw [raisedBy, List.filterMap_cons_some hraised]
          obtain ⟨hvm, hvm'⟩ := sound vm hraised
          refine ⟨List.nodup_cons.mpr ⟨fun hmem => ?_, hnodup⟩,
            List.forall_mem_cons.mpr ⟨hvm, hbefore⟩⟩
          rw [hidle vm hmem] at hvm'
          cases hvm'

/-! ### Executions of harmless steps -/

variable {w w' : World} {steps left : List Step} {ps : List Primitive}

/-- A step that does not drain, and whose VM object exists if it names one. -/
def Step.Harmless (hosts : List Host) (step : Step) : Prop :=
  step.Names hosts ∧ step.drains = false

instance (hosts : List Host) (step : Step) : Decidable (step.Harmless hosts) :=
  inferInstanceAs (Decidable (_ ∧ _))

/-- Where neither the steps nor the reactions drain, no primitive step does. -/
lemma Unrolls.drains (h : Unrolls hosts w steps ps w' left)
    (hhosts : ∀ host ∈ hosts, ∀ step ∈ host.onRaise, step.Harmless hosts)
    (hsteps : ∀ step ∈ steps, step.Harmless hosts) : ∀ p ∈ ps, p.drains = false := by
  induction h with
  | start => nofun
  | next first expand _ ih =>
      obtain ⟨hstep, hsteps⟩ := List.forall_mem_cons.mp hsteps
      obtain ⟨hps, hreaction⟩ := Step.drains_expand expand hstep.2
      refine List.forall_mem_append.mpr ⟨hps, ih (List.forall_mem_append.mpr ⟨?_, hsteps⟩)⟩
      rcases hreaction with rfl | ⟨host, hhost, rfl⟩
      · nofun
      · exact hhosts host hhost

/-- The deeds of such an execution remove nothing. -/
lemma Unrolls.keeps (h : Unrolls hosts w steps ps w' left)
    (hhosts : ∀ host ∈ hosts, ∀ step ∈ host.onRaise, step.Harmless hosts)
    (hsteps : ∀ step ∈ steps, step.Harmless hosts) :
    ∀ d ∈ chronicle w.cell.state ps, ∀ vm, ¬ d.Removes vm :=
  fun _ hd vm => not_removes (h.drains hhosts hsteps) hd vm

/-- So what is pending stays. -/
lemma Unrolls.isPending (h : Unrolls hosts w steps ps w' left) (hfree : w.cell.held = false)
    (hhosts : ∀ host ∈ hosts, ∀ step ∈ host.onRaise, step.Harmless hosts)
    (hsteps : ∀ step ∈ steps, step.Harmless hosts)
    (hvm : w.cell.state.errors.isPending vm = true) :
    w'.cell.state.errors.isPending vm = true := by
  rw [(h.chronicled hfree).1]
  refine ((follows_chronicle _ ps).removed_or_pending hvm).resolve_left ?_
  rintro ⟨r, hr, hremoves⟩
  exact h.keeps hhosts hsteps r hr vm hremoves

/-! ### Coming to an end -/

/-- The VMs that have nothing pending. -/
def idle (hosts : List Host) (s : Binding) : Finset Handle :=
  (hosts.map (·.vm.handle)).toFinset.filter fun vm => s.errors.isPending vm = false

lemma card_idle_le (hosts : List Host) (s : Binding) : (idle hosts s).card ≤ hosts.length := by
  calc (idle hosts s).card
      ≤ (hosts.map (·.vm.handle)).toFinset.card := Finset.card_filter_le _ _
    _ ≤ (hosts.map (·.vm.handle)).length := List.toFinset_card_le _
    _ = hosts.length := List.length_map _

/-- Fewer VMs are idle where more is pending. -/
lemma idle_anti (h : ∀ vm, s.errors.isPending vm = true → t.errors.isPending vm = true) :
    idle hosts t ⊆ idle hosts s := by
  intro vm hvm
  obtain ⟨hmem, hidle⟩ := Finset.mem_filter.mp hvm
  refine Finset.mem_filter.mpr ⟨hmem, Bool.eq_false_iff.mpr fun hpending => ?_⟩
  rw [h vm hpending] at hidle
  cases hidle

/-- A report that is to be raised leaves one idle VM less. -/
lemma card_idle_post {host : Host} (hhost : host ∈ hosts) {text : String}
    (hforward : (s.post host.vm.handle text).2.forward = true) :
    (idle hosts (s.post host.vm.handle text).1).card < (idle hosts s).card := by
  obtain ⟨hbefore, hafter⟩ := sound_record s host.vm.handle text host.vm.handle (if_pos hforward)
  have hsub : idle hosts (s.post host.vm.handle text).1 ⊆ idle hosts s :=
    idle_anti fun vm hvm => Binding.isPending_step s (p := .throwText host.vm.handle text) rfl hvm
  have hmem : host.vm.handle ∈ idle hosts s :=
    Finset.mem_filter.mpr ⟨List.mem_toFinset.mpr (List.mem_map_of_mem hhost), hbefore⟩
  refine Finset.card_lt_card ((Finset.ssubset_iff_of_subset hsub).mpr ⟨_, hmem, fun hidle => ?_⟩)
  exact Bool.false_ne_true ((Finset.mem_filter.mp hidle).2.symm.trans hafter)

/-- Steps have an end that is the same at every depth from `n` on. -/
def Ends (hosts : List Host) (n : Nat) (w : World) (steps : List Step) : Prop :=
  ∃ w' answers, ∀ depth ≥ n, run hosts depth w steps = .ok (w', answers)

/-- A step ends if the reactions of all VMs do that have one idle VM less. -/
lemma step_ends {n : Nat}
    (hreactions : ∀ m < n, ∀ w₁ : World, ∀ host ∈ hosts, w₁.cell.held = false →
      (idle hosts w₁.cell.state).card ≤ m → Ends hosts m w₁ host.onRaise)
    {step : Step} (hnames : step.Names hosts) (hfree : w.cell.held = false)
    (hidle : (idle hosts w.cell.state).card ≤ n) :
    ∃ w' answer, ∀ depth ≥ n, ProcessWide.step hosts depth w step = .ok (w', answer) := by
  obtain ⟨ps, w₁, reaction, hopens⟩ := Step.opens hfree hnames
  rcases hopens.leaves with ⟨-, answer, hends⟩
    | ⟨host, hhost, text, rfl, hforward, hstate, answer, hends⟩
  · refine ⟨w₁, answer, fun depth _ => ?_⟩
    obtain ⟨react, hreact⟩ := step_eq_stepWith hosts depth
    rw [hreact]
    exact hends react
  · have hless := card_idle_post hhost hforward
    rw [← hstate] at hless
    obtain ⟨m, rfl⟩ : ∃ m, n = m + 1 := ⟨n - 1, by omega⟩
    obtain ⟨w', nested, hnested⟩ := hreactions m (by omega) w₁ host hhost hopens.free (by omega)
    refine ⟨w', answer w' nested, fun depth hdepth => ?_⟩
    obtain ⟨d, rfl⟩ : ∃ d, depth = d + 1 := ⟨depth - 1, by omega⟩
    show stepWith (run hosts d) hosts w step = _
    rw [hends, hnested d (by omega)]
    rfl

/-- Steps that do not drain end at every depth that the idle VMs do not exceed, where no
reaction drains. -/
lemma run_ends (hhosts : ∀ host ∈ hosts, ∀ step ∈ host.onRaise, step.Harmless hosts) (n : Nat)
    (hsteps : ∀ step ∈ steps, step.Harmless hosts) (hfree : w.cell.held = false)
    (hidle : (idle hosts w.cell.state).card ≤ n) : Ends hosts n w steps := by
  -- each raise leaves one idle VM less to its reaction, so the outer induction is on their
  -- number; within one reaction no step makes a VM idle again
  induction n using Nat.strong_induction_on generalizing w steps with
  | _ n ih =>
      induction steps generalizing w with
      | nil => exact ⟨w, [], fun _ _ => rfl⟩
      | cons step steps ihsteps =>
          obtain ⟨hstep, hrest⟩ := List.forall_mem_cons.mp hsteps
          obtain ⟨w₁, answer, hfirst⟩ := step_ends
            (fun m hm w₁ host hhost => ih m hm (hhosts host hhost)) hstep.1 hfree hidle
          obtain ⟨ps, hps⟩ := step_unrolls n hfree (hfirst n le_rfl)
          have hkeeps : ∀ vm, w.cell.state.errors.isPending vm = true →
              w₁.cell.state.errors.isPending vm = true :=
            fun vm => hps.isPending hfree hhosts (List.forall_mem_singleton.mpr hstep)
          obtain ⟨w', answers, hends⟩ := ihsteps hrest (hps.chronicled hfree).2.1
            ((Finset.card_le_card (idle_anti hkeeps)).trans hidle)
          refine ⟨w', answer :: answers, fun depth hdepth => ?_⟩
          simp only [run, runWith, bind_eq_ok]
          exact ⟨_, hfirst depth hdepth, _, hends depth hdepth, rfl⟩

/-- **A VM is raised again only after it was drained**: every execution that comes to an
end unrolls, and in one that unrolls, as far as it came, some operation between two
raises of one VM removed what was pending for it, whatever VM objects and reports they
came from, and at whatever depth.  So re-entrant reports do not loop by themselves: where
no reaction drains, every execution of steps that do not drain, such as a report, comes to
an end, the same at every depth that the VM objects do not outnumber, and raises each VM
once at most, and only where nothing was pending for it before. -/
theorem raised_once_per_drain (hosts : List Host) {w : World} (hfree : w.cell.held = false)
    (steps : List Step) :
    (∀ depth w' answers, run hosts depth w steps = .ok (w', answers) →
      ∃ ps, Unrolls hosts w steps ps w' [])
    ∧ (∀ ps w' left, Unrolls hosts w steps ps w' left →
      w'.cell.state = (Primitive.run w.cell.state ps).1
      ∧ (∃ marks, w'.trace = w.trace ++ marks
        ∧ raisedAmong hosts marks = (raisedBy (chronicle w.cell.state ps)).map some)
      ∧ ∀ vm xs d ys e zs, chronicle w.cell.state ps = xs ++ d :: (ys ++ e :: zs) →
        d.raised = some vm → e.raised = some vm → ∃ r ∈ ys, r.Removes vm)
    ∧ ((∀ host ∈ hosts, ∀ step ∈ host.onRaise, step.Harmless hosts) →
      (∀ step ∈ steps, step.Harmless hosts) →
      ∃ w' answers, (∀ depth ≥ hosts.length, run hosts depth w steps = .ok (w', answers))
        ∧ ∃ (marks : List Mark) (raised : List Handle), w'.trace = w.trace ++ marks
          ∧ raisedAmong hosts marks = raised.map some ∧ raised.Nodup
          ∧ ∀ vm ∈ raised, w.cell.state.errors.isPending vm = false) := by
  refine ⟨fun depth w' answers => run_unrolls hfree, ?_, ?_⟩
  · intro ps w' left h
    obtain ⟨hstate, -, htrace⟩ := h.chronicled hfree
    refine ⟨hstate, htrace, ?_⟩
    intro vm xs d ys e zs hsplit hd he
    have hfollows := follows_chronicle w.cell.state ps
    rw [hsplit] at hfollows
    exact hfollows.removed_between hd he
  · intro hhosts hsteps
    obtain ⟨w', answers, hends⟩ :=
      run_ends hhosts hosts.length hsteps hfree (card_idle_le hosts w.cell.state)
    obtain ⟨ps, hps⟩ := run_unrolls hfree (hends _ le_rfl)
    obtain ⟨-, -, marks, htrace, hraised⟩ := hps.chronicled hfree
    obtain ⟨hnodup, hidle⟩ :=
      (follows_chronicle w.cell.state ps).nodup (hps.keeps hhosts hsteps)
    exact ⟨w', answers, hends, marks, _, htrace, hraised, hnodup, hidle⟩

/-- Three VM objects of two handles, which report to each other and to themselves when
they are raised. -/
def ring : List Host :=
  [⟨⟨.one, .typeNames []⟩, [.report 1 (.text "over"), .report 0 (.text "itself")], none⟩,
    ⟨⟨.two, .typeNames []⟩, [.report 2 (.text "back"), .block [.enable true] none],
      some "raising"⟩,
    ⟨⟨.one, .typeNames []⟩, [.report 1 (.text "again")], none⟩]

/-- A report, a drain, and a report for the same handle through another VM object. -/
def ringSteps : List Step :=
  [.report 0 (.text "first"), .plain (.message .one), .report 2 (.text "second")]

/-- The primitive steps of these with `ring`, in the order in which they happen. -/
def ringPrimitives : List Primitive :=
  [.record .one "first" none, .record .two "over" (some "raising"),
    .record .one "back" none, .block [.enable true] none,
    .record .one "itself" none, .plain (.message .one),
    .record .one "second" none, .record .two "again" none]

theorem raised_once_per_drain_ring :
    (∃ w', Unrolls ring .fresh ringSteps ringPrimitives w' []
      ∧ raisedAmong ring w'.trace = [some .one, some .two, some .one]
      ∧ ∃ r ∈ chronicle .initial ringPrimitives, r.Removes .one)
    ∧ (∀ host ∈ ring, ∀ step ∈ host.onRaise, step.Harmless ring)
    ∧ ∃ w' answers,
      (∀ depth ≥ 3, run ring depth .fresh [.report 0 (.text "first")] = .ok (w', answers))
      ∧ ∃ raised : List Handle, raisedAmong ring w'.trace = raised.map some ∧ raised.Nodup := by
  have hhosts : ∀ host ∈ ring, ∀ step ∈ host.onRaise, step.Harmless ring := by decide
  refine ⟨?_, hhosts, ?_⟩
  · have hok : (run ring 3 .fresh ringSteps).toBool := by decide +kernel
    rcases h : run ring 3 .fresh ringSteps with e | ⟨w', answers⟩
    · rw [h] at hok
      cases hok
    · obtain ⟨hunrolls, hchronicle, -⟩ :=
        raised_once_per_drain ring (w := .fresh) rfl ringSteps
      obtain ⟨ps, hps⟩ := hunrolls 3 w' answers h
      have hexpands : Expands ring .initial ringSteps ([_] ++ ([_] ++ ([_] ++ ([_] ++ ([_]
          ++ ([_] ++ ([_] ++ ([_] ++ [])))))))) :=
        .cons rfl (.cons rfl (.cons rfl (.cons rfl (.cons rfl (.cons rfl (.cons rfl (.cons rfl
          (.nil _))))))))
      obtain rfl : ringPrimitives = ps := (hps.expands rfl rfl).unique hexpands
      obtain ⟨-, ⟨marks, htrace, hraised⟩, hbetween⟩ := hchronicle ringPrimitives w' [] hps
      have hmarks : w'.trace = marks := htrace
      -- the first deed and the seventh one raise the first handle
      obtain ⟨r, hr, hremoves⟩ := hbetween .one [] _
        (((chronicle .initial ringPrimitives).drop 1).take 5)
        (chronicle .initial ringPrimitives)[6] _ rfl rfl rfl
      exact ⟨w', hps, hmarks ▸ hraised, r,
        List.mem_of_mem_drop (List.mem_of_mem_take hr), hremoves⟩
  · obtain ⟨w', answers, hends, marks, raised, htrace, hraised, hnodup, -⟩ :=
      (raised_once_per_drain ring (w := .fresh) rfl [.report 0 (.text "first")]).2.2 hhosts
        (by decide)
    have hmarks : w'.trace = marks := htrace
    exact ⟨w', answers, hends, raised, hmarks ▸ hraised, hnodup⟩

end ProcessWide

end ScriptBinding
