import ScriptBinding.Proofs.Binding.Forwarded
import ScriptBinding.Proofs.ProcessWide.Interleaving

/-
What a VM sees of the process when it is raised.

* `Sight`: the guard is free, the text is pending for the VM, and that it was recorded and is
  being raised is the last thing that the log was told.
* `sight_of_locked`: so it is right after the locked section that decided on the raise.
* `Moves.sight`: hence at every raise of a thread that has the process for itself, whatever VMs
  do when they are raised.
* `Raised`: a raise of an execution, at the moment of which its VM has sight;
  `Unrolls.raised`: every raise of an execution is one.
* `run_ne_deadlock`: no execution asks for the guard while it is taken.
* `raised_in_sight`: VMs may use the process while they are raised.
-/
namespace ScriptBinding.ProcessWide

/-- The process as a VM object finds it that a text is being raised in. -/
structure Sight (hosts : List Host) (host : Host) (vm : Nat) (text : String) (w : World) :
    Prop where
  found : hosts[vm]? = some host
  /-- Nobody holds the guard. -/
  free : w.cell.held = false
  /-- The text is pending for the VM. -/
  pending : w.cell.state.errors.peek host.vm.handle = some text
  /-- Whoever asks for it is told so. -/
  asked : ∀ depth,
    (∃ w', step hosts depth w (.plain (.isPending host.vm.handle))
      = .ok (w', .returned (.plain (.registry (.flag true)))))
    ∧ ∃ w', step hosts depth w (.plain (.errors (.peek host.vm.handle)))
      = .ok (w', .returned (.plain (.registry (.found (some text)))))
  /-- The last things that happened. -/
  marks : ∃ before, w.trace = before ++ [.logged (.registry (.recorded host.vm.handle text)),
    .logged (.raising .processWide host.vm.handle text), .raised vm text]
  /-- The last entries of the log. -/
  entries : ∃ before, (Mark.events w.trace).map Event.entry = before
    ++ [Log.entry .trace "sqbind_core::registry" "error recorded"
        [("vm", host.vm.handle.label), ("message", text)],
      Log.entry .trace "sqbind::global" "raising error in VM"
        [("vm", host.vm.handle.text), ("message", text)]]

/-- A raise of an execution: after these marks, it came to the point at which the text is raised
in the VM object, which has sight of the process there, and reacts. -/
def Raised (hosts : List Host) (w : World) (steps : List Step) (before : List Mark) (vm : Nat)
    (text : String) : Prop :=
  ∃ host v ps left, Unrolls hosts w steps ps v (host.onRaise ++ left)
    ∧ v.trace = w.trace ++ (before ++ [.raised vm text]) ∧ Sight hosts host vm text v

/-- Of marks that led to a process, what they raise they raise last, and its VM has sight of that
process, and reacts. -/
def RaisesLast (hosts : List Host) (marks : List Mark) (w : World) (reaction : List Step) : Prop :=
  ∀ before vm text after, marks = before ++ .raised vm text :: after →
    after = [] ∧ ∃ host, Sight hosts host vm text w ∧ reaction = host.onRaise

variable {hosts : List Host} {w w₁ w' : World} {step : Step} {steps reaction left : List Step}
  {ps : List Primitive} {answer : Outcome Answer} {react : Reaction} {host : Host} {vm : Nat}
  {text : String} {marks before after : List Mark}

/-! ### One raise -/

/-- An operation on a process whose guard is free. -/
lemma step_plain_of_free {p : Binding.Step} {a : Binding.Answer} (hfree : w.cell.held = false)
    (houtcome : (w.cell.state.step p).2.outcome = .returned a) (depth : Nat) :
    ∃ w', ProcessWide.step hosts depth w (.plain p) = .ok (w', .returned (.plain a)) := by
  obtain ⟨w', haccess, -⟩ :=
    access_of_free hfree (·.step p) Mark.ofReply (·.outcome.isAborted)
  obtain ⟨react, hreact⟩ := step_eq_stepWith hosts depth
  refine ⟨w', ?_⟩
  rw [hreact, stepWith, haccess]
  show Except.ok (w', (w.cell.state.step p).2.outcome.map Answer.plain) = _
  rw [houtcome]
  rfl

/-- A VM has sight of what was recorded just now, and is raised. -/
lemma sight_of_marks (hfound : hosts[vm]? = some host) (hfree : w.cell.held = false)
    (hpending : w.cell.state.errors.peek host.vm.handle = some text)
    (hmarks : w.trace = before ++ [.logged (.registry (.recorded host.vm.handle text)),
      .logged (.raising .processWide host.vm.handle text), .raised vm text]) :
    Sight hosts host vm text w := by
  have hoccurred : (w.cell.state.step (.isPending host.vm.handle)).2.outcome
      = .returned (.registry (.flag true)) := by
    show Outcome.returned (Binding.Answer.registry
      (.flag (w.cell.state.errors.isPending host.vm.handle))) = _
    rw [Registry.isPending, hpending]
    rfl
  have hpeeked : (w.cell.state.step (.errors (.peek host.vm.handle))).2.outcome
      = .returned (.registry (.found (some text))) := by
    show Outcome.returned (Binding.Answer.registry
      (.found (w.cell.state.errors.peek host.vm.handle))) = _
    rw [hpending]
  refine ⟨hfound, hfree, hpending, fun depth => ⟨step_plain_of_free hfree hoccurred depth,
    step_plain_of_free hfree hpeeked depth⟩, ⟨before, hmarks⟩,
    ⟨(Mark.events before).map Event.entry, ?_⟩⟩
  rw [hmarks, Mark.events_append, List.map_append]
  rfl

/-- **Right after the locked section that decided on a raise**, its VM has sight. -/
lemma sight_of_locked {posting : Binding.Posting} (hfree : w.cell.held = false)
    (h : locked hosts w step = .ok (w', .report vm host text posting))
    (hforward : posting.forward = true) :
    Sight hosts host vm text (w'.observe (Mark.ofRaise .processWide vm host.vm.handle text)) := by
  have hlocks := locked_eq_ok h
  have hfound := (hlocks.report _ _ _ _ rfl).found
  obtain ⟨-, rfl, hstate, before, htrace, -⟩ := hlocks.report _ _ _ _ rfl
  obtain ⟨-, hevents, hpending⟩ := Binding.Session.post_of_forward hforward
  rw [hevents, ← List.append_assoc] at htrace
  exact sight_of_marks hfound (hlocks.held.trans hfree) (hstate ▸ hpending)
    (trace_observe htrace _)

/-! ### Whatever VMs do -/

/-- A raise that comes right after another act of its thread. -/
lemma Move.sight {sys mid last : System} {a : Act} {i : Nat} (h : Move hosts sys a mid)
    (hthread : a.thread = i) (hraise : Move hosts mid (.raise i vm text) last)
    (hfree : sys.world.cell.held = false) : ∃ host, Sight hosts host vm text last.world := by
  cases hraise with
  | @raise _ _ _ host due found =>
      cases h with
      | @call j step w rest idle hlocked =>
          obtain rfl : j = i := hthread
          replace due := (Function.update_self j rest.due? sys.due).symm.trans due
          cases rest with
          | done => cases due
          | report vm' host' text' posting =>
              obtain ⟨hforward, heq⟩ := Option.ite_none_right_eq_some.mp due
              cases heq
              have hfound := ((locked_eq_ok hlocked).report _ _ _ _ rfl).found
              obtain rfl := Option.some_inj.mp (found.symm.trans hfound)
              exact ⟨host, sight_of_locked hfree hlocked hforward⟩
      | @raise j vm' text' host' due' found' =>
          obtain rfl : j = i := hthread
          have hnone := (Function.update_self j none sys.due).symm.trans due
          cases hnone

/-- **At every raise of a thread that has the process for itself**, the VM has sight, whatever the
thread called before, in reactions or not. -/
theorem Moves.sight {xs ys : List Act} {sys : System} {i : Nat}
    (h : Moves hosts (.idle w) (xs ++ .raise i vm text :: ys) sys)
    (hthread : ∀ a ∈ xs, a.thread = i) (hfree : w.cell.held = false) :
    ∃ host mid, Moves hosts (.idle w) (xs ++ [.raise i vm text]) mid
      ∧ Sight hosts host vm text mid.world := by
  obtain ⟨now, hxs, hraise⟩ := h.split
  cases hraise with
  | @cons _ mid _ _ _ hraise _ =>
      rcases List.eq_nil_or_concat xs with rfl | ⟨zs, a, rfl⟩
      · -- nothing is due at first
        cases hxs
        cases hraise with
        | raise due _ => cases due
      · rw [List.concat_eq_append] at hxs hthread ⊢
        obtain ⟨earlier, hzs, hlast⟩ := hxs.split
        cases hlast with
        | cons hlast hnone =>
            cases hnone
            obtain ⟨host, hsight⟩ := hlast.sight
              (hthread a (List.mem_append_right _ (List.mem_singleton_self a))) hraise
              (hzs.effect.2.1.trans hfree)
            exact ⟨host, mid, hxs.append (.cons hraise (.nil mid)), hsight⟩

/-! ### Every raise of an execution -/

/-- Marks that raise nothing. -/
lemma notMem_of_quiet (h : Mark.raises marks = []) (vm : Nat) (text : String) :
    .raised vm text ∉ marks :=
  fun hmem => Option.some_ne_none _ (List.filterMap_eq_nil_iff.mp h _ hmem)

lemma raisesLast_of_quiet (h : Mark.raises marks = []) : RaisesLast hosts marks w reaction := by
  rintro before vm text after rfl
  exact (notMem_of_quiet h vm text (List.mem_append_right _ (.head _))).elim

lemma raisesLast_of_sight (hquiet : Mark.raises marks = []) (hsight : Sight hosts host vm text w) :
    RaisesLast hosts (marks ++ [.raised vm text]) w host.onRaise := by
  intro before vm' text' after heq
  obtain ⟨-, hsame, rfl⟩ := (List.append_cons_inj_of_notMem
    (notMem_of_quiet hquiet vm' text') List.not_mem_nil).mp heq
  cases hsame
  exact ⟨rfl, host, hsight, rfl⟩

/-- **What a step raises**, it raises last before the reaction of the VM, which has sight of
it. -/
theorem raisesLast_of_pause (hfree : w.cell.held = false)
    (h : stepWith pause hosts w step = .ok (w₁, answer))
    (hexpand : step.expand hosts w.cell.state = some (ps, reaction)) :
    ∃ marks, w₁.trace = w.trace ++ marks ∧ RaisesLast hosts marks w₁ reaction := by
  rw [stepWith_eq_locked, bind_eq_ok] at h
  obtain ⟨⟨w', rest⟩, hlocked, hfinish⟩ := h
  have hlocks := locked_eq_ok hlocked
  obtain ⟨marks, htrace, hquiet⟩ := hlocks.trace
  cases rest with
  | done answer =>
      cases hfinish
      exact ⟨marks, htrace, raisesLast_of_quiet hquiet⟩
  | report vm host text posting =>
      rcases conclude_eq_ok hfinish with ⟨-, rfl, -⟩ | ⟨hforward, nested, hnested, -⟩
      · exact ⟨marks, htrace, raisesLast_of_quiet hquiet⟩
      · rw [observe_observe] at hnested
        cases hnested
        have hsight := sight_of_locked hfree hlocked hforward
        obtain ⟨hposts, rfl, -⟩ := hlocks.report _ _ _ _ rfl
        rw [(posts?_eq_some hposts).2, Host.expand_eq, if_pos hforward] at hexpand
        cases hexpand
        have hquiet' : Mark.raises
            (marks ++ [.logged (.raising .processWide host.vm.handle text)]) = [] := by
          rw [Mark.raises_append, hquiet]
          rfl
        refine ⟨_, ?_, raisesLast_of_sight hquiet' hsight⟩
        exact (trace_observe htrace _).trans (by simp)

/-- **Every raise of an execution** is one in sight. -/
theorem Unrolls.raised (h : Unrolls hosts w steps ps w' left) (hfree : w.cell.held = false)
    (htrace : w'.trace = w.trace ++ (before ++ .raised vm text :: after)) :
    Raised hosts w steps before vm text := by
  induction h generalizing before with
  | start w steps =>
      have hnone := List.self_eq_append_right.mp htrace
      exact (List.append_ne_nil_of_right_ne_nil _ (List.cons_ne_nil _ _) hnone).elim
  | @next w w₁ w' step answer steps reaction left ps qs first expand rest ih =>
      obtain ⟨-, -, hfree₁, -, -⟩ := Step.opens_of_pause hfree first expand
      obtain ⟨marks, hmarks, hlast⟩ := raisesLast_of_pause hfree first expand
      obtain ⟨-, -, others, hothers, -⟩ := rest.chronicled hfree₁
      -- what is raised later than in the first step, after the marks of that step
      have hlater : ∀ early, before = marks ++ early →
          w'.trace = w₁.trace ++ (early ++ .raised vm text :: after) →
          Raised hosts w (step :: steps) before vm text := by
        rintro early rfl htrace'
        obtain ⟨host, v, qs', left', hunrolls, hv, hsight⟩ := ih hfree₁ htrace'
        refine ⟨host, v, _, left', .next first expand hunrolls, ?_, hsight⟩
        rw [hv, hmarks, List.append_assoc, List.append_assoc]
      rw [hothers, hmarks, List.append_assoc] at htrace
      rcases List.append_eq_append_iff.mp (List.append_cancel_left htrace) with
        ⟨early, hbefore, hsplit⟩ | ⟨_ | ⟨mark, late⟩, hmarked, hsplit⟩
      · exact hlater early hbefore (hsplit ▸ hothers)
      · exact hlater [] (by simpa using hmarked.symm) (by simpa [hothers] using hsplit.symm)
      · obtain ⟨rfl, rfl⟩ := List.cons_eq_cons.mp hsplit
        obtain ⟨rfl, host, hsight, rfl⟩ := hlast before vm text late hmarked
        exact ⟨host, w₁, _, _, .next first expand (.start _ _), hmarked ▸ hmarks, hsight⟩

/-! ### No waiting -/

/-- A step that names no VM object that exists comes to no end. -/
lemma stepWith_missing (react : Reaction) (w : World) (hnames : ¬ step.Names hosts) :
    stepWith react hosts w step = .error .missing := by
  have hmissing : ∀ vm, ¬ vm < hosts.length → hostAt hosts vm = .error .missing := by
    intro vm hvm
    rw [hostAt, List.getElem?_eq_none (Nat.le_of_not_lt hvm)]
  cases step with
  | plain | block => exact (hnames trivial).elim
  | report | reportTypeError | typeErrorText | lastError =>
      rw [stepWith, hmissing _ hnames]
      rfl

/-- An execution in two parts fails as one of them does. -/
lemma bind_ne_error {ε α β : Type} {x : Except ε α} {f : α → Except ε β} {e : ε}
    (hx : x ≠ .error e) (hf : ∀ a, x = .ok a → f a ≠ .error e) :
    (do let a ← x; f a) ≠ .error e := by
  cases x with
  | error e' => exact fun h => hx (congrArg _ (Except.error.inj h))
  | ok a => exact hf a rfl

/-- A way to run reactions that does not wait for the guard where it is free. -/
def Unhindered (react : Reaction) : Prop :=
  ∀ ⦃w steps⦄, w.cell.held = false → react w steps ≠ .error .deadlock

/-- A step does not wait for the guard, if reactions do not. -/
lemma stepWith_ne_deadlock (hreact : Unhindered react) (hfree : w.cell.held = false) :
    stepWith react hosts w step ≠ .error .deadlock := by
  by_cases hnames : step.Names hosts
  · obtain ⟨ps, w₁, reaction, hopens⟩ := Step.opens hfree hnames
    rcases hopens.leaves with ⟨-, answer, hends⟩ | ⟨-, -, -, -, -, -, answer, hends⟩
    · rw [hends react]
      nofun
    · rw [hends react]
      exact bind_ne_error (f := fun x => .ok (x.1, answer x.1 x.2)) (hreact hopens.free)
        fun x _ => nofun
  · rw [stepWith_missing react w hnames]
    nofun

/-- Nor does a list of steps, if none of them does. -/
lemma runWith_ne_deadlock {step : World → Step → Except Halt (World × Outcome Answer)}
    (hstep : ∀ {w s}, w.cell.held = false → step w s ≠ .error .deadlock)
    (hkeeps : ∀ {w w' s answer}, step w s = .ok (w', answer) → w'.cell.held = w.cell.held) :
    Unhindered (runWith step) := by
  intro w steps hfree
  induction steps generalizing w with
  | nil => nofun
  | cons s steps ih =>
      exact bind_ne_error (hstep hfree) fun x hfirst =>
        bind_ne_error (ih ((hkeeps hfirst).trans hfree)) fun y _ => nofun

/-- Nor does a step with reactions nested to any depth. -/
lemma step_ne_deadlock (depth : Nat) {w : World} {step : Step} (hfree : w.cell.held = false) :
    ProcessWide.step hosts depth w step ≠ .error .deadlock := by
  -- reactions run one level deeper, so the induction is on the depth alone
  induction depth generalizing w step with
  | zero => exact stepWith_ne_deadlock (fun _ _ _ => nofun) hfree
  | succ depth ih =>
      refine stepWith_ne_deadlock (runWith_ne_deadlock ih fun h => ?_) hfree
      obtain ⟨-, -, -, hheld⟩ := step_flattens depth h
      exact hheld

/-- **No execution asks for the guard while it is taken**, with reactions nested to any depth. -/
theorem run_ne_deadlock (hosts : List Host) (depth : Nat) (hfree : w.cell.held = false)
    (steps : List Step) : run hosts depth w steps ≠ .error .deadlock := by
  refine runWith_ne_deadlock (step_ne_deadlock depth) (fun h => ?_) hfree
  obtain ⟨-, -, -, hheld⟩ := step_flattens depth h
  exact hheld

/-! ### What VMs see -/

/-- **VMs may use the process while they are raised.**  As long as one thread has the process for
itself, whatever it and its VMs call, each call depending on what came before perhaps, the guard is
free between calls, and every VM that is raised has sight of the text.  So it is at every raise of
an execution of given steps, where the reaction comes next; and no such execution ever waits for
the guard. -/
theorem raised_in_sight (hosts : List Host) (hfree : w.cell.held = false) :
    (∀ i acts sys, Moves hosts (.idle w) acts sys → (∀ a ∈ acts, a.thread = i) →
      sys.world.cell.held = false ∧ ∀ xs vm text ys, acts = xs ++ .raise i vm text :: ys →
        ∃ host mid, Moves hosts (.idle w) (xs ++ [.raise i vm text]) mid
          ∧ Sight hosts host vm text mid.world)
    ∧ (∀ steps ps w' left, Unrolls hosts w steps ps w' left →
      w'.cell.held = false ∧ ∀ before vm text after,
        w'.trace = w.trace ++ (before ++ .raised vm text :: after) →
        Raised hosts w steps before vm text)
    ∧ ∀ depth steps, run hosts depth w steps ≠ .error .deadlock ∧ ∀ w' answers,
      run hosts depth w steps = .ok (w', answers) → ∃ ps, Unrolls hosts w steps ps w' [] := by
  refine ⟨fun i acts sys hmoves hthread => ⟨hmoves.effect.2.1.trans hfree, ?_⟩,
    fun steps ps w' left hunrolls => ⟨(hunrolls.chronicled hfree).2.1, ?_⟩,
    fun depth steps => ⟨run_ne_deadlock hosts depth hfree steps, fun w' answers => ?_⟩⟩
  · rintro xs vm text ys rfl
    exact hmoves.sight (fun a ha => hthread a (List.mem_append_left _ ha)) hfree
  · exact fun before vm text after => hunrolls.raised hfree
  · exact run_unrolls hfree

/-- A VM object that, when it is raised, asks for its error and reports to another one; and that
one, which takes the error of the first away and reports to it again. -/
def entwined : List Host :=
  [⟨⟨.one, .typeNames []⟩, [.plain (.isPending .one), .report 1 (.text "inner")], none⟩,
    ⟨⟨.two, .typeNames []⟩, [.plain (.message .one), .report 0 (.text "again")], none⟩]

/-- The first VM object is raised again while the second one is, which is raised while the first
one is: all that happened before is observed, and it has sight of the text. -/
theorem raised_in_sight_entwined :
    Raised entwined .fresh [.report 0 (.text "outer")]
      [.converted, .logged (.registry (.recorded .one "outer")),
        .logged (.raising .processWide .one "outer"), .raised 0 "outer",
        .converted, .logged (.registry (.recorded .two "inner")),
        .logged (.raising .processWide .two "inner"), .raised 1 "inner",
        .converted, .logged (.registry (.recorded .one "again")),
        .logged (.raising .processWide .one "again")] 0 "again" := by
  have htrace : (run entwined 3 .fresh [.report 0 (.text "outer")]).toOption.map (·.1.trace)
      = some ([.converted, .logged (.registry (.recorded .one "outer")),
        .logged (.raising .processWide .one "outer"), .raised 0 "outer",
        .converted, .logged (.registry (.recorded .two "inner")),
        .logged (.raising .processWide .two "inner"), .raised 1 "inner",
        .converted, .logged (.registry (.recorded .one "again")),
        .logged (.raising .processWide .one "again")] ++ .raised 0 "again" ::
        [.converted, .logged (.registry (.dropped .two))]) := by decide +kernel
  obtain ⟨-, hpoints, hruns⟩ := raised_in_sight entwined (w := .fresh) rfl
  rcases hrun : run entwined 3 .fresh [.report 0 (.text "outer")] with e | ⟨w', answers⟩
  · rw [hrun] at htrace
    cases htrace
  · rw [hrun] at htrace
    obtain ⟨ps, hunrolls⟩ := (hruns 3 _).2 w' answers hrun
    exact (hpoints _ ps w' [] hunrolls).2 _ _ _ _ (Option.some_inj.mp htrace)

end ScriptBinding.ProcessWide
