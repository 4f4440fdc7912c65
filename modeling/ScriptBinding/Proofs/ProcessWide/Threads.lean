import Mathlib.Logic.Function.Basic
import ScriptBinding.Proofs.ProcessWide.Chronicle

/-
Threads that share the process.

* `locked`: the locked section of a step; `Rest`: what is left of the step after it;
  `stepWith_eq_locked`: a step is its locked section and the rest.
* `Step.critical`, `Step.due?`: what a locked section does to the state, and the raise that it
  decides on; `locked_eq_ok`: it does nothing else.
* `System`, `Act`, `Move`: threads between their locked sections and their raises.
* `Moves`: what threads do, act by act; `Moves.split`, `Moves.append`.
* `moves_of_unrolls`: what is done in the process with the reactions of VMs, a single thread can
  do.
* `System.live`: no thread ever waits for another one.
-/
namespace ScriptBinding.ProcessWide

/-! ### Locked sections -/

/-- What is left of a step after its locked section: nothing, or the end of a report. -/
inductive Rest where
  | done (answer : Outcome Answer)
  | report (vm : Nat) (host : Host) (text : String) (posting : Binding.Posting)

namespace Rest

/-- What the locked section came to. -/
def values : Rest → List (Outcome Primitive.Value)
  | done answer => valuesOfOutcome answer
  | report _ _ _ posting => [.returned (.plain (.registry (.flag posting.recorded)))]

/-- The raise that is due. -/
def due? : Rest → Option (Nat × String)
  | done _ => none
  | report vm _ text posting => if posting.forward then some (vm, text) else none

/-- The end of a step that began when `start` marks had been observed. -/
def finish (react : Reaction) (start : Nat) (w : World) :
    Rest → Except Halt (World × Outcome Answer)
  | done answer => .ok (w, answer)
  | report vm host text posting => conclude react .processWide w start vm host text posting

end Rest

/-- The locked section of a report of a text. -/
def lockedText (w : World) (vm : Nat) (host : Host) (text : String) :
    Except Halt (World × Rest) := do
  let (w, posting) ← w.access (·.post host.vm.handle text) (·.events.map .logged) (fun _ => false)
  return (w, .report vm host text posting)

/-- The locked section of a step, and what the step does before it. -/
def locked (hosts : List Host) (w : World) : Step → Except Halt (World × Rest)
  | .report vm message => do
    let host ← hostAt hosts vm
    let start := w.trace.length
    let w := w.observe [.converted]
    match message.convert with
    | .aborted why => return (w, .done (.returned (reportAnswer w start vm (.aborted why) [])))
    | .returned text => lockedText w vm host text
  | .reportTypeError vm index expected => do
    let host ← hostAt hosts vm
    lockedText w vm host (host.vm.typeErrorText index expected)
  | step => do
    let (w, answer) ← stepWith pause hosts w step
    return (w, .done answer)

/-- What the locked section of a step does to the state. -/
def Step.critical (hosts : List Host) : Step → List Primitive
  | .plain p => [.plain p]
  | .block ps ending => [.block ps ending]
  | .report _ (.failing why) => [.settled (.aborted why)]
  | .report vm (.text text) => hosts[vm]?.toList.map fun host => .record host.vm.handle text none
  | .reportTypeError vm index expected => hosts[vm]?.toList.map fun host =>
    .record host.vm.handle (host.vm.typeErrorText index expected) none
  | .typeErrorText vm index expected => hosts[vm]?.toList.map fun host =>
    .settled (.returned (.text (host.vm.typeErrorText index expected)))
  | .lastError _ => []

/-- The VM object that a step reports to, and the text. -/
def Step.posts? (hosts : List Host) : Step → Option (Nat × Host × String)
  | .report vm (.text text) => hosts[vm]?.map (vm, ·, text)
  | .reportTypeError vm index expected => hosts[vm]?.map fun host =>
    (vm, host, host.vm.typeErrorText index expected)
  | _ => none

/-- The raise that a step decides on in its locked section, which finds the state `s`: that of a
report that is recorded, where the policy is on. -/
def Step.due? (hosts : List Host) (s : Binding) (step : Step) : Option (Nat × String) :=
  (step.posts? hosts).bind fun x =>
    if (s.post x.2.1.vm.handle x.2.2).2.recorded = true ∧ s.policy.enabled = true then
      some (x.1, x.2.2)
    else none

variable {hosts : List Host} {w w' : World} {step : Step} {rest : Rest} {react : Reaction}

/-- A report of a text is one to a VM object that there is, and expands to what the text does. -/
lemma posts?_eq_some {vm : Nat} {host : Host} {text : String}
    (h : step.posts? hosts = some (vm, host, text)) :
    hosts[vm]? = some host ∧ ∀ s, step.expand hosts s = some (host.expand s text) := by
  cases step with
  | report v message =>
      cases message with
      | failing => cases h
      | text =>
          obtain ⟨host', hhost, heq⟩ := Option.map_eq_some_iff.mp h
          cases heq
          refine ⟨hhost, fun s => ?_⟩
          rw [Step.expand, hhost]
          rfl
  | reportTypeError =>
      obtain ⟨host', hhost, heq⟩ := Option.map_eq_some_iff.mp h
      cases heq
      refine ⟨hhost, fun s => ?_⟩
      rw [Step.expand, hhost]
      rfl
  | _ => cases h

/-- **A step is its locked section and the rest**, for every way to run reactions. -/
theorem stepWith_eq_locked (react : Reaction) (hosts : List Host) (w : World) (step : Step) :
    stepWith react hosts w step = (do
      let (w', rest) ← locked hosts w step
      rest.finish react w.trace.length w') := by
  cases step with
  | plain p =>
      simp only [locked, stepWith]
      cases w.access (·.step p) Mark.ofReply (·.outcome.isAborted) <;> rfl
  | block ps ending =>
      simp only [locked, stepWith]
      cases w.access (attemptBlock ps ending) Mark.ofReply (·.outcome.isAborted) <;> rfl
  | report vm message =>
      simp only [locked, stepWith]
      cases hostAt hosts vm with
      | error e => rfl
      | ok host =>
          cases message with
          | failing why => rfl
          | text text =>
              show reportText react (w.observe [.converted]) w.trace.length vm host text
                = (lockedText (w.observe [.converted]) vm host text).bind _
              simp only [reportText, lockedText]
              cases (w.observe [.converted]).access (·.post host.vm.handle text)
                (·.events.map Mark.logged) (fun _ => false) <;> rfl
  | reportTypeError vm index expected =>
      simp only [locked, stepWith]
      cases hostAt hosts vm with
      | error e => rfl
      | ok host =>
          show reportText react w w.trace.length vm host (host.vm.typeErrorText index expected)
            = (lockedText w vm host (host.vm.typeErrorText index expected)).bind _
          simp only [reportText, lockedText]
          cases w.access (·.post host.vm.handle (host.vm.typeErrorText index expected))
            (·.events.map Mark.logged) (fun _ => false) <;> rfl
  | typeErrorText vm | lastError vm =>
      simp only [locked, stepWith]
      cases hostAt hosts vm <;> rfl

/-- The locked section of a report: its text is posted in the state, and that is the last thing
to be observed. -/
structure Step.Posts (hosts : List Host) (step : Step) (w w' : World) (vm : Nat) (host : Host)
    (text : String) (posting : Binding.Posting) : Prop where
  posts : step.posts? hosts = some (vm, host, text)
  posted : posting = (w.cell.state.post host.vm.handle text).2
  state : w'.cell.state = (w.cell.state.post host.vm.handle text).1
  trace : ∃ marks, w'.trace = w.trace ++ (marks ++ posting.events.map .logged)
    ∧ Mark.raises marks = []

lemma Step.Posts.found {vm : Nat} {host : Host} {text : String} {posting : Binding.Posting}
    (h : step.Posts hosts w w' vm host text posting) : hosts[vm]? = some host :=
  (posts?_eq_some h.posts).1

/-- What the locked section of a step does: it runs on the state, it raises nothing, and it
decides on the raise that is due. -/
structure Step.Locks (hosts : List Host) (step : Step) (w w' : World) (rest : Rest) : Prop where
  run : Primitive.run w.cell.state (step.critical hosts) = (w'.cell.state, rest.values)
  held : w'.cell.held = w.cell.held
  trace : ∃ marks, w'.trace = w.trace ++ marks ∧ Mark.raises marks = []
  due : rest.due? = step.due? hosts w.cell.state
  report : ∀ vm host text posting, rest = .report vm host text posting →
    step.Posts hosts w w' vm host text posting

/-- A report of a text, where it is all that is left to do in a locked section. -/
lemma lockedText_eq_ok {vm : Nat} {host : Host} {text : String} {marks : List Mark}
    (hposts : step.posts? hosts = some (vm, host, text))
    (hcritical : step.critical hosts = [.record host.vm.handle text none])
    (hquiet : Mark.raises marks = [])
    (h : lockedText (w.observe marks) vm host text = .ok (w', rest)) :
    step.Locks hosts w w' rest := by
  simp only [lockedText, bind_eq_ok] at h
  obtain ⟨⟨w₁, posting⟩, haccess, h⟩ := h
  cases h
  obtain ⟨rfl, hstate, hheld⟩ := access_eq_ok haccess
  have htrace := (access_trace haccess).trans (List.append_assoc ..)
  refine ⟨?_, hheld, ⟨_, htrace, ?_⟩, ?_, ?_⟩
  · rw [hcritical, run_record, hstate]
    rfl
  · rw [Mark.raises_append, hquiet, Mark.raises_logged]
    rfl
  · rw [Step.due?, hposts]
    exact if_congr Bool.and_eq_true_iff rfl rfl
  · intro vm' host' text' posting' heq
    cases heq
    exact ⟨hposts, rfl, hstate, marks, htrace, hquiet⟩

/-- **What a locked section does.** -/
theorem locked_eq_ok (h : locked hosts w step = .ok (w', rest)) : step.Locks hosts w w' rest := by
  have hdone : ∀ (answer : Outcome Answer) vm host text posting,
      Rest.done answer = .report vm host text posting →
      step.Posts hosts w w' vm host text posting := nofun
  cases step with
  | plain p =>
      simp only [locked, stepWith, bind_eq_ok] at h
      obtain ⟨⟨w₁, answer⟩, ⟨⟨w₂, reply⟩, haccess, hanswer⟩, h⟩ := h
      cases hanswer
      cases h
      obtain ⟨rfl, hstate, hheld⟩ := access_eq_ok haccess
      refine ⟨?_, hheld, ⟨_, access_trace haccess, Mark.raises_ofReply _⟩, rfl, hdone _⟩
      rw [hstate]
      exact run_plain _ p
  | block ps ending =>
      simp only [locked, stepWith, bind_eq_ok] at h
      obtain ⟨⟨w₁, answer⟩, ⟨⟨w₂, reply⟩, haccess, hanswer⟩, h⟩ := h
      cases hanswer
      cases h
      obtain ⟨rfl, hstate, hheld⟩ := access_eq_ok haccess
      refine ⟨?_, hheld, ⟨_, access_trace haccess, Mark.raises_ofReply _⟩, rfl, hdone _⟩
      rw [hstate]
      exact run_block _ ps ending
  | report vm message =>
      simp only [locked, bind_eq_ok] at h
      obtain ⟨host, hhost, h⟩ := h
      have hfound := hostAt_eq_ok hhost
      cases message with
      | failing why =>
          cases h
          exact ⟨rfl, rfl, ⟨_, rfl, rfl⟩, rfl, hdone _⟩
      | text text =>
          refine lockedText_eq_ok ?_ ?_ rfl h
          · rw [Step.posts?, hfound]
            rfl
          · rw [Step.critical, hfound]
            rfl
  | reportTypeError vm index expected =>
      simp only [locked, bind_eq_ok] at h
      obtain ⟨host, hhost, h⟩ := h
      have hfound := hostAt_eq_ok hhost
      rw [← observe_nil w] at h
      refine lockedText_eq_ok ?_ ?_ rfl h
      · rw [Step.posts?, hfound]
        rfl
      · rw [Step.critical, hfound]
        rfl
  | typeErrorText vm index expected =>
      simp only [locked, stepWith, bind_eq_ok] at h
      obtain ⟨⟨w₁, answer⟩, ⟨host, hhost, hanswer⟩, h⟩ := h
      cases hanswer
      cases h
      refine ⟨?_, rfl, ⟨[], (List.append_nil _).symm, rfl⟩, rfl, hdone _⟩
      rw [Step.critical, hostAt_eq_ok hhost]
      rfl
  | lastError vm =>
      simp only [locked, stepWith, bind_eq_ok] at h
      obtain ⟨⟨w₁, answer⟩, ⟨host, hhost, hanswer⟩, h⟩ := h
      cases hanswer
      cases h
      exact ⟨rfl, rfl, ⟨[], (List.append_nil _).symm, rfl⟩, rfl, hdone _⟩

/-! ### Threads -/

/-- The process, and for each thread the raise that it has still to perform, if there is one. -/
structure System where
  world : World
  due : Nat → Option (Nat × String)

/-- What a thread does at one go. -/
inductive Act where
  /-- The locked section of a step, the state that it found, and what it came to. -/
  | call (thread : Nat) (step : Step) (before : Binding) (values : List (Outcome Primitive.Value))
  /-- A text raised in the VM object at an index. -/
  | raise (thread vm : Nat) (text : String)

namespace Act

/-- The thread that acts. -/
def thread : Act → Nat
  | call i _ _ _ | raise i _ _ => i

/-- What an act does to the state. -/
def critical (hosts : List Host) : Act → List Primitive
  | call _ step _ _ => step.critical hosts
  | raise _ _ _ => []

/-- What the locked section of an act came to. -/
def values : Act → List (Outcome Primitive.Value)
  | call _ _ _ values => values
  | raise _ _ _ => []

/-- The message that an act raises, and in which VM object. -/
def raised? : Act → Option (Nat × String)
  | call _ _ _ _ => none
  | raise _ vm text => some (vm, text)

end Act

/-- One act of some thread.  A thread that has a raise to perform does so, in its own time; any
other may call whatever it likes, so this takes in whatever programs the threads have, and
whatever VMs call when they are raised. -/
inductive Move (hosts : List Host) : System → Act → System → Prop where
  | call {sys : System} {i : Nat} {step : Step} {w : World} {rest : Rest}
      (idle : sys.due i = none) (locked : locked hosts sys.world step = .ok (w, rest)) :
      Move hosts sys (.call i step sys.world.cell.state rest.values)
        ⟨w, Function.update sys.due i rest.due?⟩
  | raise {sys : System} {i vm : Nat} {text : String} {host : Host}
      (due : sys.due i = some (vm, text)) (found : hosts[vm]? = some host) :
      Move hosts sys (.raise i vm text)
        ⟨sys.world.observe (Mark.ofRaise .processWide vm host.vm.handle text),
          Function.update sys.due i none⟩

/-- Acts of threads, one after the other. -/
inductive Moves (hosts : List Host) : System → List Act → System → Prop where
  | nil (sys : System) : Moves hosts sys [] sys
  | cons {sys mid last : System} {a : Act} {acts : List Act} (first : Move hosts sys a mid)
      (rest : Moves hosts mid acts last) : Moves hosts sys (a :: acts) last

variable {sys mid last : System} {a : Act} {xs ys acts : List Act} {i : Nat}

lemma Moves.append (h : Moves hosts sys xs mid) (h' : Moves hosts mid ys last) :
    Moves hosts sys (xs ++ ys) last := by
  induction h with
  | nil => exact h'
  | cons first _ ih => exact .cons first (ih h')

/-- An execution up to one of its acts. -/
lemma Moves.split (h : Moves hosts sys (xs ++ ys) last) :
    ∃ mid, Moves hosts sys xs mid ∧ Moves hosts mid ys last := by
  induction xs generalizing sys with
  | nil => exact ⟨sys, .nil sys, h⟩
  | cons x xs ih =>
      cases h with
      | cons first rest =>
          obtain ⟨mid, hxs, hys⟩ := ih rest
          exact ⟨mid, .cons first hxs, hys⟩

/-! ### A single thread -/

/-- The process, while no thread has a raise to perform. -/
def System.idle (w : World) : System :=
  ⟨w, fun _ => none⟩

lemma update_idle (w : World) (i : Nat) (due : Option (Nat × String)) :
    (System.mk w (Function.update (Function.update (fun _ => none) i due) i none)) = .idle w := by
  rw [Function.update_idem, Function.update_eq_self]
  rfl

/-- What a step does before the reaction of its VM, a thread can do. -/
lemma moves_of_pause {w₁ : World} {answer : Outcome Answer} (i : Nat)
    (h : stepWith pause hosts w step = .ok (w₁, answer)) :
    ∃ acts, Moves hosts (.idle w) acts (.idle w₁) ∧ ∀ a ∈ acts, a.thread = i := by
  rw [stepWith_eq_locked, bind_eq_ok] at h
  obtain ⟨⟨w', rest⟩, hlocked, hfinish⟩ := h
  have hcall : Move hosts (.idle w) (.call i step w.cell.state rest.values)
      ⟨w', Function.update (fun _ => none) i rest.due?⟩ := .call rfl hlocked
  have hsilent : rest.due? = none → Moves hosts (.idle w)
      [.call i step w.cell.state rest.values] (.idle w') := by
    intro hdue
    rw [hdue, Function.update_eq_self] at hcall
    exact .cons hcall (.nil _)
  cases rest with
  | done answer' =>
      cases hfinish
      exact ⟨_, hsilent rfl, List.forall_mem_singleton.mpr rfl⟩
  | report vm host text posting =>
      rcases conclude_eq_ok hfinish with ⟨hforward, rfl, -⟩ | ⟨hforward, nested, hnested, -⟩
      · exact ⟨_, hsilent (if_neg (Bool.not_eq_true _ ▸ hforward)),
          List.forall_mem_singleton.mpr rfl⟩
      · rw [observe_observe] at hnested
        cases hnested
        have hdue : (Rest.report vm host text posting).due? = some (vm, text) := if_pos hforward
        rw [hdue] at hcall
        have hself : Function.update (fun _ => none) i (some (vm, text)) i = some (vm, text) :=
          Function.update_self ..
        have hraise : Move hosts ⟨w', Function.update (fun _ => none) i (some (vm, text))⟩
            (.raise i vm text) ⟨w'.observe (Mark.ofRaise .processWide vm host.vm.handle text),
              Function.update (Function.update (fun _ => none) i (some (vm, text))) i none⟩ :=
          .raise hself ((locked_eq_ok hlocked).report _ _ _ _ rfl).found
        rw [update_idle] at hraise
        exact ⟨_, .cons hcall (.cons hraise (.nil _)),
          List.forall_mem_cons.mpr ⟨rfl, List.forall_mem_singleton.mpr rfl⟩⟩

/-- **What unrolls in the process, a single thread can do**, the reactions of VMs included. -/
theorem moves_of_unrolls {steps left : List Step} {ps : List Primitive} (i : Nat)
    (h : Unrolls hosts w steps ps w' left) :
    ∃ acts, Moves hosts (.idle w) acts (.idle w') ∧ ∀ a ∈ acts, a.thread = i := by
  induction h with
  | start w steps => exact ⟨[], .nil _, List.forall_mem_nil _⟩
  | next first _ _ ih =>
      obtain ⟨xs, hxs, hthread⟩ := moves_of_pause i first
      obtain ⟨ys, hys, hthread'⟩ := ih
      exact ⟨xs ++ ys, hxs.append hys, List.forall_mem_append.mpr ⟨hthread, hthread'⟩⟩

/-! ### No waiting -/

/-- A thread that has a raise to perform can do so, and any other can call what it likes. -/
structure System.Live (hosts : List Host) (sys : System) : Prop where
  call : ∀ i step, sys.due i = none → step.Names hosts →
    ∃ values sys', Move hosts sys (.call i step sys.world.cell.state values) sys'
  raise : ∀ i vm text, sys.due i = some (vm, text) → ∃ sys', Move hosts sys (.raise i vm text) sys'

/-- Wherever the guard is free, a step comes to the end of its locked section. -/
lemma locked_of_free (hfree : w.cell.held = false) (hnames : step.Names hosts) :
    ∃ w' rest, locked hosts w step = .ok (w', rest) := by
  obtain ⟨ps, w₁, reaction, hopens⟩ := Step.opens hfree hnames
  obtain ⟨answer, hpause⟩ := hopens.pause
  rw [stepWith_eq_locked, bind_eq_ok] at hpause
  obtain ⟨⟨w', rest⟩, hlocked, -⟩ := hpause
  exact ⟨w', rest, hlocked⟩

/-- No thread ever waits for another one. -/
lemma System.live (hfree : sys.world.cell.held = false)
    (hdue : ∀ i vm text, sys.due i = some (vm, text) → vm < hosts.length) : sys.Live hosts where
  call i step hidle hnames := by
    obtain ⟨w', rest, hlocked⟩ := locked_of_free hfree hnames
    exact ⟨rest.values, _, .call hidle hlocked⟩
  raise i vm text hi := ⟨_, .raise hi (List.getElem?_eq_getElem (hdue i vm text hi))⟩

end ScriptBinding.ProcessWide
