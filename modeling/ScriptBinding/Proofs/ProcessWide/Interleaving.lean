import ScriptBinding.Proofs.ProcessWide.Attempts
import ScriptBinding.Proofs.ProcessWide.Threads

/-
Threads that share the process, explained one locked section after the other.

* `critical`, `own`: what acts do to the state, and the acts of one thread.
* `Moves.effect`: acts do to the state what their locked sections do, in that order, and raise
  what they raise.
* `Moves.due`: a thread has the raise to perform that its last locked section decided on, until
  it performs it; `Moves.head?_own`: it is its next act.
* `Explained`: all that can be told of the acts of threads from the order of their locked
  sections.
* `interleaving_explained`: every execution of threads is explained so.
-/
namespace ScriptBinding.ProcessWide

/-- What acts do to the state, in the order of their locked sections. -/
def critical (hosts : List Host) (acts : List Act) : List Primitive :=
  acts.flatMap (·.critical hosts)

/-- The acts of a thread. -/
def own (i : Nat) (acts : List Act) : List Act :=
  acts.filter (·.thread = i)

/-- The raise that is due after an act of a thread. -/
def Act.due? (hosts : List Host) : Act → Option (Nat × String)
  | call _ step before _ => step.due? hosts before
  | raise _ _ _ => none

/-- What acts of threads amount to, from a process on in which no raise is due. -/
structure Explained (hosts : List Host) (w : World) (acts : List Act) (sys : System) : Prop where
  /-- The state, and what the locked sections come to, is that of their run, one after the
  other. -/
  sequential : Primitive.run w.cell.state (critical hosts acts)
    = (sys.world.cell.state, acts.flatMap (·.values))
  /-- Each of them finds what those before it left. -/
  found : ∀ xs i step s values ys, acts = xs ++ .call i step s values :: ys →
    s = (Primitive.run w.cell.state (critical hosts xs)).1
  /-- Of the texts that are offered for a VM, the first one is recorded, and no other, from the
  start, if nothing is pending there, or from a removal, to the next removal. -/
  firstWins : ∀ vm xs ys zs, chronicle w.cell.state (critical hosts acts) = xs ++ (ys ++ zs) →
    (xs = [] ∧ w.cell.state.errors.isPending vm = false
      ∨ ∃ r, xs.getLast? = some r ∧ r.Removes vm) →
    (∀ d ∈ ys, ¬ d.Removes vm) → FirstWins vm ys
  /-- What a thread raises, its own report decided on, and that was its last act. -/
  raises : ∀ xs i vm text ys, acts = xs ++ .raise i vm text :: ys → ∃ step s values,
    (own i xs).getLast? = some (.call i step s values) ∧ step.due? hosts s = some (vm, text)
  /-- No report is raised twice: between two raises of a thread it made the second report. -/
  once : ∀ xs i vm text ys vm' text' zs,
    acts = xs ++ .raise i vm text :: (ys ++ .raise i vm' text' :: zs) → ∃ step s values,
      (own i ys).getLast? = some (.call i step s values)
        ∧ step.due? hosts s = some (vm', text')
  /-- Where a thread has no raise to perform in the end, each of its reports performed one, as the
  next act of the thread, if and only if it was recorded while the policy was on. -/
  performed : ∀ xs i step s values ys, acts = xs ++ .call i step s values :: ys →
    sys.due i = none → ∀ vm text,
      (own i ys).head? = some (.raise i vm text) ↔ step.due? hosts s = some (vm, text)
  /-- Nothing else is raised. -/
  raised : ∃ marks, sys.world.trace = w.trace ++ marks
    ∧ Mark.raises marks = acts.filterMap Act.raised?
  /-- No thread waits for another one. -/
  live : sys.Live hosts

variable {hosts : List Host} {w : World} {sys sys' last : System} {a : Act} {acts : List Act}
  {i : Nat}

lemma own_cons_of_eq (h : a.thread = i) : own i (a :: acts) = a :: own i acts :=
  List.filter_cons_of_pos (decide_eq_true h)

lemma own_cons_of_ne (h : a.thread ≠ i) : own i (a :: acts) = own i acts :=
  List.filter_cons_of_neg (by simpa using h)

/-! ### One act -/

/-- What an act does to the process. -/
lemma Move.effect (h : Move hosts sys a sys') :
    Primitive.run sys.world.cell.state (a.critical hosts) = (sys'.world.cell.state, a.values)
      ∧ sys'.world.cell.held = sys.world.cell.held
      ∧ ∃ marks, sys'.world.trace = sys.world.trace ++ marks
        ∧ Mark.raises marks = a.raised?.toList := by
  cases h with
  | call _ locked =>
      have hlocks := locked_eq_ok locked
      exact ⟨hlocks.run, hlocks.held, hlocks.trace⟩
  | raise => exact ⟨rfl, rfl, _, rfl, rfl⟩

/-- What an act leaves to be raised. -/
lemma Move.due (h : Move hosts sys a sys') (i : Nat) :
    sys'.due i = if a.thread = i then a.due? hosts else sys.due i := by
  cases h with
  | call _ locked =>
      show Function.update _ _ _ _ = _
      rw [(locked_eq_ok locked).due, Function.update_apply]
      simp only [Act.thread, Act.due?, eq_comm]
  | raise =>
      show Function.update _ _ _ _ = _
      rw [Function.update_apply]
      simp only [Act.thread, Act.due?, eq_comm]

/-- A raise that is due is one of a VM object that there is. -/
lemma lt_of_due? {step : Step} {s : Binding} {vm : Nat} {text : String}
    (h : step.due? hosts s = some (vm, text)) : vm < hosts.length := by
  obtain ⟨⟨v, host, t⟩, hposts, hdue⟩ := Option.bind_eq_some_iff.mp h
  obtain ⟨-, heq⟩ := Option.ite_none_right_eq_some.mp hdue
  cases heq
  exact (List.getElem?_eq_some_iff.mp (posts?_eq_some hposts).1).1

/-! ### Executions -/

/-- What acts do to the process. -/
lemma Moves.effect (h : Moves hosts sys acts last) :
    Primitive.run sys.world.cell.state (critical hosts acts)
        = (last.world.cell.state, acts.flatMap (·.values))
      ∧ last.world.cell.held = sys.world.cell.held
      ∧ ∃ marks, last.world.trace = sys.world.trace ++ marks
        ∧ Mark.raises marks = acts.filterMap Act.raised? := by
  induction h with
  | nil => exact ⟨rfl, rfl, [], (List.append_nil _).symm, rfl⟩
  | @cons sys mid last a acts first rest ih =>
      obtain ⟨hrun, hheld, marks, htrace, hraises⟩ := first.effect
      obtain ⟨hrun', hheld', marks', htrace', hraises'⟩ := ih
      refine ⟨?_, hheld'.trans hheld, marks ++ marks', ?_, ?_⟩
      · rw [critical, List.flatMap_cons, Primitive.run_append, hrun]
        show ((Primitive.run _ (critical hosts acts)).1,
          a.values ++ (Primitive.run _ (critical hosts acts)).2) = _
        rw [hrun', List.flatMap_cons]
      · rw [htrace', htrace, List.append_assoc]
      · rw [Mark.raises_append, hraises, hraises', List.filterMap_cons]
        cases a.raised? <;> rfl

/-- A thread has the raise to perform that its last act left. -/
lemma Moves.due (h : Moves hosts sys acts last) (i : Nat) :
    last.due i = ((own i acts).getLast?.map (·.due? hosts)).getD (sys.due i) := by
  induction h with
  | nil => rfl
  | @cons sys mid last a acts first rest ih =>
      rw [ih, first.due i]
      by_cases hi : a.thread = i
      · rw [own_cons_of_eq hi, List.getLast?_cons, if_pos hi]
        cases (own i acts).getLast? <;> rfl
      · rw [own_cons_of_ne hi, if_neg hi]

/-- A raise that is due is the next act of its thread. -/
lemma Moves.head?_own (h : Moves hosts sys acts last) (hlast : last.due i = none) (vm : Nat)
    (text : String) :
    (own i acts).head? = some (.raise i vm text) ↔ sys.due i = some (vm, text) := by
  induction h with
  | nil =>
      rw [hlast]
      exact ⟨nofun, nofun⟩
  | @cons sys mid last a acts first rest ih =>
      by_cases hi : a.thread = i
      · rw [own_cons_of_eq hi, List.head?_cons, Option.some_inj]
        cases first with
        | @call j step w rest idle locked =>
            obtain rfl : j = i := hi
            rw [idle]
            exact ⟨nofun, nofun⟩
        | @raise j vm' text' host due found =>
            obtain rfl : j = i := hi
            rw [due]
            simp
      · have hmid := first.due i
        rw [if_neg hi] at hmid
        rw [own_cons_of_ne hi, ← hmid]
        exact ih hlast

/-- An act of a thread that leaves a raise to be performed is a locked section. -/
lemma Act.of_due? {vm : Nat} {text : String} (h : a.due? hosts = some (vm, text))
    (hi : a.thread = i) : ∃ step s values, a = .call i step s values
      ∧ step.due? hosts s = some (vm, text) := by
  cases a with
  | call j step s values =>
      obtain rfl : j = i := hi
      exact ⟨step, s, values, rfl, h⟩
  | raise => cases h

/-- A raise that is due, the last act of its thread decided on. -/
lemma Moves.exists_call (h : Moves hosts (.idle w) acts sys) {vm : Nat} {text : String}
    (hdue : sys.due i = some (vm, text)) : ∃ step s values,
      (own i acts).getLast? = some (.call i step s values)
        ∧ step.due? hosts s = some (vm, text) := by
  rw [h.due i] at hdue
  cases hlast : (own i acts).getLast? with
  | none =>
      rw [hlast] at hdue
      cases hdue
  | some a =>
      rw [hlast] at hdue
      have hown : a.thread = i := by
        have hmem := List.mem_filter.mp (List.mem_of_getLast? hlast)
        exact of_decide_eq_true hmem.2
      obtain ⟨step, s, values, rfl, hstep⟩ := Act.of_due? hdue hown
      exact ⟨step, s, values, rfl, hstep⟩

/-- The deeds of threads from some point on, at which nothing is pending. -/
lemma firstWins_of_segment {s : Binding} {ps : List Primitive} {vm : Handle} {xs ys zs : List Deed}
    (hsplit : chronicle s ps = xs ++ (ys ++ zs))
    (hstart : xs = [] ∧ s.errors.isPending vm = false
      ∨ ∃ r, xs.getLast? = some r ∧ r.Removes vm)
    (hkeeps : ∀ d ∈ ys, ¬ d.Removes vm) : FirstWins vm ys := by
  have hfollows := follows_chronicle s ps
  rw [hsplit] at hfollows
  obtain ⟨u, hxs, hrest⟩ := hfollows.of_append
  obtain ⟨v, hys, -⟩ := hrest.of_append
  refine hys.firstWins ?_ hkeeps
  rcases hstart with ⟨rfl, hidle⟩ | ⟨r, hr, hremoves⟩
  · cases hxs
    exact hidle
  · rw [hxs.eq_after hr]
    exact hremoves.2

/-- So two raises of a thread have a locked section between them. -/
lemma Moves.exists_between {xs ys : List Act} {vm : Nat} {text : String}
    (h : Moves hosts (.idle w) (xs ++ .raise i vm text :: ys) sys) {vm' : Nat} {text' : String}
    (hdue : sys.due i = some (vm', text')) : ∃ step s values,
      (own i ys).getLast? = some (.call i step s values)
        ∧ step.due? hosts s = some (vm', text') := by
  obtain ⟨step, s, values, hlast, hstep⟩ := h.exists_call hdue
  have happend : own i (xs ++ .raise i vm text :: ys)
      = own i xs ++ .raise i vm text :: own i ys := by
    have hraise : own i (.raise i vm text :: ys) = .raise i vm text :: own i ys :=
      own_cons_of_eq rfl
    rw [← hraise]
    exact List.filter_append ..
  rw [happend, List.getLast?_append, List.getLast?_cons, Option.some_or, Option.some_inj] at hlast
  refine ⟨step, s, values, ?_, hstep⟩
  cases hys : (own i ys).getLast? with
  | none =>
      rw [hys] at hlast
      cases hlast
  | some a =>
      rw [hys] at hlast
      exact congrArg some hlast

/-- Acts of threads are explained by the order of their locked sections. -/
lemma Moves.explained (h : Moves hosts (.idle w) acts sys) (hfree : w.cell.held = false) :
    Explained hosts w acts sys where
  sequential := h.effect.1
  found := by
    rintro xs i step s values ys rfl
    obtain ⟨mid, hxs, hrest⟩ := h.split
    cases hrest with
    | cons first _ =>
        cases first
        exact (congrArg Prod.fst hxs.effect.1).symm
  firstWins := fun _ _ _ _ => firstWins_of_segment
  raises := by
    rintro xs i vm text ys rfl
    obtain ⟨mid, hxs, hrest⟩ := h.split
    cases hrest with
    | cons first _ =>
        cases first with
        | raise due => exact hxs.exists_call due
  once := by
    rintro xs i vm text ys vm' text' zs rfl
    rw [← List.cons_append, ← List.append_assoc] at h
    obtain ⟨mid, hxs, hrest⟩ := h.split
    cases hrest with
    | cons first _ =>
        cases first with
        | raise due => exact hxs.exists_between due
  performed := by
    rintro xs i step s values ys rfl hlast vm text
    obtain ⟨mid, -, hrest⟩ := h.split
    cases hrest with
    | cons first rest =>
        have hdue : _ = step.due? hosts s := (first.due i).trans (if_pos rfl)
        rw [rest.head?_own hlast vm text, hdue]
  raised := h.effect.2.2
  live := by
    refine System.live (h.effect.2.1.trans hfree) fun i vm text hdue => ?_
    obtain ⟨step, s, values, -, hstep⟩ := h.exists_call hdue
    exact lt_of_due? hstep

/-- **Threads that share the process are explained one locked section after the other**: whatever
any number of threads call, and in whatever order, the state and all answers are those of the
locked sections run in their order; of the texts that are offered for a VM between two removals
the first one is recorded, and no other; each raise is that of the report that its thread made
just before, and a thread that has none to perform has performed one for each of its reports
that was recorded while the policy was on, and for no other, whatever other threads did in
between.  No thread waits for another one, and what is done in the process one step after the
other, with the reactions of VMs, a single thread can do. -/
theorem interleaving_explained (hosts : List Host) {w : World} (hfree : w.cell.held = false) :
    (∀ acts sys, Moves hosts (.idle w) acts sys → Explained hosts w acts sys)
      ∧ ∀ i depth steps w' answers, run hosts depth w steps = .ok (w', answers) →
        ∃ acts, Moves hosts (.idle w) acts (.idle w') ∧ ∀ a ∈ acts, a.thread = i := by
  refine ⟨fun acts sys h => h.explained hfree, fun i depth steps w' answers h => ?_⟩
  obtain ⟨ps, hps⟩ := run_unrolls hfree h
  exact moves_of_unrolls i hps

/-- One VM object, which two threads report to. -/
def contended : List Host :=
  [⟨⟨.one, .typeNames []⟩, [], none⟩]

/-- A thread reports; before it raises its message, another one drains that, turns the policy off
and tries to throw after a third one has reported. -/
theorem interleaving_explained_drained :
    ∃ acts sys, Moves contended (.idle .fresh) acts sys
      ∧ acts.map (fun a => (a.thread, a.raised?))
        = [(0, none), (1, none), (1, none), (2, none), (0, some (0, "first")), (1, none)]
      ∧ sys.world.cell.state.errors.peek .one = some "second"
      ∧ Mark.raises sys.world.trace = [(0, "first")]
      ∧ (∀ i, sys.due i = none)
      ∧ Explained contended .fresh acts sys := by
  have hmoves := Moves.cons (@Move.call contended (.idle .fresh) 0 (.report 0 (.text "first"))
      _ _ rfl rfl)
    (.cons (@Move.call contended _ 1 (.plain (.message .one)) _ _ rfl rfl)
    (.cons (@Move.call contended _ 1 (.plain (.enable false)) _ _ rfl rfl)
    (.cons (@Move.call contended _ 2 (.report 0 (.text "second")) _ _ rfl rfl)
    (.cons (@Move.raise contended _ 0 0 "first" _ rfl rfl)
    (.cons (@Move.call contended _ 1 (.block [.errors (.tryThrow .one (.text "third"))] none)
      _ _ rfl rfl) (.nil _))))))
  have hexplained := (interleaving_explained contended (w := .fresh) rfl).1 _ _ hmoves
  refine ⟨_, _, hmoves, rfl, rfl, rfl, fun i => ?_, hexplained⟩
  match i with
  | 0 | 1 | 2 | _ + 3 => rfl

end ScriptBinding.ProcessWide
