import ScriptBinding.Proofs.Binding.FirstWins

/-
No recorded message is lost, told twice, or told for another VM.

* `Session.Entry`, `Session.journal`: what each step on a state found there, what
  it answered, and what it left.
* `Entry.recorded?`, `Entry.handedOut?`: what a step says it recorded, and what it
  hands out as drained, both read off its answer; `Entry.removed?`: what was
  pending before a step and is not after it, read off the states.
* `Entry.Balanced`: the books of one step; `balanced_step`: every step keeps them.
* `messages_conserved`: over every history, what is recorded for a handle is what is
  removed for it, in the same order, and what is still pending.
-/
namespace ScriptBinding.Registry

variable {κ : Type} [DecidableEq κ]

/-- Whether an operation drains a key and hands out what was pending. -/
def Step.handsOut (k : κ) : Step κ → Bool
  | .message j | .take j | .close j => j = k
  | _ => false

/-- A key is drained by handing out what was pending, or by discarding it. -/
lemma drains_iff {k : κ} {step : Step κ} :
    step.drains k = true ↔ step.handsOut k = true ∨ step = .clear k := by
  cases step <;> simp [Step.drains, Step.handsOut]

/-- An operation that offers a text for a key does not drain it. -/
lemma offered?_of_drains {k : κ} {step : Step κ} (h : step.drains k = true) :
    step.offered? k = none := by
  cases step <;> first | rfl | exact absurd h Bool.false_ne_true

lemma key?_of_offered? {k : κ} {step : Step κ} {text : String} (h : step.offered? k = some text) :
    step.key? = some k := by
  by_contra hne
  rw [offered?_of_ne hne] at h
  cases h

lemma key?_of_drains {k : κ} {step : Step κ} (h : step.drains k = true) : step.key? = some k := by
  by_contra hne
  rw [drains_of_ne hne] at h
  cases h

end ScriptBinding.Registry

namespace ScriptBinding.Binding.Session

open ProcessWide

/-! ### Journals -/

/-- What a step found in the state that it ran on, what it answered, and what it
left. -/
structure Entry where
  before : Binding
  step : Step
  answer : Outcome Answer
  after : Binding

/-- The entries of the steps on the state at an index. -/
def journal (react : Reaction) (hosts : List Host) (i : Nat) (session : Session) :
    List (Nat × Step) → Except Halt (List Entry)
  | [] => return []
  | (j, step) :: steps => do
    let before ← session.stateAt i
    let (session, answer) ← session.step react hosts j step
    let after ← session.stateAt i
    let entries ← session.journal react hosts i steps
    return if j = i then ⟨before, step, answer, after⟩ :: entries else entries

/-- Whether a step says that its message was recorded.  A VM that aborts while it is
raised is raised after that. -/
def Answer.accepts : Outcome Answer → Bool
  | .returned (.answered (.plain (.registry (.flag true))))
  | .returned (.answered (.plain (.registry .done)))
  | .returned (.answered (.report (.returned true) _ _ _))
  | .returned (.answered (.report (.aborted _) _ _ _)) => true
  | _ => false

/-- The text that a step answers: as such, as a message found, or as an error. -/
def Answer.text? : Outcome Answer → Option String
  | .returned (.answered (.plain (.registry (.text s)))) => some s
  | .returned (.answered (.plain (.registry (.found m)))) => m
  | .returned (.answered (.plain (.registry (.refused (.script s))))) => some s
  | _ => none

namespace Entry

variable (hosts : List Host) (vm : Handle)

/-- The operation of the registry that the step amounts to. -/
def op? (e : Entry) : Option (Registry.Step Handle) :=
  e.step.registry? hosts e.before.defaultVm.vm

/-- The text that the step says it recorded for a handle. -/
def recorded? (e : Entry) : Option String :=
  if Answer.accepts e.answer then (e.op? hosts).bind (·.offered? vm) else none

/-- The text that the step hands out as drained for a handle. -/
def handedOut? (e : Entry) : Option String :=
  if (e.op? hosts).any (·.handsOut vm) then Answer.text? e.answer else none

/-- What was pending for a handle before the step and is not after it. -/
def removed? (e : Entry) : Option String :=
  if (e.after.errors.peek vm).isNone then e.before.errors.peek vm else none

/-- The books of one step. -/
structure Balanced (e : Entry) : Prop where
  /-- What was pending and what is recorded is what is removed and what is pending. -/
  books : (e.before.errors.peek vm).toList ++ (e.recorded? hosts vm).toList
    = (e.removed? vm).toList ++ (e.after.errors.peek vm).toList
  /-- What is removed is handed out or discarded. -/
  removed : ∀ text, e.removed? vm = some text →
    e.handedOut? hosts vm = some text ∨ e.op? hosts = some (.clear vm)
  /-- What is handed out is what is removed, but for the empty text that stands for
  nothing. -/
  handedOut : ∀ text, e.handedOut? hosts vm = some text → e.removed? vm = some text
    ∨ text = "" ∧ e.op? hosts = some (.message vm) ∧ e.before.errors.peek vm = none

end Entry

/-! ### One step -/

variable {react : Reaction} {hosts : List Host} {session session' : Session} {i j : Nat}
  {s s' : Binding} {step : Step} {answer : Outcome Answer} {vm : Handle}

/-- However a step shows a message that was found, it shows the message. -/
lemma text?_shown_found (p : Binding.Step) (m : Option String) :
    Answer.text? (.returned (.answered (.plain (.registry (p.shown (.found m)))))) = m := by
  cases p <;> cases m <;> rfl

lemma text?_shown_text (p : Binding.Step) (text : String) :
    Answer.text? (.returned (.answered (.plain (.registry (p.shown (.text text))))))
      = some text := by
  cases p <;> rfl

/-- What the step left pending. -/
lemma peek_step (h : session.step react hosts i step = .ok (session', answer))
    (hs : session.states[i]? = some s) (hs' : session'.states[i]? = some s') :
    s'.errors.peek vm = if (step.registry? hosts s.defaultVm.vm).any (·.drains vm) then none
      else (s.errors.peek vm).or ((step.registry? hosts s.defaultVm.vm).bind (·.offered? vm)) := by
  obtain ⟨t, ht, herrors, -⟩ := state_step h hs
  rw [hs', Option.some_inj] at ht
  subst ht
  rw [herrors]
  cases step.registry? hosts s.defaultVm.vm with
  | none => simp [Registry.run]
  | some op => exact Registry.peek_step s.errors op vm

variable (vm) in
/-- A step that is no operation on its state hands nothing out and discards
nothing. -/
lemma drains_of_reported {op : Registry.Step Handle} (hplain : ∀ p, step ≠ .plain p)
    (hop : step.registry? hosts s.defaultVm.vm = some op) :
    op.drains vm = false ∧ ∃ host text, step.reported? hosts = some (host, text)
      ∧ op = .throw host.vm.handle (.text text) := by
  rw [(registry?_of_ne hosts s.defaultVm.vm hplain).1] at hop
  obtain ⟨⟨host, text⟩, hreported, rfl⟩ := Option.map_eq_some_iff.mp hop
  exact ⟨rfl, host, text, hreported, rfl⟩

/-- A text that is offered is accepted where nothing is pending. -/
lemma accepts_step (h : session.step react hosts i step = .ok (session', answer))
    (hs : session.states[i]? = some s) {op : Registry.Step Handle}
    (hop : step.registry? hosts s.defaultVm.vm = some op) {text : String}
    (hoffer : op.offered? vm = some text) :
    Answer.accepts answer = (s.errors.peek vm).isNone := by
  have hkey := Registry.key?_of_offered? hoffer
  have hfollows := follows_step h hs hop hkey
  by_cases hplain : ∀ p, step ≠ .plain p
  · obtain ⟨-, host, text', hreported, rfl⟩ := drains_of_reported vm hplain hop
    obtain ⟨recorded, raised, nested, last, rfl, hcases⟩ :=
      (follows_of_ne hplain).mp hfollows host text' hreported
    rcases hcases with rfl | ⟨hnone, why, -, rfl⟩
    · cases s.errors.peek vm <;> rfl
    · rw [hnone]
      rfl
  · simp only [not_forall, not_not] at hplain
    obtain ⟨p, rfl⟩ := hplain
    obtain ⟨hreturned, haborted⟩ := hfollows
    -- a text converts, so the operation does not abort
    have hnot : op.abort? s.errors.mode (s.errors.peek vm) = none := by
      cases op with
      | throw k m | tryThrow k m => cases m <;> first | rfl | cases hoffer
      | _ => cases hoffer
    cases answer with
    | aborted why =>
        rw [(haborted why).mp rfl] at hnot
        cases hnot
    | returned a =>
        obtain ⟨b, hb, rfl⟩ := hreturned a rfl
        cases op with
        | throw k m =>
            cases hb
            cases p <;> cases hpending : s.errors.peek vm <;> rfl
        | tryThrow k m =>
            cases m with
            | failing why => cases hoffer
            | text s' =>
                cases hb
                cases p <;> cases hpending : s.errors.peek vm <;> rfl
        | _ => cases hoffer

/-- What is handed out is what was pending; where nothing was, it is nothing, or
the empty text. -/
lemma text?_step (h : session.step react hosts i step = .ok (session', answer))
    (hs : session.states[i]? = some s) {op : Registry.Step Handle}
    (hop : step.registry? hosts s.defaultVm.vm = some op) (hout : op.handsOut vm = true) :
    Answer.text? answer
      = if op = .message vm then some ((s.errors.peek vm).getD "") else s.errors.peek vm := by
  have hdrains := Registry.drains_iff.mpr (.inl hout)
  have hfollows := follows_step h hs hop (Registry.key?_of_drains hdrains)
  by_cases hplain : ∀ p, step ≠ .plain p
  · rw [(drains_of_reported vm hplain hop).1] at hdrains
    cases hdrains
  · simp only [not_forall, not_not] at hplain
    obtain ⟨p, rfl⟩ := hplain
    obtain ⟨hreturned, haborted⟩ := hfollows
    have hnot : op.abort? s.errors.mode (s.errors.peek vm) = none := by
      cases op <;> first | rfl | cases hout
    cases answer with
    | aborted why =>
        rw [(haborted why).mp rfl] at hnot
        cases hnot
    | returned a =>
        obtain ⟨b, hb, rfl⟩ := hreturned a rfl
        cases op with
        | message k =>
            cases hb
            rw [text?_shown_text, if_pos (by rw [of_decide_eq_true hout])]
        | take k | close k =>
            cases hb
            rw [text?_shown_found, if_neg nofun]
        | _ => cases hout

/-- What a step removes is what was pending, if it drains. -/
lemma removed?_step (h : session.step react hosts i step = .ok (session', answer))
    (hs : session.states[i]? = some s) (hs' : session'.states[i]? = some s') :
    Entry.removed? vm ⟨s, step, answer, s'⟩
      = if (step.registry? hosts s.defaultVm.vm).any (·.drains vm) then s.errors.peek vm
        else none := by
  rw [Entry.removed?, peek_step h hs hs']
  split
  · rfl
  · cases s.errors.peek vm <;> simp

/-- What a step records is what it offers, if nothing was pending. -/
lemma recorded?_step (h : session.step react hosts i step = .ok (session', answer))
    (hs : session.states[i]? = some s) :
    Entry.recorded? hosts vm ⟨s, step, answer, s'⟩
      = if (s.errors.peek vm).isNone then
          (step.registry? hosts s.defaultVm.vm).bind (·.offered? vm)
        else none := by
  rw [Entry.recorded?, Entry.op?]
  cases hoffer : (step.registry? hosts s.defaultVm.vm).bind (·.offered? vm) with
  | none => simp
  | some text =>
      obtain ⟨op, hop, hoffer⟩ := Option.bind_eq_some_iff.mp hoffer
      rw [accepts_step h hs hop hoffer]

/-- **Every step keeps the books** of its state. -/
theorem balanced_step (h : session.step react hosts i step = .ok (session', answer))
    (hs : session.states[i]? = some s) (hs' : session'.states[i]? = some s') (vm : Handle) :
    Entry.Balanced hosts vm ⟨s, step, answer, s'⟩ where
  books := by
    rw [recorded?_step h hs, removed?_step h hs hs', peek_step h hs hs']
    cases hop : step.registry? hosts s.defaultVm.vm with
    | none => cases s.errors.peek vm <;> rfl
    | some op =>
        simp only [Option.any_some, Option.bind_some]
        by_cases hdrains : op.drains vm = true
        · rw [Registry.offered?_of_drains hdrains, if_pos hdrains, if_pos hdrains, ite_self]
        · rw [if_neg hdrains, if_neg hdrains]
          cases s.errors.peek vm <;> rfl
  removed text htext := by
    rw [removed?_step h hs hs'] at htext
    split at htext
    · rename_i hany
      obtain ⟨op, hop, hdrains⟩ := (Option.any_eq_true _ _).mp hany
      rcases Registry.drains_iff.mp hdrains with hout | rfl
      · left
        rw [Entry.handedOut?, Entry.op?, hop, Option.any_some, if_pos hout,
          text?_step h hs hop hout, htext]
        exact ite_self _
      · exact .inr hop
    · cases htext
  handedOut text htext := by
    rw [Entry.handedOut?, Entry.op?] at htext
    split at htext
    · rename_i hany
      obtain ⟨op, hop, hout⟩ := (Option.any_eq_true _ _).mp hany
      rw [text?_step h hs hop hout] at htext
      rw [removed?_step h hs hs', hop, Option.any_some,
        if_pos (Registry.drains_iff.mpr (.inl hout)), Entry.op?, hop]
      split at htext
      · rename_i hmessage
        subst hmessage
        cases hpending : s.errors.peek vm with
        | none => exact .inr ⟨by simpa [hpending] using htext.symm, rfl, rfl⟩
        | some m => exact .inl (by simpa [hpending] using htext)
      · exact .inl htext
    · cases htext

/-! ### Histories -/

namespace Entry

/-- Entries of balanced steps, one after the other: what was pending for a handle
before the first and what is after the last. -/
inductive Books (hosts : List Host) (vm : Handle) :
    Option String → List Entry → Option String → Prop
  | nil (pending) : Books hosts vm pending [] pending
  | cons {e : Entry} {entries : List Entry} {pending : Option String} :
      e.Balanced hosts vm → Books hosts vm (e.after.errors.peek vm) entries pending →
      Books hosts vm (e.before.errors.peek vm) (e :: entries) pending

variable {hosts : List Host} {vm : Handle} {first last : Option String} {entries : List Entry}

/-- What was pending and what is recorded is what is removed and what is pending. -/
lemma Books.conserved (hb : Books hosts vm first entries last) :
    first.toList ++ entries.filterMap (·.recorded? hosts vm)
      = entries.filterMap (·.removed? vm) ++ last.toList := by
  induction hb with
  | nil => simp
  | @cons e entries pending he _ ih =>
      have hcons : ∀ f : Entry → Option String,
          (e :: entries).filterMap f = (f e).toList ++ entries.filterMap f := by
        intro f
        simp only [List.filterMap_eq_flatMap_toList, List.flatMap_cons]
      rw [hcons, hcons, ← List.append_assoc, he.books, List.append_assoc, ih, List.append_assoc]

/-- The books up to an entry. -/
lemma Books.split {xs ys : List Entry} {e : Entry}
    (hb : Books hosts vm first (xs ++ e :: ys) last) :
    Books hosts vm first xs (e.before.errors.peek vm) ∧ e.Balanced hosts vm := by
  induction xs generalizing first with
  | nil =>
      cases hb with
      | cons he _ => exact ⟨.nil _, he⟩
  | cons x xs ih =>
      cases hb with
      | cons hx hrest =>
          obtain ⟨hxs, he⟩ := ih hrest
          exact ⟨.cons hx hxs, he⟩

end Entry

variable {steps : List (Nat × Step)} {answers : List (Outcome Answer)}

/-- A history has a journal, in which its answers stand, and the books are kept. -/
lemma journal_run (h : session.run react hosts steps = .ok (session', answers))
    (hs : session.states[i]? = some s) (vm : Handle) :
    ∃ s' entries, session'.states[i]? = some s'
      ∧ session.journal react hosts i steps = .ok entries
      ∧ entries.map (fun e => (e.step, e.answer))
        = ((steps.zip answers).filter (·.1.1 = i)).map (fun x => (x.1.2, x.2))
      ∧ Entry.Books hosts vm (s.errors.peek vm) entries (s'.errors.peek vm) := by
  induction steps generalizing session s answers with
  | nil =>
      cases h
      exact ⟨s, [], hs, rfl, rfl, .nil _⟩
  | cons x steps ih =>
      obtain ⟨j, step⟩ := x
      obtain ⟨mid, answer, rest, hstep, hrest, rfl⟩ := run_cons_eq_ok h
      by_cases hij : j = i
      · subst hij
        obtain ⟨t, ht, -⟩ := state_step hstep hs
        obtain ⟨s', entries, hs', hjournal, hanswers, hbooks⟩ := ih hrest ht
        refine ⟨s', ⟨s, step, answer, t⟩ :: entries, hs', ?_, ?_,
          .cons (balanced_step hstep hs ht vm) hbooks⟩
        · simp only [journal, bind_eq_ok]
          refine ⟨s, stateAt_eq_ok.mpr hs, _, hstep, t, stateAt_eq_ok.mpr ht, entries, hjournal, ?_⟩
          rw [if_pos trivial]
          rfl
        · simp [hanswers]
      · have ht := step_other hstep hij hs
        obtain ⟨s', entries, hs', hjournal, hanswers, hbooks⟩ := ih hrest ht
        refine ⟨s', entries, hs', ?_, ?_, hbooks⟩
        · simp only [journal, bind_eq_ok]
          refine ⟨s, stateAt_eq_ok.mpr hs, _, hstep, s, stateAt_eq_ok.mpr ht, entries, hjournal, ?_⟩
          rw [if_neg hij]
          rfl
        · simp [hanswers, hij]

/-- **Messages are conserved**: over every history of a state and for every handle, the
messages recorded are, in order, those removed and then the one that is pending, if
any.  Each is removed by one step, which hands it out or discards it, and nothing is
handed out that was not recorded for that handle before. -/
theorem messages_conserved (h : session.run react hosts steps = .ok (session', answers))
    (hs : session.states[i]? = some s) (vm : Handle) :
    ∃ s' entries, session'.states[i]? = some s'
      ∧ session.journal react hosts i steps = .ok entries
      ∧ entries.map (fun e => (e.step, e.answer))
        = ((steps.zip answers).filter (·.1.1 = i)).map (fun x => (x.1.2, x.2))
      ∧ (s.errors.peek vm).toList ++ entries.filterMap (·.recorded? hosts vm)
        = entries.filterMap (·.removed? vm) ++ (s'.errors.peek vm).toList
      ∧ (∀ e ∈ entries, ∀ text, e.removed? vm = some text →
          e.handedOut? hosts vm = some text ∨ e.op? hosts = some (.clear vm))
      ∧ ∀ xs e ys text, entries = xs ++ e :: ys → e.handedOut? hosts vm = some text →
          (e.removed? vm = some text
            ∧ text ∈ (s.errors.peek vm).toList ++ xs.filterMap (·.recorded? hosts vm))
          ∨ text = "" ∧ e.op? hosts = some (.message vm) ∧ e.before.errors.peek vm = none := by
  obtain ⟨s', entries, hs', hjournal, hanswers, hbooks⟩ := journal_run h hs vm
  refine ⟨s', entries, hs', hjournal, hanswers, hbooks.conserved, ?_, ?_⟩
  · intro e he text
    obtain ⟨xs, ys, rfl⟩ := List.append_of_mem he
    exact hbooks.split.2.removed text
  · rintro xs e ys text rfl hout
    obtain ⟨hxs, he⟩ := hbooks.split
    refine (he.handedOut text hout).imp_left fun hremoved => ⟨hremoved, ?_⟩
    have hbefore : e.before.errors.peek vm = some text := by
      rw [Entry.removed?] at hremoved
      split at hremoved
      · exact hremoved
      · cases hremoved
    rw [hxs.conserved, hbefore]
    simp

/-- Two VM objects of one handle; the second one aborts when it is raised. -/
def aliased : List Host :=
  [⟨⟨.one, .typeNames []⟩, [], none⟩,
    ⟨⟨.one, .typeNames []⟩, [], some "raising"⟩]

/-- An error thrown and one refused; after a drain, an empty one, drained by way of
the default VM; one more. -/
def aliasedSteps : List (Nat × Step) :=
  [(0, .plain (.throw .one (.text "first"))), (0, .report 0 (.text "second")),
    (0, .plain (.message .one)), (0, .plain (.setDefault .one)),
    (0, .report 1 (.text "")), (0, .plain .checkDefault),
    (0, .plain (.errors (.tryThrow .one (.text "last"))))]

/-- What is refused is not recorded, and what is recorded while its VM aborts is. -/
theorem messages_conserved_aliased :
    ∃ x, (start none).run (ProcessWide.run aliased 1) aliased aliasedSteps = .ok x
      ∧ ∃ (s' : Binding) (entries : List Entry), x.1.states[0]? = some s'
        ∧ (start none).journal (ProcessWide.run aliased 1) aliased 0 aliasedSteps = .ok entries
        ∧ entries.filterMap (·.recorded? aliased .one) = ["first", "", "last"]
        ∧ entries.filterMap (·.removed? .one) = ["first", ""]
        ∧ entries.filterMap (·.recorded? aliased .one)
          = entries.filterMap (·.removed? .one)
            ++ (s'.errors.peek .one).toList := by
  obtain ⟨x, hx⟩ : ∃ x, (start none).run (ProcessWide.run aliased 1) aliased aliasedSteps = .ok x :=
    ⟨_, rfl⟩
  obtain ⟨s', entries, hs', hjournal, -, hbooks, -⟩ :=
    messages_conserved hx (i := 0) (s := .initial) rfl .one
  refine ⟨x, hx, s', entries, hs', hjournal, ?_, ?_, hbooks⟩
  · cases hjournal
    rfl
  · cases hjournal
    rfl

end ScriptBinding.Binding.Session
