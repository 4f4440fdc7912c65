import ScriptBinding.Proofs.Binding.Transcript

/-
A message reaches the error channel of a VM exactly where it was recorded with forwarding on.

* `Entry.forwarded?`: the text of a report that was recorded while the policy was on, read off
  the answer to the step and the state that it found.
* `forwarded?_reported`: that is what was decided when the text was posted.
* `Turn.Taken.raises`: a turn raises that text, and nothing else; `Turn.Taken.raisedIn`: it
  does so right after the text was recorded.
* `raised_iff_forwarded`: what was raised in a VM object over every history.
-/
namespace ScriptBinding.Binding.Session

open ProcessWide

/-- The text of a report to a VM object that says it was recorded, in a state that found its
policy on. -/
def Entry.forwarded? (hosts : List Host) (v : Nat) (e : Entry) : Option String :=
  if e.step.target? = some v ∧ e.before.policy.enabled = true then
    hosts[v]?.bind fun host => e.recorded? hosts host.vm.handle
  else none

variable {react : Reaction} {hosts : List Host} {depth : Nat} {session session' now next : Session}
  {i v : Nat} {t : Turn} {host : Host} {text : String}

/-! ### One turn -/

/-- A step that reports nothing forwards nothing. -/
lemma forwarded?_of_none {e : Entry} (h : e.step.reported? hosts = none) :
    e.forwarded? hosts v = none := by
  rw [Entry.forwarded?]
  split
  · rename_i hreports
    have hplain : ∀ p, e.step ≠ .plain p := by
      intro p hp
      rw [hp] at hreports
      cases hreports.1
    cases hosts[v]? with
    | none => rfl
    | some host =>
        show (if _ then (e.op? hosts).bind _ else none) = none
        rw [Entry.op?, (registry?_of_ne hosts _ hplain).1, h]
        exact ite_self _
  · rfl

/-- A report is forwarded to its VM object, where that was decided when its text was posted. -/
lemma forwarded?_reported {vm : Nat} (h : t.Taken react hosts now next)
    (htarget : t.step.target? = some vm) (hhost : hosts[vm]? = some host)
    (hreported : t.step.reported? hosts = some (host, text)) (v : Nat) :
    t.forwarded? hosts v
      = if vm = v ∧ (t.before.post host.vm.handle text).2.forward = true then some text
        else none := by
  by_cases hv : vm = v
  · subst hv
    have hrecorded : t.recorded? hosts host.vm.handle
        = if (t.before.errors.peek host.vm.handle).isNone then some text else none := by
      have hstep : t.recorded? hosts host.vm.handle
          = if (t.before.errors.peek host.vm.handle).isNone then
              (t.step.registry? hosts t.before.defaultVm.vm).bind (·.offered? host.vm.handle)
            else none := recorded?_step h.step h.before
      rw [registry?_of_reported hreported] at hstep
      simpa [Registry.Step.offered?] using hstep
    have hforward : (t.before.post host.vm.handle text).2.forward
        = ((t.before.errors.peek host.vm.handle).isNone && t.before.policy.enabled) := by
      rw [(post_eq _ _ _).2.2, recorded_post]
    rw [Entry.forwarded?, htarget, hhost, Option.bind_some, hrecorded, hforward]
    cases t.before.policy.enabled <;> simp
  · rw [Entry.forwarded?, htarget, if_neg fun hreports => hv (Option.some_inj.mp hreports.1),
      if_neg fun hsame => hv hsame.1]

/-- A text that is to be raised was recorded just now, where nothing was pending and the
policy is on. -/
lemma post_of_forward {s : Binding} {vm : Handle}
    (h : (s.post vm text).2.forward = true) :
    s.errors.peek vm = none ∧ (s.post vm text).2.events = [.registry (.recorded vm text)]
      ∧ (s.post vm text).1.errors.peek vm = some text := by
  have hidle : s.errors.peek vm = none := by
    rw [← Option.isNone_iff_eq_none, ← recorded_post s vm text]
    exact (Bool.and_eq_true_iff.mp h).1
  refine ⟨hidle, ?_, ?_⟩
  · show (s.errors.throwText vm text).2.events.map Event.registry = _
    rw [Registry.throwText, hidle]
    rfl
  · show (s.errors.throwText vm text).1.peek vm = some text
    rw [Registry.peek_throwText, hidle, if_pos rfl]
    rfl

/-- A turn that raised a text: it was recorded just before, and is pending meanwhile. -/
structure Turn.Raised (t : Turn) (v : Nat) (host : Host) (text : String) : Prop where
  target : t.step.target? = some v
  enabled : t.before.policy.enabled = true
  idle : t.before.errors.peek host.vm.handle = none
  pending : t.after.errors.peek host.vm.handle = some text
  marks : t.marks = t.step.converted ++ [.logged (.registry (.recorded host.vm.handle text)),
    .logged (.raising .direct host.vm.handle text), .raised v text]

/-- All that it raised is that text. -/
lemma Turn.Raised.raises (h : t.Raised v host text) : Mark.raises t.marks = [(v, text)] := by
  rw [h.marks, Mark.raises_append, raises_converted]
  rfl

/-- **What a turn raises**: the text that it forwards, right after it was recorded; a turn that
forwards nothing raises nothing. -/
theorem Turn.Taken.raises (hquiet : Quiet hosts)
    (h : t.Taken (ProcessWide.run hosts depth) hosts now next) :
    (Mark.raises t.marks = [] ∧ ∀ v, t.forwarded? hosts v = none)
      ∨ ∃ v host text, hosts[v]? = some host ∧ t.Raised v host text
        ∧ ∀ v', t.forwarded? hosts v' = if v = v' then some text else none := by
  have htakes := step_takes h.step h.before
  have hmarks := h.marks
  have hafter := h.after
  generalize hstep : t.step = step at htakes
  cases htakes with
  | plain p =>
      refine .inl ⟨?_, fun v => forwarded?_of_none (by rw [hstep]; rfl)⟩
      rw [← List.append_cancel_left hmarks, Mark.raises_ofReply]
  | failing vm why =>
      refine .inl ⟨?_, fun v => forwarded?_of_none (by rw [hstep]; rfl)⟩
      rw [← List.append_cancel_left hmarks]
      rfl
  | @silent _ vm host text target found reported forward =>
      refine .inl ⟨?_, fun v => ?_⟩
      · rw [← List.append_cancel_left hmarks, Mark.raises_append, Mark.raises_logged,
          raises_converted]
        rfl
      · rw [forwarded?_reported h (hstep ▸ target) found (hstep ▸ reported), forward]
        exact if_neg fun hforward => Bool.false_ne_true hforward.2
  | @raising _ vm host text world nested target found reported forward reaction =>
      refine .inr ⟨vm, host, text, found, ?_, fun v => ?_⟩
      · obtain rfl := hquiet.eq_of_ok (List.mem_of_getElem? found) reaction
        obtain ⟨hidle, hevents, hpending⟩ := post_of_forward forward
        have henabled : t.before.policy.enabled = true := (Bool.and_eq_true_iff.mp forward).2
        refine ⟨hstep ▸ target, henabled, hidle, ?_, ?_⟩
        · have hstates := getElem?_set_of_eq_some h.before (t.before.post host.vm.handle text).1
          have hpost : t.after = (t.before.post host.vm.handle text).1 :=
            Option.some_inj.mp (hafter.symm.trans hstates)
          rw [hpost]
          exact hpending
        · rw [World.observe, posted, observe, World.observe, List.append_assoc, hevents] at hmarks
          rw [← List.append_cancel_left hmarks, hstep, List.append_assoc]
          rfl
      · rw [forwarded?_reported h (hstep ▸ target) found (hstep ▸ reported), forward]
        simp
  | apart plain target =>
      refine .inl ⟨?_, fun v => ?_⟩
      · have hnone : t.marks = [] :=
          (List.append_cancel_left ((List.append_nil _).trans hmarks)).symm
        rw [hnone]
        rfl
      · rw [Entry.forwarded?, hstep, target, if_neg]
        rintro ⟨hnone, -⟩
        cases hnone

/-- What was raised in one VM object is what was forwarded to it. -/
lemma Turn.Taken.raisedIn (hquiet : Quiet hosts)
    (h : t.Taken (ProcessWide.run hosts depth) hosts now next) (v : Nat) :
    t.marks.filterMap (Mark.raisedIn? v) = (t.forwarded? hosts v).toList := by
  rw [Mark.filterMap_raisedIn?]
  rcases h.raises hquiet with ⟨hraises, hnone⟩ | ⟨v', host, text, -, hraised, hforwarded⟩
  · rw [hraises, hnone v]
    rfl
  · rw [hraised.raises, hforwarded v]
    by_cases hv : v' = v <;> simp [hv]

/-! ### Histories -/

lemma raisedIn_turns (hquiet : Quiet hosts) {turns : List Turn}
    (h : ∀ t ∈ turns, ∃ now next, t.Taken (ProcessWide.run hosts depth) hosts now next) (v : Nat) :
    (turns.flatMap (·.marks)).filterMap (Mark.raisedIn? v)
      = turns.filterMap (·.forwarded? hosts v) := by
  induction turns with
  | nil => rfl
  | cons t turns ih =>
      obtain ⟨⟨now, next, ht⟩, hturns⟩ := List.forall_mem_cons.mp h
      rw [List.flatMap_cons, List.filterMap_append, ht.raisedIn hquiet v, ih hturns]
      cases hforwarded : t.forwarded? hosts v <;> simp [hforwarded]

variable {steps : List (Nat × Step)} {answers : List (Outcome Answer)}

/-- **A message reaches the error channel of a VM exactly where it was recorded with forwarding
on**: over every history of binding states, in which VMs may abort but do nothing else when
they are raised, the messages raised in a VM object are those of the reports to it that were
recorded while the policy of their state was on, in order, and its last error is the last of
them.  No other step raises anything, a report to a VM that has an undrained error does not
either, and each message is raised right after it was recorded, while it is pending. -/
theorem raised_iff_forwarded (hquiet : Quiet hosts)
    (h : session.run (ProcessWide.run hosts depth) hosts steps = .ok (session', answers)) :
    ∃ turns, session.transcript (ProcessWide.run hosts depth) hosts steps = .ok turns
      ∧ turns.map (fun t => ((t.index, t.step), t.answer)) = steps.zip answers
      ∧ session'.world.trace = session.world.trace ++ turns.flatMap (·.marks)
      ∧ (∀ v, session'.world.errorsOf v
        = session.world.errorsOf v ++ turns.filterMap (·.forwarded? hosts v))
      ∧ (∀ v, (session'.world.errorsOf v).last?
        = (session.world.errorsOf v ++ turns.filterMap (·.forwarded? hosts v)).getLast?)
      ∧ (∀ t ∈ turns, Mark.raises t.marks = [] ∧ (∀ v, t.forwarded? hosts v = none)
        ∨ ∃ v host text, hosts[v]? = some host ∧ t.Raised v host text
          ∧ Mark.raises t.marks = [(v, text)] ∧ t.forwarded? hosts v = some text)
      ∧ (∀ t ∈ turns, ∀ v host, t.step.target? = some v → hosts[v]? = some host →
        t.before.errors.isPending host.vm.handle = true → Mark.raises t.marks = [])
      ∧ ∀ v i s, v < hosts.length → session'.states[i]? = some s →
        session'.step (ProcessWide.run hosts depth) hosts i (.lastError v)
          = .ok (session', .returned (.answered (.lastError
            ((session.world.errorsOf v ++ turns.filterMap (·.forwarded? hosts v)).getLast?.getD
              "")))) := by
  obtain ⟨turns, hturns, hanswers, htrace, htaken⟩ := hquiet.transcript_run h
  have herrors : ∀ v, session'.world.errorsOf v
      = session.world.errorsOf v ++ turns.filterMap (·.forwarded? hosts v) := by
    intro v
    rw [World.errorsOf, htrace, List.filterMap_append, raisedIn_turns hquiet htaken v]
    rfl
  refine ⟨turns, hturns, hanswers, htrace, herrors, fun v => ?_, fun t ht => ?_, fun t ht => ?_,
    ?_⟩
  · rw [herrors v]
    rfl
  · obtain ⟨now, next, hnow⟩ := htaken t ht
    rcases hnow.raises hquiet with hnone | ⟨v, host, text, hhost, hraised, hforwarded⟩
    · exact .inl hnone
    · exact .inr ⟨v, host, text, hhost, hraised, hraised.raises, by rw [hforwarded, if_pos rfl]⟩
  · intro v host htarget hhost hpending
    obtain ⟨now, next, hnow⟩ := htaken t ht
    rcases hnow.raises hquiet with ⟨hnone, -⟩ | ⟨v', host', text, hhost', hraised, -⟩
    · exact hnone
    · rw [hraised.target, Option.some_inj] at htarget
      subst htarget
      rw [hhost', Option.some_inj] at hhost
      subst hhost
      rw [Registry.isPending, hraised.idle] at hpending
      cases hpending
  · intro v i s hv hs
    rw [← herrors v]
    simp only [step, bind_eq_ok]
    exact ⟨s, stateAt_eq_ok.mpr hs, _, hostAt_of_lt hv, rfl⟩

/-- Reports to two VM objects of one handle, through two states: one is recorded and raised, the
next is dropped; then one is recorded in the other state, and raised while its VM aborts; and
one is recorded while the policy is off. -/
def forwardedSteps : List (Nat × Step) :=
  [(0, .report 0 (.text "first")), (0, .report 1 (.text "dropped")), (0, .create),
    (1, .reportTypeError 1 1 "string"), (0, .plain (.enable false)), (0, .plain (.message .one)),
    (0, .report 0 (.text "unseen"))]

/-- Each VM object was raised once. -/
theorem raised_iff_forwarded_twice :
    Quiet aliased ∧ ∃ x turns, (start none).run (ProcessWide.run aliased 0) aliased forwardedSteps
        = .ok x
      ∧ (start none).transcript (ProcessWide.run aliased 0) aliased forwardedSteps = .ok turns
      ∧ x.1.world.errorsOf 0 = ["first"]
      ∧ x.1.world.errorsOf 1 = ["wrong type (string expected, got unknown)"]
      ∧ turns.filterMap (·.forwarded? aliased 0) = ["first"]
      ∧ ∀ v, x.1.world.errorsOf v
        = (start none).world.errorsOf v ++ turns.filterMap (·.forwarded? aliased v) := by
  have hquiet : Quiet aliased := by decide
  obtain ⟨x, hx⟩ : ∃ x, (start none).run (ProcessWide.run aliased 0) aliased forwardedSteps
      = .ok x := ⟨_, rfl⟩
  obtain ⟨turns, hturns, -, -, herrors, -⟩ := raised_iff_forwarded hquiet hx
  refine ⟨hquiet, x, turns, hx, hturns, ?_, ?_, ?_, herrors⟩
  · cases hx
    rfl
  · cases hx
    rfl
  · cases hturns
    rfl

end ScriptBinding.Binding.Session
