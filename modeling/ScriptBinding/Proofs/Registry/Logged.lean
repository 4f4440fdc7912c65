import Mathlib.Data.List.Forall2
import ScriptBinding.Registry.Listing
import ScriptBinding.Proofs.Registry.Attempts

/-
What the log tells of a registry.

* `Log.Entry.carried?`: the text of a message that was recorded, or rejected aloud, as an
  entry of the log tells it.
* `Account`: what an operation found in a registry and what it answered; `Account.Sincere`:
  the answer is true.
* `Account.handed?`, `Account.aloud`, `Account.undrained`: what the log has to tell of;
  `Account.Warns`, `Account.Closes`: the entries that tell of it.
* `Tells`: a log that tells of operations, of all that it has to tell and nothing else;
  `tells_step`, `Tells.append`.
* `tells_run`: so does the log of every history of a registry.
-/
namespace ScriptBinding.Log.Entry

/-- The headline of an entry. -/
def headline? (e : Entry) : Option String :=
  e.fields.head?.map (·.2)

/-- The text of the first field with a name, after the headline. -/
def field? (e : Entry) (name : String) : Option String :=
  (e.fields.tail.find? (·.1 = name)).map (·.2)

/-- The text of a message that a registry recorded, or rejected with a warning. -/
def carried? (e : Entry) : Option String :=
  if e.target ≠ Registry.Event.target then none
  else if e.level = .trace ∧ e.headline? = some "error recorded" then e.field? "message"
  else if e.level = .warn ∧ e.headline? = some "error already pending, dropped" then
    e.field? "rejected"
  else none

end ScriptBinding.Log.Entry

namespace ScriptBinding.Registry

variable {κ : Type}

/-- Whether an answer says that a message was recorded. -/
def Answer.accepts : Outcome (Answer κ) → Bool
  | .returned (.flag true) | .returned .done => true
  | _ => false

/-- The message that an answer found. -/
def Answer.found? : Outcome (Answer κ) → Option String
  | .returned (.found m) => m
  | _ => none

/-- What an operation found in a registry, whether it answered that it recorded its message,
and the message that it handed out. -/
structure Account (κ : Type) where
  before : Registry κ
  step : Step κ
  accepted : Bool
  found : Option String

namespace Account

/-- The text that was handed to the registry to be recorded: one that is tried counts only
where it was. -/
def handed? (a : Account κ) : Option String :=
  match a.step with
  | .throw _ (.text s) => some s
  | .tryThrow _ (.text s) => if a.accepted then some s else none
  | _ => none

/-- Whether it was a throw that was rejected in strict mode, with a message that converts. -/
def aloud (a : Account κ) : Bool :=
  match a.step with
  | .throw _ (.text _) => a.before.mode = .strict && !a.accepted
  | _ => false

/-- Whether it was a close that handed out a message. -/
def undrained (a : Account κ) : Bool :=
  match a.step with
  | .close _ => a.found.isSome
  | _ => false

variable [DecidableEq κ]

/-- An account whose answers are true: an attempt is accepted where nothing is pending, and
a close hands out what is. -/
structure Sincere (a : Account κ) : Prop where
  accepted : ∀ k s, a.step.attempt? = some (k, .text s) →
    a.accepted = (a.before.peek k).isNone
  found : ∀ k, a.step = .close k → a.found = a.before.peek k

variable [Key κ]

/-- The warning that tells of a rejected throw: it names the key, the message that was
pending for it then, and the text that was rejected. -/
def Warns (a : Account κ) (e : Log.Entry) : Prop :=
  ∃ k existing s, a.step = .throw k (.text s) ∧ a.before.peek k = some existing
    ∧ e = Log.entry .warn Event.target "error already pending, dropped"
      [("vm", Key.label k), ("existing", existing), ("rejected", s)]

/-- The entry that tells of a close with an undrained message. -/
def Closes (a : Account κ) (e : Log.Entry) : Prop :=
  ∃ k m, a.step = .close k ∧ a.found = some m
    ∧ e = Log.entry .debug Event.target "VM closed with an undrained error"
      [("vm", Key.label k), ("message", m)]

end Account

variable [DecidableEq κ]

/-- The account of an operation as it happened. -/
def Turn.account (t : Turn κ) : Account κ :=
  ⟨t.before, t.step, Answer.accepts t.reply.outcome, Answer.found? t.reply.outcome⟩

/-- The answers of a registry are true. -/
lemma Turn.sincere (t : Turn κ) : t.account.Sincere where
  accepted k s hattempt := by
    have hdone : Attempted t.before t.step k (.text s) (t.before.step t.step) := attempted hattempt
    show Answer.accepts (t.before.step t.step).2.outcome = (t.before.peek k).isNone
    generalize t.before.step t.step = done at hdone
    cases hdone with
    | unseen _ hpending => simp [Answer.accepts, Option.isNone_eq_false_iff.mpr hpending]
    | recorded _ hidle =>
        rw [hidle]
        cases t.step <;> rfl
    | refused _ existing hpending =>
        rw [hpending]
        cases t.step <;> rfl
  found k hclose := by
    show Answer.found? t.reply.outcome = t.before.peek k
    have hstep : t.step = .close k := hclose
    rw [Turn.reply, hstep]
    rfl

variable [Key κ]

/-- A log tells of operations: in strict mode, it carries every text that was handed to the
registry, in order, and no other; in every mode, its warnings are those of the throws that
were rejected aloud, one for each and in order; and so are its entries on undrained
messages those of the closes that handed one out. -/
structure Tells (accounts : List (Account κ)) (log : List Log.Entry) : Prop where
  carried : (∀ a ∈ accounts, a.before.mode = .strict) →
    log.filterMap (·.carried?) = accounts.filterMap (·.handed?)
  warnings : List.Forall₂ Account.Warns (accounts.filter (·.aloud)) (log.filter (·.level = .warn))
  closings : List.Forall₂ Account.Closes (accounts.filter (·.undrained))
    (log.filter (·.level = .debug))

namespace Tells

variable {accounts others : List (Account κ)} {log more : List Log.Entry}

lemma nil : Tells ([] : List (Account κ)) [] :=
  ⟨fun _ => rfl, .nil, .nil⟩

lemma append (h : Tells accounts log) (h' : Tells others more) :
    Tells (accounts ++ others) (log ++ more) where
  carried hstrict := by
    obtain ⟨hfirst, hrest⟩ := List.forall_mem_append.mp hstrict
    rw [List.filterMap_append, List.filterMap_append, h.carried hfirst, h'.carried hrest]
  warnings := by
    rw [List.filter_append, List.filter_append]
    exact List.rel_append h.warnings h'.warnings
  closings := by
    rw [List.filter_append, List.filter_append]
    exact List.rel_append h.closings h'.closings

/-- A log tells of the same operations where it differs in nothing that matters. -/
lemma congr (h : Tells accounts log)
    (hcarried : more.filterMap (·.carried?) = log.filterMap (·.carried?))
    (hlevels : ∀ level, level ≠ .trace →
      more.filter (·.level = level) = log.filter (·.level = level)) : Tells accounts more where
  carried hstrict := hcarried.trans (h.carried hstrict)
  warnings := by
    rw [hlevels .warn nofun]
    exact h.warnings
  closings := by
    rw [hlevels .debug nofun]
    exact h.closings

/-- The log of one operation. -/
lemma of_one {a : Account κ}
    (hcarried : a.before.mode = .strict → log.filterMap (·.carried?) = a.handed?.toList)
    (hwarnings : a.aloud = false ∧ log.filter (·.level = .warn) = []
      ∨ a.aloud = true ∧ ∃ e, a.Warns e ∧ log.filter (·.level = .warn) = [e])
    (hclosings : a.undrained = false ∧ log.filter (·.level = .debug) = []
      ∨ a.undrained = true ∧ ∃ e, a.Closes e ∧ log.filter (·.level = .debug) = [e]) :
    Tells [a] log where
  carried hstrict := by
    rw [hcarried (hstrict a (.head _))]
    cases hhanded : a.handed? <;> simp [hhanded]
  warnings := by
    rcases hwarnings with ⟨ha, hlog⟩ | ⟨ha, e, he, hlog⟩
    · simp [ha, hlog]
    · simp [ha, hlog, he]
  closings := by
    rcases hclosings with ⟨ha, hlog⟩ | ⟨ha, e, he, hlog⟩
    · simp [ha, hlog]
    · simp [ha, hlog, he]

/-- The log of an operation that it need not tell of. -/
lemma of_quiet {a : Account κ} (hhanded : a.handed? = none) (haloud : a.aloud = false)
    (hundrained : a.undrained = false) : Tells [a] [] :=
  .of_one (fun _ => by rw [hhanded]; rfl) (.inl ⟨haloud, rfl⟩) (.inl ⟨hundrained, rfl⟩)

end Tells

/-- The log of an attempt tells of it, if it answered the truth. -/
lemma tells_attempt {r : Registry κ} {step : Step κ} {k : κ} {m : Message} {accepted : Bool}
    (hattempt : step.attempt? = some (k, m))
    (haccepted : ∀ s, m = .text s → accepted = (r.peek k).isNone) (found : Option String) :
    Tells [⟨r, step, accepted, found⟩] ((r.step step).2.events.map Event.entry) := by
  have hundrained : Account.undrained ⟨r, step, accepted, found⟩ = false := by
    cases step <;> first | rfl | cases hattempt
  have hdone : Attempted r step k m (r.step step) := attempted hattempt
  generalize r.step step = done at hdone
  cases hdone with
  | unseen _ _ hunseen =>
      cases step with
      | throw j m' =>
          have hmode : r.mode = .firstWins := of_decide_eq_true (Bool.and_eq_true_iff.mp hunseen).2
          refine .of_one (fun hstrict => ?_) (.inl ⟨?_, rfl⟩) (.inl ⟨hundrained, rfl⟩)
          · cases hmode.symm.trans hstrict
          · cases m' <;> simp [Account.aloud, hmode]
      | _ => cases hunseen
  | failing why _ =>
      cases step with
      | throw | tryThrow =>
          cases hattempt
          exact .of_quiet rfl rfl rfl
      | _ => cases hattempt
  | recorded s hidle _ =>
      have htrue : accepted = true := by rw [haccepted s rfl, hidle]; rfl
      subst htrue
      cases step with
      | throw | tryThrow =>
          cases hattempt
          exact .of_one (fun _ => rfl) (.inl ⟨by simp [Account.aloud], rfl⟩)
            (.inl ⟨hundrained, rfl⟩)
      | _ => cases hattempt
  | refused s existing hpending hseen =>
      have hfalse : accepted = false := by rw [haccepted s rfl, hpending]; rfl
      subst hfalse
      cases step with
      | throw =>
          cases hattempt
          have hstrict : r.mode = .strict := by
            cases hmode : r.mode with
            | strict => rfl
            | firstWins => simp [Step.unseen, isPending, hpending, hmode] at hseen
          exact .of_one (fun _ => rfl)
            (.inr ⟨by simp [Account.aloud, hstrict], _, ⟨k, existing, s, rfl, hpending, rfl⟩, rfl⟩)
            (.inl ⟨hundrained, rfl⟩)
      | tryThrow =>
          cases hattempt
          exact .of_quiet rfl rfl rfl
      | _ => cases hattempt

/-- **The log of an operation tells of it.** -/
theorem tells_step {a : Account κ} (ha : a.Sincere) :
    Tells [a] ((a.before.step a.step).2.events.map Event.entry) := by
  obtain ⟨r, step, accepted, found⟩ := a
  cases hattempt : step.attempt? with
  | some x =>
      obtain ⟨k, m⟩ := x
      exact tells_attempt hattempt (fun s hs => ha.accepted k s (hs ▸ hattempt)) found
  | none =>
      cases step with
      | throw | tryThrow => cases hattempt
      | close k =>
          have hfound : found = r.peek k := ha.found k rfl
          have hevents : (r.step (.close k)).2.events = (r.peek k).toList.map (.closed k) :=
            List.map_id _
          rw [hevents, ← hfound]
          cases found with
          | none => exact .of_quiet rfl rfl rfl
          | some m =>
              exact .of_one (fun _ => rfl) (.inl ⟨rfl, rfl⟩)
                (.inr ⟨rfl, _, ⟨k, m, rfl, rfl, rfl⟩, rfl⟩)
      | _ => exact .of_quiet rfl rfl rfl

/-! ### Histories -/

/-- The log of every history of a registry tells of its operations. -/
theorem tells_run (r : Registry κ) (steps : List (Step κ)) :
    Tells ((r.turns steps).map (·.account))
      ((r.run steps).2.flatMap fun reply => reply.events.map Event.entry) := by
  induction steps generalizing r with
  | nil => exact .nil
  | cons step steps ih =>
      rw [run_cons, turns, List.map_cons, List.flatMap_cons, ← List.singleton_append]
      exact (tells_step (Turn.sincere ⟨r, step⟩)).append (ih _)

end ScriptBinding.Registry
