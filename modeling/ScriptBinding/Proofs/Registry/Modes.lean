import Mathlib.Data.List.Forall2
import ScriptBinding.Proofs.Registry.Attempts

/-
Neither the mode nor the way of throwing decides what is stored.

* `Step.Counterpart`: operations that are the same, but that one may throw what the other
  tries to throw.
* `Turn.Records`, `Turn.Refuses`: what an attempt did, and what it answered;
  `Turn.records_or_refuses`: what is pending decides between them, and nothing else.
* `Turn.Matches`: two operations that did the same and answered the same, as far as they
  can; `matches_of_counterpart`: counterparts match where the same is pending.
* `mode_immaterial`: so do two whole histories that differ in their modes and in the way of
  throwing.
-/
namespace ScriptBinding.Registry

variable {κ : Type}

/-- Whether an operation sets the mode. -/
def Step.setsMode : Step κ → Bool
  | .setMode _ => true
  | _ => false

/-- Whether an operation shows the mode. -/
def Step.showsMode : Step κ → Bool
  | .mode | .inspect => true
  | _ => false

/-- The same operation, or an attempt with the same key and message that is thrown in the
one case and tried in the other. -/
structure Step.Counterpart (x y : Step κ) : Prop where
  attempt : y.attempt? = x.attempt?
  other : x.attempt? = none → y = x

variable [DecidableEq κ]

namespace Turn

/-- An attempt that recorded its message, which converted, where nothing was pending, and
said so: a throw answers that it did, and a message that is tried meets no error. -/
inductive Records (t : Turn κ) (k : κ) : Message → Prop where
  | intro (s : String) (idle : t.before.peek k = none) (recorded : t.after = t.before.record k s)
      (answer : t.reply.outcome = .returned t.step.accepted) : Records t k (.text s)

/-- An attempt that left the registry as it was: where a throw is dropped unseen it answers
that it was not recorded; where the message is converted and that fails it aborts; else it
answers that it was not recorded, or with an error that names both texts. -/
inductive Refuses (t : Turn κ) (k : κ) : Message → Prop where
  | unseen (m : Message) (unseen : t.step.unseen t.before = true) (kept : t.after = t.before)
      (answer : t.reply.outcome = .returned (.flag false))
      (conversions : t.reply.conversions = 0) : Refuses t k m
  | failing (why : String) (seen : t.step.unseen t.before = false) (kept : t.after = t.before)
      (answer : t.reply.outcome = .aborted why)
      (conversions : t.reply.conversions = 1) : Refuses t k (.failing why)
  | refused (s existing : String) (seen : t.step.unseen t.before = false)
      (pending : t.before.peek k = some existing) (kept : t.after = t.before)
      (answer : t.reply.outcome = .returned (t.step.refused existing s))
      (conversions : t.reply.conversions = 1) : Refuses t k (.text s)

/-- Two operations on registries with the same messages pending that did the same: attempts
both record or both refuse, and all others have the same reply, unless they show the mode. -/
structure Matches (t t' : Turn κ) : Prop where
  counterpart : t.step.Counterpart t'.step
  before : t'.before.pending = t.before.pending
  after : t'.after.pending = t.after.pending
  attempts : ∀ k m, t.step.attempt? = some (k, m) →
    t.Records k m ∧ t'.Records k m ∨ t.Refuses k m ∧ t'.Refuses k m
  others : t.step.attempt? = none → t.step.showsMode = false → t'.reply = t.reply

variable {t t' : Turn κ} {k : κ} {m : Message}

/-- **What is pending decides** whether an attempt records its message: it does exactly
where the message converts and nothing is pending. -/
lemma records_or_refuses (h : t.step.attempt? = some (k, m)) :
    ((∃ s, m = .text s) ∧ t.before.peek k = none ∧ t.Records k m)
      ∨ (¬ ((∃ s, m = .text s) ∧ t.before.peek k = none) ∧ t.Refuses k m) := by
  have hdone : Attempted t.before t.step k m (t.after, t.reply) := attempted h
  generalize hafter : t.after = after at hdone
  generalize hreply : t.reply = reply at hdone
  cases hdone with
  | unseen _ hpending hunseen =>
      refine .inr ⟨?_, .unseen m hunseen hafter (by rw [hreply]) (by rw [hreply])⟩
      rintro ⟨-, hidle⟩
      rw [isPending, hidle] at hpending
      cases hpending
  | failing why hseen =>
      refine .inr ⟨?_, .failing why hseen hafter (by rw [hreply]) (by rw [hreply])⟩
      rintro ⟨⟨_, htext⟩, -⟩
      cases htext
  | recorded s hidle _ => exact .inl ⟨⟨s, rfl⟩, hidle, .intro s hidle hafter (by rw [hreply])⟩
  | refused s existing hpending hseen =>
      refine .inr ⟨?_, .refused s existing hseen hpending hafter (by rw [hreply]) (by rw [hreply])⟩
      rintro ⟨-, hidle⟩
      rw [hidle] at hpending
      cases hpending

/-- What an attempt leaves pending, from what was pending before. -/
lemma Records.pending (h : t.Records k m) :
    ∃ s, m = .text s ∧ t.after.pending = t.before.pending.insert k s := by
  cases h with
  | intro s _ hrecorded _ => exact ⟨s, rfl, by rw [hrecorded]; rfl⟩

lemma Refuses.kept (h : t.Refuses k m) : t.after = t.before := by
  cases h <;> assumption

/-- An operation that neither is an attempt nor has to do with the mode sees and changes
nothing but what is pending. -/
lemma step_setMode (r : Registry κ) (mode : Mode) {step : Step κ} (h : step.attempt? = none)
    (hsets : step.setsMode = false) :
    ((r.setMode mode).step step).1 = (r.step step).1.setMode mode
      ∧ (step.showsMode = false → ((r.setMode mode).step step).2 = (r.step step).2) := by
  cases step with
  | throw | tryThrow => cases h
  | setMode => cases hsets
  | mode | inspect => exact ⟨rfl, nofun⟩
  | _ => exact ⟨rfl, fun _ => rfl⟩

/-- Counterparts match where the same is pending. -/
lemma matches_of_counterpart (hstep : t.step.Counterpart t'.step)
    (hbefore : t'.before.pending = t.before.pending) (hsets : t.step.setsMode = false) :
    t.Matches t' := by
  have hpeek : ∀ k, t'.before.peek k = t.before.peek k := fun k => by rw [peek, peek, hbefore]
  cases hattempt : t.step.attempt? with
  | some x =>
      obtain ⟨k, m⟩ := x
      have hboth : t.Records k m ∧ t'.Records k m ∨ t.Refuses k m ∧ t'.Refuses k m := by
        rcases records_or_refuses hattempt with ⟨htext, hidle, h⟩ | ⟨hnot, h⟩
        · rcases records_or_refuses (hstep.attempt.trans hattempt) with ⟨-, -, h'⟩ | ⟨hnot, -⟩
          · exact .inl ⟨h, h'⟩
          · exact absurd ⟨htext, (hpeek k).trans hidle⟩ hnot
        · rcases records_or_refuses (hstep.attempt.trans hattempt) with ⟨htext, hidle, -⟩ | ⟨-, h'⟩
          · exact absurd ⟨htext, (hpeek k).symm.trans hidle⟩ hnot
          · exact .inr ⟨h, h'⟩
      refine ⟨hstep, hbefore, ?_, fun k' m' h => ?_, fun h => ?_⟩
      · rcases hboth with ⟨h, h'⟩ | ⟨h, h'⟩
        · obtain ⟨s, rfl, hafter⟩ := h.pending
          obtain ⟨s', hs', hafter'⟩ := h'.pending
          cases hs'
          rw [hafter, hafter', hbefore]
        · rw [h.kept, h'.kept, hbefore]
      · rw [hattempt] at h
        cases h
        exact hboth
      · rw [hattempt] at h
        cases h
  | none =>
      have hsame : t'.step = t.step := hstep.other hattempt
      have hmode : t'.before = t.before.setMode t'.before.mode := by rw [setMode, ← hbefore]
      obtain ⟨hafter, hreply⟩ := step_setMode t.before t'.before.mode hattempt hsets
      refine ⟨hstep, hbefore, ?_, fun k m h => ?_, fun _ hshows => ?_⟩
      · rw [after, hsame, hmode, hafter]
        rfl
      · rw [hattempt] at h
        cases h
      · rw [reply, hsame, hmode, hreply hshows]
        rfl

end Turn

/-! ### Histories -/

/-- Setting the mode leaves what is pending. -/
lemma run_setsMode (r : Registry κ) {steps : List (Step κ)}
    (h : ∀ step ∈ steps, step.setsMode = true) :
    (r.run steps).1.pending = r.pending
      ∧ (r.turns steps).filter (!·.step.setsMode) = [] := by
  induction steps generalizing r with
  | nil => exact ⟨rfl, rfl⟩
  | cons step steps ih =>
      obtain ⟨hstep, hsteps⟩ := List.forall_mem_cons.mp h
      cases step with
      | setMode mode => exact ih (r.setMode mode) hsteps
      | _ => cases hstep

lemma filter_turns_cons (r : Registry κ) {step : Step κ} (steps : List (Step κ))
    (h : step.setsMode = false) : (r.turns (step :: steps)).filter (!·.step.setsMode)
      = ⟨r, step⟩ :: ((r.step step).1.turns steps).filter (!·.step.setsMode) := by
  simp [turns, h]

variable {r r' : Registry κ} {xs ys : List (Step κ)}

/-- **The mode is immaterial, and so is the way of throwing**: two histories that begin with
the same messages pending, and differ in their modes, in operations that set the mode at any
place, and in that one throws what the other tries to throw, go on side by side.  After
corresponding operations the same is pending in both; an attempt is recorded by both or by
neither; and all other operations have the same replies, unless they show the mode. -/
theorem mode_immaterial (hpending : r'.pending = r.pending)
    (h : List.Forall₂ Step.Counterpart (xs.filter (!·.setsMode)) (ys.filter (!·.setsMode))) :
    List.Forall₂ Turn.Matches ((r.turns xs).filter (!·.step.setsMode))
        ((r'.turns ys).filter (!·.step.setsMode))
      ∧ (r'.run ys).1.pending = (r.run xs).1.pending := by
  induction xs generalizing r r' ys with
  | nil =>
      -- all that is left on the other side sets the mode
      have hys : ∀ y ∈ ys, y.setsMode = true := by
        have hnone := List.filter_eq_nil_iff.mp (List.forall₂_nil_left_iff.mp h)
        simpa using hnone
      obtain ⟨hkept, hturns⟩ := run_setsMode r' hys
      exact ⟨by rw [hturns]; exact .nil, hkept.trans hpending⟩
  | cons x xs ih =>
      by_cases hx : x.setsMode = true
      · cases x with
        | setMode mode => exact ih (r := r.setMode mode) hpending h
        | _ => cases hx
      · have hx : x.setsMode = false := Bool.not_eq_true _ ▸ hx
        rw [List.filter_cons_of_pos (by simpa using hx)] at h
        obtain ⟨y, ys', hxy, hrest, hys⟩ := List.forall₂_cons_left_iff.mp h
        obtain ⟨before, after, rfl, hbefore, hy, rfl⟩ := List.filter_eq_cons_iff.mp hys
        obtain ⟨hkept, hturns⟩ := run_setsMode r' (by simpa using hbefore)
        have hmatches : Turn.Matches ⟨r, x⟩ ⟨(r'.run before).1, y⟩ :=
          Turn.matches_of_counterpart hxy (hkept.trans hpending) hx
        obtain ⟨hturns', hpending'⟩ := ih hmatches.after hrest
        constructor
        · rw [turns_append, List.filter_append, hturns, List.nil_append, filter_turns_cons r xs hx,
            filter_turns_cons _ after (by simpa using hy)]
          exact .cons hmatches hturns'
        · rw [run_append, run_cons, run_cons]
          exact hpending'

/-- A history that throws and tries, and is strict in the end. -/
def thrown : List (Step Nat) :=
  [.throw 1 (.text "first"), .throw 1 (.failing "no text"), .tryThrow 1 (.text "late"),
    .setMode .strict, .take 1, .throw 1 (.failing "no text")]

/-- Its counterpart, which is strict before. -/
def tried : List (Step Nat) :=
  [.tryThrow 1 (.text "first"), .setMode .strict, .throw 1 (.failing "no text"),
    .throw 1 (.text "late"), .take 1, .setMode .firstWins, .throw 1 (.failing "no text")]

/-- The same is refused in both, though the second operation aborts in one of them only. -/
theorem mode_immaterial_tried :
    List.Forall₂ Step.Counterpart (thrown.filter (!·.setsMode)) (tried.filter (!·.setsMode))
      ∧ List.Forall₂ Turn.Matches (((empty .firstWins).turns thrown).filter (!·.step.setsMode))
        (((empty .firstWins).turns tried).filter (!·.step.setsMode))
      ∧ ((empty .firstWins).run thrown).2[1]?.map (·.outcome) = some (.returned (.flag false))
      ∧ ((empty .firstWins).run tried).2[2]?.map (·.outcome) = some (.aborted "no text") := by
  have same : ∀ x : Step Nat, x.Counterpart x := fun x => ⟨rfl, fun _ => rfl⟩
  have h : List.Forall₂ Step.Counterpart (thrown.filter (!·.setsMode))
      (tried.filter (!·.setsMode)) :=
    .cons ⟨rfl, nofun⟩ (.cons (same _) (.cons ⟨rfl, nofun⟩ (.cons (same _) (.cons (same _) .nil))))
  exact ⟨h, (mode_immaterial rfl h).1, rfl, rfl⟩

end ScriptBinding.Registry
