import ScriptBinding.Proofs.ProcessWide.Chronicle
import ScriptBinding.Proofs.Registry.Attempts

/-
Attempts to record a message among deeds.

* `Deed.offer?`: the text that a deed offers for a VM.
* `Deed.Recorded`, `Deed.Refused`: what becomes of it.
* `FirstWins`: of the texts that deeds offer for a VM, the first one is recorded, and no other.
* `Follows.firstWins`: so it is from any point on at which nothing is pending, until what is
  recorded is removed.
-/
namespace ScriptBinding.ProcessWide

namespace Deed

/-- What an operation came to. -/
def outcome (d : Deed) : Outcome Binding.Answer :=
  (d.before.step d.step).2.outcome

/-- The operation of the registry that it amounted to. -/
def op? (d : Deed) : Option (Registry.Step Handle) :=
  d.step.registry? d.before.defaultVm.vm

/-- The text that it offered for a VM, where its message converted. -/
def offer? (vm : Handle) (d : Deed) : Option String :=
  d.op?.bind (·.offered? vm)

/-- A text was recorded for a VM, and the operation says so. -/
structure Recorded (d : Deed) (vm : Handle) (text : String) : Prop where
  idle : d.before.errors.peek vm = none
  pending : d.after.errors.peek vm = some text
  told : ∃ op, d.op? = some op ∧ d.outcome = .returned (.registry op.accepted)

/-- A text was refused because another one was pending for the VM, and the operation says so. -/
structure Refused (d : Deed) (vm : Handle) (text : String) : Prop where
  kept : d.after.errors = d.before.errors
  told : ∃ op existing, d.op? = some op ∧ d.before.errors.peek vm = some existing
    ∧ d.outcome = .returned (.registry (op.refused existing text))

end Deed

/-- Of the texts that deeds offer for a VM, the first one is recorded, and all others are
refused. -/
def FirstWins (vm : Handle) (ds : List Deed) : Prop :=
  ∀ xs d ys text, ds = xs ++ d :: ys → d.offer? vm = some text →
    ((∀ e ∈ xs, e.offer? vm = none) → d.Recorded vm text)
    ∧ ((∃ e ∈ xs, e.offer? vm ≠ none) → d.Refused vm text)

variable {d : Deed} {ds : List Deed} {s t : Binding} {vm : Handle} {text : String}

/-! ### One attempt -/

/-- A text that is offered is attempted to be recorded. -/
lemma attempt?_of_offered {op : Registry.Step Handle} (h : op.offered? vm = some text) :
    op.attempt? = some (vm, .text text) ∧ op.key? = some vm := by
  cases op with
  | throw k m | tryThrow k m =>
      cases m with
      | failing why => cases h
      | text s =>
          obtain ⟨rfl, heq⟩ := Option.ite_none_right_eq_some.mp h
          cases heq
          exact ⟨rfl, rfl⟩
  | _ => cases h

/-- An attempt is shown as the registry answers it. -/
lemma shown_of_attempt {step : Binding.Step} {op : Registry.Step Handle} {x : Handle × Message}
    {default : Option Handle} (hop : step.registry? default = some op)
    (hattempt : op.attempt? = some x) (a : Registry.Answer Handle) : step.shown a = a := by
  cases step with
  | check => cases hop; cases hattempt
  | checkDefault =>
      obtain ⟨vm, -, rfl⟩ := Option.map_eq_some_iff.mp hop
      cases hattempt
  | _ => rfl

/-- What an operation does to the registry. -/
lemma Deed.errors_after {op : Registry.Step Handle} (hop : d.op? = some op) :
    d.after.errors = (d.before.errors.step op).1 := by
  rw [Deed.after, Binding.errors_step, show d.step.registry? _ = some op from hop]
  rfl

/-- What becomes of a text is decided by what is pending. -/
lemma Deed.decided (h : d.offer? vm = some text) :
    (d.before.errors.isPending vm = false → d.Recorded vm text)
      ∧ (d.before.errors.isPending vm = true → d.Refused vm text) := by
  obtain ⟨op, hop, hoffered⟩ := Option.bind_eq_some_iff.mp h
  obtain ⟨hattempt, hkey⟩ := attempt?_of_offered hoffered
  have hattempted := Registry.attempted (r := d.before.errors) hattempt
  have hafter := Deed.errors_after hop
  have houtcome : d.outcome = (d.before.errors.step op).2.outcome.map .registry := by
    rw [Deed.outcome, Binding.outcome_step _ _ hop hkey]
    simp only [shown_of_attempt hop hattempt]
  revert hafter houtcome
  generalize d.before.errors.step op = result at hattempted
  intro hafter houtcome
  cases hattempted with
  | unseen _ pending unseen =>
      refine ⟨fun hidle => (Bool.false_ne_true (hidle.symm.trans pending)).elim, fun _ => ?_⟩
      obtain ⟨existing, hexisting⟩ := Option.isSome_iff_exists.mp pending
      refine ⟨hafter, op, existing, hop, hexisting, houtcome.trans ?_⟩
      cases op with
      | throw => rfl
      | _ => cases unseen
  | recorded _ idle =>
      refine ⟨fun _ => ⟨idle, ?_, op, hop, houtcome⟩, fun hpending => ?_⟩
      · rw [hafter, Registry.peek_record, if_pos rfl]
      · rw [Registry.isPending, idle] at hpending
        cases hpending
  | refused _ existing pending =>
      refine ⟨fun hidle => ?_, fun _ => ⟨hafter, op, existing, hop, pending, houtcome⟩⟩
      rw [Registry.isPending, pending] at hidle
      cases hidle

/-- Where nothing is removed, something is pending if it was before, or is offered. -/
lemma Deed.isPending_after (hkeeps : ¬ d.Removes vm) :
    d.after.errors.isPending vm = (d.before.errors.isPending vm || (d.offer? vm).isSome) := by
  cases hop : d.op? with
  | none =>
      have hkept : d.after.errors = d.before.errors := by
        rw [Deed.after, Binding.errors_step, show d.step.registry? _ = none from hop]
        rfl
      rw [hkept, Deed.offer?, hop]
      exact (Bool.or_false _).symm
  | some op =>
      have hafter : d.after.errors.peek vm
          = if op.drains vm then none else (d.before.errors.peek vm).or (op.offered? vm) := by
        rw [Deed.errors_after hop, Registry.peek_step]
      rw [Deed.offer?, hop, Option.bind_some]
      cases hdrains : op.drains vm with
      | false =>
          rw [hdrains] at hafter
          rw [Registry.isPending, hafter, Registry.isPending]
          exact Option.isSome_or
      | true =>
          rw [hdrains] at hafter
          have hidle : d.before.errors.isPending vm = false := by
            refine Bool.eq_false_iff.mpr fun hpending => hkeeps ⟨hpending, ?_⟩
            rw [Registry.isPending, hafter]
            rfl
          have hnone : op.offered? vm = none := by
            cases op with
            | throw | tryThrow => cases hdrains
            | _ => rfl
          rw [hidle, hnone, Registry.isPending, hafter]
          rfl

/-! ### Deeds, one after the other -/

/-- Deeds in two parts. -/
lemma Follows.of_append {xs ys : List Deed} (h : Follows s (xs ++ ys) t) :
    ∃ u, Follows s xs u ∧ Follows u ys t := by
  induction xs generalizing s with
  | nil => exact ⟨s, .nil s, h⟩
  | cons x xs ih =>
      cases h with
      | cons sound rest =>
          obtain ⟨u, hxs, hys⟩ := ih rest
          exact ⟨u, .cons sound hxs, hys⟩

/-- Deeds end where the last one does. -/
lemma Follows.eq_after (h : Follows s ds t) (hd : ds.getLast? = some d) : t = d.after := by
  induction h with
  | nil => cases hd
  | @cons e ds t sound rest ih =>
      rw [List.getLast?_cons] at hd
      cases hlast : ds.getLast? with
      | some d' =>
          rw [hlast] at hd
          exact ih (hlast.trans hd)
      | none =>
          obtain rfl := List.getLast?_eq_none_iff.mp hlast
          obtain rfl : e = d := Option.some_inj.mp hd
          generalize e.after = u at rest ⊢
          cases rest
          rfl

/-- As long as nothing is removed, something is pending from the first text on that is
offered. -/
lemma Follows.isPending (h : Follows s ds t) (hkeeps : ∀ d ∈ ds, ¬ d.Removes vm) :
    t.errors.isPending vm = true
      ↔ s.errors.isPending vm = true ∨ ∃ d ∈ ds, d.offer? vm ≠ none := by
  induction h with
  | nil => simp
  | @cons d ds t sound rest ih =>
      obtain ⟨hd, hds⟩ := List.forall_mem_cons.mp hkeeps
      rw [ih hds, Deed.isPending_after hd, Bool.or_eq_true, Option.isSome_iff_ne_none, or_assoc,
        List.exists_mem_cons_iff]

/-- **The first text wins** from any point on at which nothing is pending, until what is recorded
is removed. -/
lemma Follows.firstWins (h : Follows s ds t) (hidle : s.errors.isPending vm = false)
    (hkeeps : ∀ d ∈ ds, ¬ d.Removes vm) : FirstWins vm ds := by
  rintro xs d ys text rfl hoffer
  obtain ⟨hxs, -, -⟩ := h.split
  have hpending := hxs.isPending fun e he => hkeeps e (List.mem_append_left _ he)
  rw [hidle] at hpending
  obtain ⟨hrecorded, hrefused⟩ := Deed.decided hoffer
  refine ⟨fun hnone => hrecorded (Bool.eq_false_iff.mpr fun hsome => ?_), fun hsome =>
    hrefused (hpending.mpr (.inr hsome))⟩
  obtain ⟨e, he, hoffered⟩ := (hpending.mp hsome).resolve_left Bool.false_ne_true
  exact hoffered (hnone e he)

end ScriptBinding.ProcessWide
