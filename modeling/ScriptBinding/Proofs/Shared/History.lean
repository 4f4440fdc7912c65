import Mathlib.Data.List.Permutation
import ScriptBinding.Proofs.Shared.Ownership

/-
Exact ownership in every history of a store.

* `Step.Fits`: the slots and owners that an operation names are there and of
  fitting types; `WellFormed.step?_isSome_iff`: then it answers, and only then.
* `run_passes`: a history is a sequence of moves.
* `Store.handles`, `Store.owners`: the handles in slots and kid lists, and with
  them the owners held outside of handles.
* `Store.Balanced`: no handle dangles, and counts are numbers of owners.
* `ownership_exact`: every history leaves a balanced store, drops no object
  twice, and drops one only when its last owner goes.
-/
namespace ScriptBinding.Shared

/-- Whether the slots and owners that an operation names are there and of
fitting types. -/
def Step.Fits (s : Store) : Step → Prop
  | .create .. | .empty .. | .chain .. => True
  | .init slot _ | .clone slot _ | .reset slot | .remove slot | .get slot | .deref slot
  | .status slot | .inspect slot | .write slot _ | .read slot | .pop slot | .kid slot _ _ =>
      ∃ target, s.slots.get? slot = some target
  | .pointsAt slot place =>
      (∃ target, s.slots.get? slot = some target) ∧
        ∀ other, place = .node other → ∃ target, s.slots.get? other = some target
  | .compare slot other =>
      (∃ target, s.slots.get? slot = some target) ∧ ∃ target, s.slots.get? other = some target
  | .assign slot source =>
      ∃ target shared, s.slots.get? slot = some target ∧ s.slots.get? source = some shared ∧
        ¬ (target.kind = .concrete ∧ shared.kind = .erased)
  | .push slot source =>
      (∃ target, s.slots.get? slot = some target) ∧ ∃ r, s.concrete? source = some r
  | .advance slot =>
      ∃ target, s.slots.get? slot = some target ∧ ¬ (target.kind = .erased ∧ target.ref.isSome)
  | .upcast source _ via =>
      ∃ slot c, s.slots.get? source = some slot ∧ s.conversion? slot.ref via = some c
  | .hold source _ => ∃ r, s.concrete? source = some r
  | .letGo owner | .adopt owner _ => ∃ i, s.held.get? owner = some i

namespace Store

variable {s s' : Store}

lemma isSome_bind {β γ : Type} {x : Option β} {f : β → Option γ} :
    (do let b ← x; f b).isSome ↔ ∃ b, x = some b ∧ (f b).isSome := by
  cases x <;> simp

/-- A slot can always be read: its handle is empty, or it points at a live object. -/
lemma WellFormed.reading_isSome (hw : s.WellFormed 0) {name : String} {slot : Slot}
    (hget : s.slots.get? name = some slot) (use : ObjectId → Object Node → Store × StepReply) :
    (s.reading slot use).isSome := by
  rw [reading]
  split
  · rfl
  · rename_i i hi
    obtain ⟨o, ho⟩ := hw.get?_of_slot hget hi
    rw [ho]
    rfl

/-- **No operation gets stuck**: it answers exactly if the slots and owners that
it names are there and fit. -/
theorem WellFormed.step?_isSome_iff (hw : s.WellFormed 0) (step : Step) :
    (s.step? step).isSome ↔ step.Fits s := by
  cases step with
  | create | empty | chain => simp [step?, Step.Fits]
  | init | clone | reset | remove | get | status | inspect | letGo | adopt | compare =>
      simp only [step?, isSome_bind, Step.Fits]
      simp
  | deref slot | write slot | read slot | pop slot | kid slot =>
      simp only [step?, isSome_bind, Step.Fits]
      exact exists_congr fun target => and_iff_left_of_imp fun h => hw.reading_isSome h _
  | pointsAt slot place =>
      cases place with
      | null | elsewhere => simp only [step?, isSome_bind, Step.Fits]; simp
      | node other => simp only [step?, isSome_bind, Step.Fits]; simp
  | assign slot source =>
      simp only [step?, isSome_bind, Step.Fits, exists_and_left]
      refine exists_congr fun target => and_congr_right fun _ => exists_congr fun shared =>
        and_congr_right fun _ => ?_
      split <;> simp_all
  | push slot source =>
      simp only [step?, isSome_bind, Step.Fits]
      constructor
      · rintro ⟨target, htarget, r, hr, -⟩
        exact ⟨⟨target, htarget⟩, r, hr⟩
      · rintro ⟨⟨target, htarget⟩, r, hr⟩
        exact ⟨target, htarget, r, hr, hw.reading_isSome htarget _⟩
  | advance slot =>
      simp only [step?, isSome_bind, Step.Fits]
      refine exists_congr fun target => and_congr_right fun h => ?_
      split
      · simp_all
      · simp_all [hw.reading_isSome h]
  | upcast source dest via =>
      simp only [step?, isSome_bind, Step.Fits, exists_and_left]
      refine exists_congr fun slot => and_congr_right fun _ => exists_congr fun c =>
        and_iff_left_of_imp fun _ => ?_
      split <;> rfl
  | hold source owner =>
      simp only [step?, isSome_bind, Step.Fits]
      refine exists_congr fun r => and_iff_left_of_imp fun _ => ?_
      cases r <;> rfl

/-! ### Histories -/

/-- A history is its first step and the rest. -/
lemma run?_cons {step : Step} {steps : List Step} {replies : List StepReply}
    (h : s.run? (step :: steps) = some (s', replies)) :
    ∃ s₁ reply rest, s.step? step = some (s₁, reply) ∧ s₁.run? steps = some (s', rest)
      ∧ replies = reply :: rest := by
  simp only [run?, bind_eq_some, Option.pure_def, Option.some_inj, Prod.mk.injEq] at h
  obtain ⟨⟨s₁, reply⟩, hstep, ⟨s₂, rest⟩, hrest, rfl, rfl⟩ := h
  exact ⟨s₁, reply, rest, hstep, hrest, rfl⟩

/-- A step that is taken before a history. -/
lemma run?_of_step {step : Step} {steps : List Step} {reply : StepReply} {s₁ : Store}
    {replies : List StepReply} (hstep : s.step? step = some (s₁, reply))
    (hrun : s₁.run? steps = some (s', replies)) :
    s.run? (step :: steps) = some (s', reply :: replies) := by
  simp only [run?, hstep, hrun, Option.bind_eq_bind, Option.bind_some]
  rfl

/-- A history in two parts. -/
lemma run?_append {steps more : List Step} {replies : List StepReply}
    (h : s.run? (steps ++ more) = some (s', replies)) :
    ∃ s₁ first rest, s.run? steps = some (s₁, first) ∧ s₁.run? more = some (s', rest) := by
  induction steps generalizing s replies with
  | nil => exact ⟨s, [], replies, rfl, h⟩
  | cons step steps ih =>
      obtain ⟨s₁, reply, rest, hstep, hrest, rfl⟩ := run?_cons h
      obtain ⟨s₂, first, last, hfirst, hlast⟩ := ih hrest
      exact ⟨s₂, reply :: first, last, run?_of_step hstep hfirst, hlast⟩

/-- A history after another one. -/
lemma run?_trans {steps more : List Step} {first rest : List StepReply} {s₁ : Store}
    (h : s.run? steps = some (s₁, first)) (hmore : s₁.run? more = some (s', rest)) :
    s.run? (steps ++ more) = some (s', first ++ rest) := by
  induction steps generalizing s first with
  | nil =>
      cases h
      exact hmore
  | cons step steps ih =>
      obtain ⟨s₂, reply, replies, hstep, hrest, rfl⟩ := run?_cons h
      exact run?_of_step hstep (ih hrest)

/-- Every history is a sequence of moves. -/
theorem run_passes {steps : List Step} {replies : List StepReply}
    (h : s.run? steps = some (s', replies)) :
    s.Passes 0 s' 0 (replies.flatMap (·.events)) := by
  induction steps generalizing s replies with
  | nil =>
      cases h
      exact Passes.refl _ 0
  | cons step steps ih =>
      obtain ⟨s₁, reply, rest, hstep, hrest, rfl⟩ := run?_cons h
      exact (step_passes hstep).trans (ih hrest)

/-- Every history from the empty store leaves a well-formed one. -/
lemma run_wellFormed {s : Store} {steps : List Step} {replies : List StepReply}
    (h : ({} : Store).run? steps = some (s, replies)) : s.WellFormed 0 :=
  (run_passes h).wellFormed .empty

/-- Only `hold` puts owners outside of handles. -/
lemma step_held {step : Step} {reply : StepReply} (h : s.step? step = some (s', reply))
    (hstep : ∀ source owner, step ≠ .hold source owner) (hheld : s.held = .empty) :
    s'.held = .empty := by
  have hread : ∀ {slot : Slot} {use : ObjectId → Object Node → Store × StepReply}
      {p : Store × StepReply}, (∀ i o, (use i o).1.held = s.held) → s.reading slot use = some p →
      p.1.held = .empty := by
    intro slot use p huse hp
    rcases reading_cases hp with ⟨-, rfl⟩ | ⟨i, o, -, -, rfl⟩
    · exact hheld
    · rw [huse, hheld]
  cases step with
  | hold source owner => exact absurd rfl (hstep source owner)
  | letGo owner | adopt owner =>
      simp [step?, hheld] at h
  | create | empty | chain =>
      simp only [step?, Option.some_inj, done, Prod.mk.injEq] at h
      rw [← h.1]
      exact hheld
  | init | clone | reset | remove | get | status | inspect =>
      simp only [step?, bind_eq_some, Option.pure_def, Option.some_inj, done, Prod.mk.injEq] at h
      obtain ⟨_, _, rfl, rfl⟩ := h
      exact hheld
  | compare =>
      simp only [step?, bind_eq_some, Option.pure_def, Option.some_inj, Prod.mk.injEq] at h
      obtain ⟨_, _, _, _, rfl, rfl⟩ := h
      exact hheld
  | deref | write | read =>
      simp only [step?, bind_eq_some] at h
      obtain ⟨_, _, h⟩ := h
      exact hread (fun _ _ => rfl) h
  | pop | kid =>
      simp only [step?, bind_eq_some] at h
      obtain ⟨_, _, h⟩ := h
      exact hread (fun _ _ => by split <;> rfl) h
  | push =>
      simp only [step?, bind_eq_some] at h
      obtain ⟨_, _, _, _, h⟩ := h
      exact hread (fun _ _ => rfl) h
  | pointsAt _ place =>
      simp only [step?, bind_eq_some] at h
      obtain ⟨_, _, h⟩ := h
      cases place with
      | null | elsewhere => cases h; exact hheld
      | node other =>
          simp only [bind_eq_some] at h
          obtain ⟨_, _, h⟩ := h
          cases h
          exact hheld
  | assign =>
      simp only [step?, bind_eq_some] at h
      obtain ⟨_, _, _, _, h⟩ := h
      split at h <;> cases h
      exact hheld
  | advance =>
      simp only [step?, bind_eq_some] at h
      obtain ⟨_, _, h⟩ := h
      split at h
      · cases h
      · exact hread (fun _ _ => rfl) h
  | upcast =>
      simp only [step?, bind_eq_some] at h
      obtain ⟨_, _, _, _, h⟩ := h
      split at h <;> cases h <;> exact hheld

/-- A history without `hold` has no owners outside of handles. -/
lemma run_held {steps : List Step} {replies : List StepReply}
    (h : s.run? steps = some (s', replies)) (hsteps : ∀ source owner, .hold source owner ∉ steps)
    (hheld : s.held = .empty) : s'.held = .empty := by
  induction steps generalizing s replies with
  | nil =>
      cases h
      exact hheld
  | cons step steps ih =>
      obtain ⟨s₁, reply, rest, hstep, hrest, rfl⟩ := run?_cons h
      have hfirst : ∀ source owner, step ≠ .hold source owner := by
        rintro source owner rfl
        exact hsteps source owner (List.mem_cons_self ..)
      refine ih hrest ?_ (step_held hstep hfirst hheld)
      intro source owner hmem
      exact hsteps source owner (List.mem_cons_of_mem _ hmem)

/-! ### Exact ownership -/

/-- The handles there are: in slots, and in the kid lists of live nodes. -/
def handles (s : Store) : List Ref :=
  slotRefs s.slots ++ s.heap.kidRefs

/-- All owners there are: the handles, and the owners held without one. -/
def owners (s : Store) : List Ref :=
  s.handles ++ heldRefs s.held

/-- Exact ownership as it shows between two steps. -/
structure Balanced (s : Store) : Prop where
  /-- No handle dangles. -/
  live : ∀ i, some i ∈ s.handles → ∃ o, s.heap.get? i = some o
  /-- The owners of a live object are all counted, and there are some. -/
  count : ∀ i o, s.heap.get? i = some o → o.owners = s.owners.count (some i) ∧ 1 ≤ o.owners
  /-- A slot shows the count of its object; an empty one shows none. -/
  status : ∀ name slot, s.slots.get? name = some slot →
    s.step? (.status name) = some (s, .quiet (.status slot.ref.isSome slot.ref.isNone
      slot.ref.isNone (if slot.ref.isSome then s.owners.count slot.ref else 0)))
  /-- Slots are equal exactly if they share an object or are both empty. -/
  compare : ∀ a b slot other, s.slots.get? a = some slot → s.slots.get? b = some other →
    s.step? (.compare a b) = some (s, .quiet (.equal (slot.ref = other.ref)))

namespace WellFormed

/-- The count of an object, dropped or not, is the number of its owners. -/
lemma ownerCount_eq (hw : s.WellFormed 0) (i : ObjectId) :
    s.heap.ownerCount (some i) = s.owners.count (some i) := by
  calc s.heap.ownerCount (some i)
      = s.roots.count (some i) + s.heap.kidRefs.count (some i) := by
        rw [hw.exact.count, zero_add, count_owned]
    _ = s.owners.count (some i) := by
        rw [roots, owners, handles]
        simp only [List.count_append]
        omega

/-- An object is live exactly if it has an owner. -/
lemma isSome_iff (hw : s.WellFormed 0) {i : ObjectId} :
    (s.heap.get? i).isSome ↔ some i ∈ s.owners := by
  rw [hw.exact.isSome_iff, zero_add, mem_owned, roots, owners, handles]
  simp only [List.mem_append]
  tauto

lemma balanced (hw : s.WellFormed 0) : s.Balanced where
  live i hi :=
    Option.isSome_iff_exists.mp (hw.isSome_iff.mpr (List.mem_append_left _ hi))
  count i o ho := by
    rw [← hw.ownerCount_eq, Heap.ownerCount_of_get? ho]
    exact ⟨rfl, hw.exact.pos ho⟩
  status name slot hget := by
    obtain ⟨kind, r⟩ := slot
    cases r with
    | none => simp [step?, hget, Heap.ownerCount, Heap.deref?]
    | some i => simp [step?, hget, hw.ownerCount_eq]
  compare a b slot other ha hb := by
    simp [step?, ha, hb]

end WellFormed

/-- A step drops exactly the objects that had an owner, or were made in the step,
and that have none left. -/
lemma WellFormed.mem_drops_iff (hw : s.WellFormed 0) {step : Step} {reply : StepReply}
    (h : s.step? step = some (s', reply)) (i : ObjectId) :
    i ∈ reply.events.map (·.id) ↔
      (some i ∈ s.owners ∨ s.heap.next ≤ i ∧ i < s'.heap.next) ∧ some i ∉ s'.owners := by
  obtain ⟨-, -, hm⟩ := step_passes h hw
  have hw' := (step_passes h).wellFormed hw
  rw [← hw.isSome_iff, ← hw'.isSome_iff]
  exact hm.mem_dropped_iff hw.exact

/-- **Shared ownership is exact in every history.** -/
theorem ownership_exact {steps : List Step} {s : Store} {replies : List StepReply}
    (hrun : ({} : Store).run? steps = some (s, replies)) :
    s.Balanced
      ∧ ((∀ source owner, .hold source owner ∉ steps) → s.owners = s.handles)
      ∧ ((replies.flatMap (·.events)).map (·.id)).Nodup
      ∧ (∀ step, (s.step? step).isSome ↔ step.Fits s)
      ∧ ∀ step s' reply, s.step? step = some (s', reply) → ∀ i,
          i ∈ reply.events.map (·.id) ↔
            (some i ∈ s.owners ∨ s.heap.next ≤ i ∧ i < s'.heap.next) ∧ some i ∉ s'.owners := by
  have hw := run_wellFormed hrun
  refine ⟨hw.balanced, fun hsteps => ?_, ?_, hw.step?_isSome_iff, ?_⟩
  · rw [owners, run_held hrun hsteps rfl]
    exact List.append_nil _
  · obtain ⟨-, -, hm⟩ := run_passes hrun .empty
    exact Multiset.coe_nodup.mp (hm.nodup_dropped Heap.Exact.empty)
  · intro step s' reply hstep i
    exact hw.mem_drops_iff hstep i

/-- A node with a kid, held by one of two slots that shared it. -/
theorem ownership_exact_shared :
    ∃ s replies, ({} : Store).run? [.create .concrete "root" "a", .create .concrete "leaf" "b",
        .push "a" "b", .clone "a" "c", .reset "a"] = some (s, replies)
      ∧ s.Balanced ∧ s.owners = s.handles ∧ s.owners.count (some 1) = 2
      ∧ ((replies.flatMap (·.events)).map (·.id)).Nodup
      ∧ ∀ step s' reply, s.step? step = some (s', reply) → ∀ i,
          i ∈ reply.events.map (·.id) ↔
            (some i ∈ s.owners ∨ s.heap.next ≤ i ∧ i < s'.heap.next) ∧ some i ∉ s'.owners := by
  have hrun : ({} : Store).run? [.create .concrete "root" "a", .create .concrete "leaf" "b",
        .push "a" "b", .clone "a" "c", .reset "a"]
      = some (⟨⟨⟨[(0, ⟨.fresh "root", [some 1], 1⟩), (1, ⟨.fresh "leaf", [], 2⟩)]⟩, 2⟩,
          ⟨[("a", ⟨.concrete, none⟩), ("b", ⟨.concrete, some 1⟩), ("c", ⟨.concrete, some 0⟩)]⟩,
          .empty⟩,
        [.quiet .done, .quiet .done, .quiet .done, .quiet .done, .quiet (.flag false)]) := by
    cbv
  obtain ⟨hbalanced, hheld, hnodup, -, hdrops⟩ := ownership_exact hrun
  exact ⟨_, _, hrun, hbalanced, hheld (by simp), by decide, hnodup, hdrops⟩

end Store

end ScriptBinding.Shared
