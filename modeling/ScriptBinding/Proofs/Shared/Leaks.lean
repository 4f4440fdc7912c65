import Mathlib.Data.Set.Finite.List
import Mathlib.Order.WellFounded
import ScriptBinding.Proofs.Shared.Release

/-
Only reference cycles leak.

* `Heap.Reaches`, `Heap.OnCycle`: objects reached by following kid lists, and
  those that reach themselves.
* `Exact.rooted_or_cyclic`: where counts are exact, a live object is reached from a
  root or from a cycle.  Going from owner to owner ends at a root, since there are
  finitely many objects, unless it runs into a cycle.
* `Step.LetsGo`: the operations that only give up owners; `run_holds`: they make
  no cycles.
* `dismantle_passes`, `roots_dismantled`: a store taken apart has no roots.
* `only_cycles_leak`: in every history, what is not dropped is reached from a root or
  from a cycle.
-/
namespace ScriptBinding.Shared

namespace Heap

variable {α : Type} {h h' : Heap α} {out : Multiset ObjectId} {roots : List Ref}
  {p i : ObjectId}

/-- An object leads to another one by way of kid lists, or is that one. -/
def Reaches (h : Heap α) : ObjectId → ObjectId → Prop :=
  Relation.ReflTransGen h.Holds

/-- An object lies on a cycle of kid handles. -/
def OnCycle (h : Heap α) (i : ObjectId) : Prop :=
  Relation.TransGen h.Holds i i

/-- No object lies on a cycle. -/
def Acyclic (h : Heap α) : Prop :=
  ∀ i, ¬ h.OnCycle i

/-- An object is reached from one that a root points at. -/
def Rooted (h : Heap α) (roots : List Ref) (i : ObjectId) : Prop :=
  ∃ r, some r ∈ roots ∧ h.Reaches r i

/-- A heap in which less is held has no more cycles. -/
lemma Acyclic.of_holds (ha : h.Acyclic) (hholds : ∀ p i, h'.Holds p i → h.Holds p i) :
    h'.Acyclic :=
  fun i hi => ha i (Relation.TransGen.mono hholds i i hi)

lemma Holds.isSome (hp : h.Holds p i) : (h.get? p).isSome := by
  obtain ⟨o, ho, -⟩ := hp
  rw [ho]
  rfl

/-- What a live object reaches is live. -/
lemma Exact.isSome_of_reaches (he : h.Exact out) (hp : (h.get? p).isSome)
    (hreach : h.Reaches p i) : (h.get? i).isSome := by
  induction hreach with
  | refl => exact hp
  | tail _ hstep _ => exact he.isSome_iff.mpr (.inr ((mem_kidRefs he.distinct).mpr ⟨_, hstep⟩))

/-- A live object has an owner. -/
lemma Exact.owner (he : h.Exact (owned roots)) (hi : (h.get? i).isSome) :
    some i ∈ roots ∨ ∃ p, h.Holds p i :=
  (he.isSome_iff.mp hi).imp mem_owned.mp (mem_kidRefs he.distinct).mp

/-- **Without a root only a cycle keeps an object live.** -/
theorem Exact.rooted_or_cyclic (he : h.Exact (owned roots)) (hi : (h.get? i).isSome) :
    h.Rooted roots i ∨ ∃ c, h.OnCycle c ∧ h.Reaches c i := by
  by_contra hnone
  rw [not_or] at hnone
  obtain ⟨hroot, hcycle⟩ := hnone
  -- the live objects that lead to `i`, ordered by who leads to whom
  let Above := {p : ObjectId // (h.get? p).isSome ∧ h.Reaches p i}
  let leads : Above → Above → Prop := fun p q => Relation.TransGen h.Holds p.1 q.1
  have hfinite : Finite Above := by
    refine Set.Finite.subset h.objects.keys.finite_toSet ?_
    intro p hp
    exact Table.mem_keys_iff.mpr hp.1
  have htrans : IsTrans Above leads := ⟨fun _ _ _ => Relation.TransGen.trans⟩
  have hirrefl : Std.Irrefl leads := ⟨fun p hp => hcycle ⟨p.1, hp, p.2.2⟩⟩
  have hwf : WellFounded leads := Finite.wellFounded_of_trans_of_irrefl leads
  obtain ⟨top, -, htop⟩ := hwf.has_min Set.univ ⟨⟨i, hi, .refl⟩, trivial⟩
  rcases he.owner top.2.1 with hmem | ⟨p, hp⟩
  · exact hroot ⟨top.1, hmem, top.2.2⟩
  · exact htop ⟨p, hp.isSome, .head hp top.2.2⟩ trivial (.single hp)

/-- What a cascade leaves holds what it held. -/
lemma Releases.holds {work : List Ref} {drops : List (Drop α)}
    (hr : Releases out h work h' drops) (he : h.Exact (owned work + out)) (hp : h'.Holds p i) :
    h.Holds p i := by
  obtain ⟨q, hq, hi⟩ := hp
  obtain ⟨-, o, ho, hkids⟩ := hr.left he hq
  exact ⟨o, ho, hkids ▸ hi⟩

end Heap

/-- The operations that only give up owners. -/
def Step.LetsGo : Step → Prop
  | .reset _ | .remove _ | .letGo _ => True
  | _ => False

namespace Store

variable {s s' t : Store}

/-! ### Giving up owners -/

/-- A handle in hand that is given up. -/
lemma WellFormed.holds_release {r : Ref} (ht : t.WellFormed (owned [r] + 0)) {p i : ObjectId}
    (hp : (t.release r).1.heap.Holds p i) : t.heap.Holds p i := by
  have he := ht.exact
  rw [add_zero] at he
  exact he.releases.holds he hp

lemma WellFormed.holds_removeSlot (hw : s.WellFormed 0) (name : String) {p i : ObjectId}
    (hp : (s.removeSlot name).1.heap.Holds p i) : s.heap.Holds p i :=
  ((Passes.eraseSlot s name 0).wellFormed hw).holds_release hp

lemma WellFormed.holds_removeHeld (hw : s.WellFormed 0) (name : String) {p i : ObjectId}
    (hp : (s.removeHeld name).1.heap.Holds p i) : s.heap.Holds p i :=
  ((Passes.takeHeld s name 0).wellFormed hw).holds_release hp

/-- Such an operation adds nothing to any kid list. -/
lemma step_holds (hw : s.WellFormed 0) {step : Step} (hgo : step.LetsGo) {reply : StepReply}
    (hstep : s.step? step = some (s', reply)) {p i : ObjectId} (hp : s'.heap.Holds p i) :
    s.heap.Holds p i := by
  cases step with
  | reset name =>
      simp only [step?, bind_eq_some] at hstep
      obtain ⟨slot, hget, hstep⟩ := hstep
      cases hstep
      exact ((Passes.setRef s hget none 0).wellFormed hw).holds_release hp
  | remove name =>
      simp only [step?, bind_eq_some] at hstep
      obtain ⟨_, _, hstep⟩ := hstep
      cases hstep
      exact hw.holds_removeSlot name hp
  | letGo name =>
      simp only [step?, bind_eq_some] at hstep
      obtain ⟨_, _, hstep⟩ := hstep
      cases hstep
      exact hw.holds_removeHeld name hp
  | _ => exact hgo.elim

/-- Nor do several of them. -/
lemma run_holds (hw : s.WellFormed 0) {steps : List Step} (hgo : ∀ step ∈ steps, step.LetsGo)
    {replies : List StepReply} (hrun : s.run? steps = some (s', replies)) {p i : ObjectId}
    (hp : s'.heap.Holds p i) : s.heap.Holds p i := by
  induction steps generalizing s replies with
  | nil =>
      cases hrun
      exact hp
  | cons step steps ih =>
      obtain ⟨s₁, reply, rest, hstep, hrest, -⟩ := run?_cons hrun
      obtain ⟨hfirst, hgo⟩ := List.forall_mem_cons.mp hgo
      exact step_holds hw hfirst hstep (ih ((step_passes hstep).wellFormed hw) hgo hrest)

/-! ### Taking a store apart -/

section RemoveEach

variable {remove : Store → String → Store × List (Drop Node)}

lemma removeEach_passes (hremove : ∀ s name, Passes s 0 (remove s name).1 0 (remove s name).2)
    (s : Store) (names : List String) :
    Passes s 0 (removeEach remove s names).1 0 (removeEach remove s names).2.flatten := by
  induction names generalizing s with
  | nil => exact Passes.refl s 0
  | cons name names ih => exact (hremove s name).trans (ih _)

lemma removeEach_holds (hremove : ∀ s name, Passes s 0 (remove s name).1 0 (remove s name).2)
    (hholds : ∀ s, s.WellFormed 0 → ∀ name p i, (remove s name).1.heap.Holds p i →
      s.heap.Holds p i) (hw : s.WellFormed 0) (names : List String) {p i : ObjectId}
    (hp : (removeEach remove s names).1.heap.Holds p i) : s.heap.Holds p i := by
  induction names generalizing s with
  | nil => exact hp
  | cons name names ih => exact hholds s hw name p i (ih ((hremove s name).wellFormed hw) hp)

/-- Where a name goes with each removal, the names that are left are the others. -/
lemma keys_removeEach {ν : Type} {view : Store → Table String ν}
    (hview : ∀ s name, view (remove s name).1 = (view s).erase name) (s : Store)
    (names : List String) :
    (view (removeEach remove s names).1).keys = (view s).keys.filter (· ∉ names) := by
  induction names generalizing s with
  | nil => simp [removeEach]
  | cons name names ih =>
      show (view (removeEach remove (remove s name).1 names).1).keys = _
      rw [ih, hview, Table.keys_erase, List.filter_filter]
      refine List.filter_congr fun k _ => ?_
      simp [Bool.and_comm]

/-- All names go if all are named, in whatever order. -/
lemma keys_removeEach_sortNames {ν : Type} (remove : Store → String → Store × List (Drop Node))
    (view : Store → Table String ν)
    (hview : ∀ s name, view (remove s name).1 = (view s).erase name) (s : Store) :
    (view (removeEach remove s (sortNames (view s).keys)).1).keys = [] := by
  rw [keys_removeEach hview, List.filter_eq_nil_iff]
  intro name hname
  simpa [sortNames, (List.mergeSort_perm _ _).mem_iff] using hname

lemma removeEach_keeps {β : Type} (remove : Store → String → Store × List (Drop Node))
    (view : Store → β) (hview : ∀ s name, view (remove s name).1 = view s) (s : Store)
    (names : List String) : view (removeEach remove s names).1 = view s := by
  induction names generalizing s with
  | nil => rfl
  | cons name names ih => exact (ih (remove s name).1).trans (hview s name)

end RemoveEach

/-- The store that is left when all slots and all held owners have gone. -/
def dismantled (s : Store) : Store :=
  let slotless := (removeEach removeSlot s (sortNames s.slots.keys)).1
  (removeEach removeHeld slotless (sortNames slotless.held.keys)).1

lemma dismantle_passes (s : Store) : Passes s 0 s.dismantled 0 s.dismantle.flatten := by
  have hslots := removeEach_passes (fun s name => Passes.removeSlot s name 0) s
    (sortNames s.slots.keys)
  have hheld := removeEach_passes (fun s name => Passes.removeHeld s name 0)
    (removeEach removeSlot s (sortNames s.slots.keys)).1
    (sortNames (removeEach removeSlot s (sortNames s.slots.keys)).1.held.keys)
  have hall := hslots.trans hheld
  rw [← List.flatten_append] at hall
  exact hall

lemma dismantled_holds (hw : s.WellFormed 0) {p i : ObjectId} (hp : s.dismantled.heap.Holds p i) :
    s.heap.Holds p i := by
  have hpasses := removeEach_passes (fun s name => Passes.removeSlot s name 0) s
    (sortNames s.slots.keys)
  have hslotless := removeEach_holds (fun s name => Passes.removeHeld s name 0)
    (fun _ ht name _ _ => ht.holds_removeHeld name) (hpasses.wellFormed hw) _ hp
  exact removeEach_holds (fun s name => Passes.removeSlot s name 0)
    (fun _ ht name _ _ => ht.holds_removeSlot name) hw _ hslotless

/-- Nothing outside of the heap is left. -/
lemma roots_dismantled (s : Store) : s.dismantled.roots = [] := by
  have hslots := keys_removeEach_sortNames removeSlot slots (fun s name => rfl) s
  have hheld := keys_removeEach_sortNames removeHeld held (fun s name => rfl)
    (removeEach removeSlot s (sortNames s.slots.keys)).1
  have hsame := removeEach_keeps removeHeld slots (fun s name => rfl)
    (removeEach removeSlot s (sortNames s.slots.keys)).1
    (sortNames (removeEach removeSlot s (sortNames s.slots.keys)).1.held.keys)
  rw [roots, slotRefs, heldRefs, dismantled, hsame, List.map_eq_nil_iff.mp hslots,
    List.map_eq_nil_iff.mp hheld]
  rfl

/-! ### Histories -/

/-- The objects dropped in a history, in order. -/
def dropLog (replies : List StepReply) : List ObjectId :=
  (replies.flatMap (·.events)).map (·.id)

/-- An object that was made, and is not in a log of drops.  Names are given in
order, so those below the next one were given. -/
def Undropped (s : Store) (log : List ObjectId) (i : ObjectId) : Prop :=
  i < s.heap.next ∧ i ∉ log

/-- What was made is dropped once, or is live. -/
lemma count_dropLog {drops : List (Drop Node)} (hp : Passes {} 0 s 0 drops) (i : ObjectId) :
    (drops.map (·.id)).count i
      = if i < s.heap.next ∧ ¬ (s.heap.get? i).isSome then 1 else 0 := by
  obtain ⟨-, -, hm⟩ := hp .empty
  have hcount := hm.count_dropped Heap.Exact.empty i
  have hnone : (({} : Store).heap.get? i).isSome = false := rfl
  have hzero : ({} : Store).heap.next = 0 := rfl
  rw [hnone, hzero] at hcount
  simpa [Heap.dropped] using hcount

/-- The live objects are those that were made and not dropped. -/
lemma undropped_iff {drops : List (Drop Node)} (hp : Passes {} 0 s 0 drops) (i : ObjectId) :
    s.Undropped (drops.map (·.id)) i ↔ (s.heap.get? i).isSome := by
  have hlt : (s.heap.get? i).isSome → i < s.heap.next := fun hi => by
    obtain ⟨o, ho⟩ := Option.isSome_iff_exists.mp hi
    exact (hp.wellFormed .empty).exact.lt_next ho
  rw [Undropped, ← List.count_eq_zero, count_dropLog hp]
  split <;> grind

/-- Where nothing is cyclic and there are no roots, every object that was made has
been dropped once. -/
lemma count_eq_one {drops : List (Drop Node)} (hp : Passes {} 0 s 0 drops)
    (hacyclic : s.heap.Acyclic) (hroots : ∀ i, some i ∉ s.roots) {i : ObjectId}
    (hi : i < s.heap.next) : (drops.map (·.id)).count i = 1 := by
  have he := (hp.wellFormed .empty).exact
  rw [zero_add] at he
  rw [count_dropLog hp, if_pos]
  refine ⟨hi, fun hlive => ?_⟩
  rcases he.rooted_or_cyclic hlive with ⟨r, hr, -⟩ | ⟨c, hc, -⟩
  · exact hroots r hr
  · exact hacyclic c hc

/-- **Only reference cycles leak**, in every history.  Roots are the handles in slots,
and the owners held outside of handles where there are any. -/
theorem only_cycles_leak {steps : List Step} {s : Store} {replies : List StepReply}
    (hrun : ({} : Store).run? steps = some (s, replies)) :
    ((∀ source owner, .hold source owner ∉ steps) → s.roots = slotRefs s.slots)
      ∧ (∀ i, s.Undropped (dropLog replies) i →
          s.heap.Rooted s.roots i ∨ ∃ c, s.heap.OnCycle c ∧ s.heap.Reaches c i)
      ∧ (∀ i, s.heap.Rooted s.roots i →
          s.Undropped (dropLog replies) i ∧ (s.heap.get? i).isSome)
      ∧ (s.heap.Acyclic → ∀ i, s.Undropped (dropLog replies) i ↔ s.heap.Rooted s.roots i)
      ∧ (s.heap.Acyclic → ∀ more s' replies', (∀ step ∈ more, step.LetsGo) →
          s.run? more = some (s', replies') → (∀ i, some i ∉ s'.roots) →
          ∀ i < s'.heap.next, (dropLog (replies ++ replies')).count i = 1)
      ∧ (s.heap.Acyclic → ∀ i < s.heap.next,
          (dropLog replies ++ s.dismantle.flatten.map (·.id)).count i = 1) := by
  have hp := run_passes hrun
  have hw := run_wellFormed hrun
  have he := hw.exact
  rw [zero_add] at he
  have hmade : ∀ i, s.Undropped (dropLog replies) i ↔ (s.heap.get? i).isSome := undropped_iff hp
  have hlive : ∀ i, s.heap.Rooted s.roots i → (s.heap.get? i).isSome := by
    rintro i ⟨r, hr, hreach⟩
    exact he.isSome_of_reaches (he.isSome_iff.mpr (.inl (mem_owned.mpr hr))) hreach
  refine ⟨fun hsteps => ?_, fun i hi => he.rooted_or_cyclic ((hmade i).mp hi),
    fun i hi => ⟨(hmade i).mpr (hlive i hi), hlive i hi⟩, fun hacyclic i => ⟨fun hi => ?_, fun hi =>
      (hmade i).mpr (hlive i hi)⟩, ?_, ?_⟩
  · rw [roots, run_held hrun hsteps rfl]
    exact List.append_nil _
  · rcases he.rooted_or_cyclic ((hmade i).mp hi) with hrooted | ⟨c, hc, -⟩
    · exact hrooted
    · exact absurd hc (hacyclic c)
  · intro hacyclic more s' replies' hgo hmore hroots i hi
    have hall := hp.trans (run_passes hmore)
    rw [← List.flatMap_append] at hall
    exact count_eq_one hall (hacyclic.of_holds fun p i => run_holds hw hgo hmore) hroots hi
  · intro hacyclic i hi
    have hall := hp.trans (dismantle_passes s)
    obtain ⟨-, -, hm⟩ := dismantle_passes s hw
    have hcount := count_eq_one hall (hacyclic.of_holds fun p i => dismantled_holds hw)
      (by simp [roots_dismantled]) (hi.trans_le hm.next_le)
    rwa [List.map_append] at hcount

/-- A node that holds itself stays when its slot is reset, and so does what it holds;
another one goes. -/
theorem only_cycles_leak_loop :
    ∃ s replies, ({} : Store).run? [.create .concrete "loop" "a", .create .concrete "kept" "b",
        .create .concrete "free" "c", .push "a" "a", .push "a" "b", .remove "b", .reset "a",
        .remove "c"] = some (s, replies)
      ∧ s.roots = slotRefs s.slots ∧ dropLog replies = [2]
      ∧ s.Undropped (dropLog replies) 1 ∧ ¬ s.heap.Rooted s.roots 1
      ∧ ∃ c, s.heap.OnCycle c ∧ s.heap.Reaches c 1 := by
  have hrun : ({} : Store).run? [.create .concrete "loop" "a", .create .concrete "kept" "b",
        .create .concrete "free" "c", .push "a" "a", .push "a" "b", .remove "b", .reset "a",
        .remove "c"]
      = some (⟨⟨⟨[(0, ⟨.fresh "loop", [some 0, some 1], 1⟩), (1, ⟨.fresh "kept", [], 1⟩)]⟩, 3⟩,
          ⟨[("a", ⟨.concrete, none⟩)]⟩, .empty⟩,
        [.quiet .done, .quiet .done, .quiet .done, .quiet .done, .quiet .done, .quiet .done,
          .quiet (.flag false),
          { outcome := .returned .done, events := [⟨2, .fresh "free"⟩] }]) := by
    cbv
  obtain ⟨hroots, hleak, -⟩ := only_cycles_leak hrun
  have hrootless : ∀ h : Heap Node, ¬ h.Rooted [none] 1 := by
    rintro h ⟨r, hr, -⟩
    simp at hr
  exact ⟨_, _, hrun, hroots (by simp), by decide, ⟨by decide, by decide⟩, hrootless _,
    (hleak 1 ⟨by decide, by decide⟩).resolve_left (hrootless _)⟩

end Store

end ScriptBinding.Shared
