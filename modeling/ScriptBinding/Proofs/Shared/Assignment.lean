import ScriptBinding.Proofs.Shared.Leaks

/-
Assigning never lets go of what is assigned.

* `Releases.retain`: an owner added before a cascade, to an object that a handle outside points
  at, makes no difference to the cascade, and is there after it.
* `Releases.spares`: a cascade drops nothing that such an object reaches.
* `Step.store`: a clone of what a slot shares, stored in another slot as a handle of its type.
* `Alike`: stores that differ at most in the order of their slots.
* `assign_reset_clone`: in every history, assigning does nothing where both slots share one
  object, and else what a reset does and then storing a clone.
-/
namespace ScriptBinding.Shared

namespace Heap

variable {α : Type} {h h' : Heap α} {out : Multiset ObjectId} {work : List Ref}
  {drops : List (Drop α)} {i j : ObjectId} {o : Object α}

/-! ### Owners added before a cascade, or after -/

lemma erase_retain (h : Heap α) (i j : ObjectId) :
    (h.retain (some j)).erase i = (h.erase i).retain (some j) :=
  congrArg (Heap.mk · h.next) (h.objects.erase_modify j i _)

/-- One owner less of an object that has others, and one more of any object. -/
lemma recount_retain (hd : h.objects.Distinct) (hget : h.get? i = some o) (hpos : 1 ≤ o.owners)
    (j : ObjectId) : (h.retain (some j)).modify i (fun o => { o with owners := o.owners - 1 })
      = (h.modify i fun o => { o with owners := o.owners - 1 }).retain (some j) := by
  have hsame : o.owners + 1 - 1 = o.owners - 1 + 1 := by omega
  have hobjects := hd.modify_swap hget j (f := fun o => { o with owners := o.owners + 1 })
    (g := fun o => { o with owners := o.owners - 1 })
    (congrArg (Object.mk o.content o.kids) hsame)
  exact congrArg (Heap.mk · h.next) hobjects

/-- **An owner of what is kept may be added before a cascade, or after**: an object that a handle
outside points at is never the one whose last owner goes, so the rounds are the same. -/
theorem Releases.retain (hr : Releases out h work h' drops) (hj : j ∈ out) :
    (h.retain (some j)).releaseAll work = (h'.retain (some j), drops) := by
  induction hr with
  | nil => rw [releaseAll_nil]
  | skip _ ih => rw [releaseAll_none, ih]
  | @last h i work o h' drops he hget hlast _ ih =>
      have hij : i ≠ j := by
        rintro rfl
        exact (he.only hget hlast).1 (Multiset.mem_add.mpr (.inr hj))
      have hget' : (h.retain (some j)).get? i = some o := (get?_modify_of_ne hij _).trans hget
      rw [releaseAll_last work hget' hlast, erase_retain, ih]
  | @more h i work o h' drops he hget hmore _ ih =>
      have hmore' : ¬ o.owners + (if some j = some i then 1 else 0) ≤ 1 :=
        fun hle => hmore ((Nat.le_add_right _ _).trans hle)
      rw [releaseAll_more work (get?_retain hget (some j)) hmore',
        recount_retain he.distinct hget (he.pos hget), ih]

/-- A cascade drops nothing that is reached from where a handle outside points. -/
lemma Releases.spares (hr : Releases out h work h' drops) (hj : j ∈ out)
    (hreach : h.Reaches j i) : i ∉ drops.map (·.id) := by
  induction hreach with
  | refl => exact fun hmem => (hr.held j hmem).1 hj
  | @tail p i _ hholds ih =>
      intro hmem
      -- the holder of a dropped object is dropped before it
      have hlt := (hr.held i hmem).2 p hholds
      exact ih (List.idxOf_lt_length_iff.mp (hlt.trans (List.idxOf_lt_length_iff.mpr hmem)))

end Heap

/-- A clone of the handle in the slot `source` is stored in the slot `name`, as a handle of the
type of that slot: where the types differ it is upcast. -/
def Step.store (target shared : Kind) (name source : String) : Step :=
  if target = shared then .clone source name else .upcast source name .same

namespace Store

/-- Stores that differ at most in the order of their slots. -/
structure Alike (s s' : Store) : Prop where
  heap : s'.heap = s.heap
  slots : ∀ name, s'.slots.get? name = s.slots.get? name
  held : s'.held = s.held

variable {s : Store} {a b : String} {target shared : Slot}

/-! ### One step -/

/-- Slots that share different objects are different ones. -/
lemma ne_of_ref_ne (ha : s.slots.get? a = some target) (hb : s.slots.get? b = some shared)
    (hne : target.ref ≠ shared.ref) : b ≠ a := by
  rintro rfl
  rw [ha, Option.some_inj] at hb
  exact hne (congrArg Slot.ref hb)

/-- Slots that share one object are left as they are. -/
lemma step_assign_same (hw : s.WellFormed 0) (ha : s.slots.get? a = some target)
    (hb : s.slots.get? b = some shared)
    (hkinds : ¬ (target.kind = .concrete ∧ shared.kind = .erased))
    (hsame : target.ref = shared.ref) : s.step? (.assign a b) = some (s, .quiet .done) := by
  rw [step_assign ha hb hkinds]
  simp only [Heap.assign, if_pos hsame]
  rw [hw.setRef_self ha]
  rfl

/-- A clone is put into a slot of the same type, or of the other one. -/
lemma step_store (hb : s.slots.get? b = some shared) {kind : Kind}
    (hkinds : ¬ (kind = .concrete ∧ shared.kind = .erased)) :
    s.step? (.store kind shared.kind a b)
      = some (done ({ s with heap := s.heap.retain shared.ref }.put a ⟨kind, shared.ref⟩)) := by
  obtain ⟨other, r⟩ := shared
  by_cases hsame : kind = other
  · subst hsame
    rw [Step.store, if_pos rfl]
    simp only [step?, bind_eq_some]
    exact ⟨_, hb, rfl⟩
  · have herased : kind = .erased := by
      cases kind <;> cases other <;> simp_all
    rw [Step.store, if_neg hsame, herased]
    simp only [step?, bind_eq_some]
    refine ⟨_, hb, .same, rfl, ?_⟩
    cases r with
    | none => rfl
    | some i => simp [Heap.upcast, Heap.convert, Heap.retain, done]

/-- A slot without an object gives nothing up when a clone is put into it. -/
lemma step_store_empty (ha : s.slots.get? a = some target) (hnone : target.ref = none)
    (hb : s.slots.get? b = some shared) {kind : Kind}
    (hkinds : ¬ (kind = .concrete ∧ shared.kind = .erased)) :
    s.step? (.store kind shared.kind a b)
      = some ({ s with
          heap := s.heap.retain shared.ref
          slots := s.slots.insert a ⟨kind, shared.ref⟩ }, .quiet .done) := by
  rw [step_store hb hkinds, put, ha]
  show some (done (Store.release _ target.ref)) = _
  rw [hnone, Store.release, Heap.release, Heap.releaseAll_none, Heap.releaseAll_nil]
  rfl

/-- A slot that is reset, and then given a clone. -/
lemma run_reset_store (ha : s.slots.get? a = some target) (hb : s.slots.get? b = some shared)
    (hne : target.ref ≠ shared.ref)
    (hkinds : ¬ (target.kind = .concrete ∧ shared.kind = .erased)) :
    s.run? [.reset a, .store target.kind shared.kind a b]
      = some ({ s with
          heap := (s.heap.release target.ref).1.retain shared.ref
          slots := (s.setRef a none).slots.insert a ⟨target.kind, shared.ref⟩ },
        [{ outcome := .returned (.flag (s.heap.reset target.ref).2.1)
           events := (s.heap.release target.ref).2 }, .quiet .done]) := by
  have hkept : ((s.setRef a none).release target.ref).1.slots.get? b = some shared := by
    show (s.setRef a none).slots.get? b = some shared
    rw [get?_setRef_of_ne (ne_of_ref_ne ha hb hne), hb]
  have hempty : ((s.setRef a none).release target.ref).1.slots.get? a
      = some { target with ref := none } := get?_setRef_self ha none
  have hstored := step_store_empty hempty rfl hkept hkinds
  simp only [run?, step_reset ha, hstored, Option.bind_eq_bind, Option.bind_some]
  rfl

section Different

variable (hw : s.WellFormed 0) (ha : s.slots.get? a = some target)
  (hb : s.slots.get? b = some shared) (hne : target.ref ≠ shared.ref)

include hw ha hb hne

/-- The release of a slot's handle leaves the handles of other slots outside. -/
lemma releases_kept : ∃ out, (∀ j, shared.ref = some j → j ∈ out)
    ∧ Heap.Releases out s.heap [target.ref] (s.heap.release target.ref).1
      (s.heap.release target.ref).2 := by
  have hkept : (s.setRef a none).slots.get? b = some shared := by
    rw [get?_setRef_of_ne (ne_of_ref_ne ha hb hne), hb]
  refine ⟨_, fun j hj => mem_owned.mpr (List.mem_append_left _ ?_),
    (frees_reset hw ha).exact.releases⟩
  exact hj ▸ mem_slotRefs (hw.slots.modify _ _) hkept

/-- The object to be shared may be retained before the old one is released, or after. -/
lemma release_kept : (s.heap.retain shared.ref).release target.ref
    = ((s.heap.release target.ref).1.retain shared.ref, (s.heap.release target.ref).2) := by
  obtain ⟨out, hout, hr⟩ := releases_kept hw ha hb hne
  cases hj : shared.ref with
  | none => rfl
  | some j => exact hr.retain (hout j hj)

/-- Assigning another object. -/
lemma step_assign_other (hkinds : ¬ (target.kind = .concrete ∧ shared.kind = .erased)) :
    s.step? (.assign a b) = some (done ({ s with
        heap := (s.heap.release target.ref).1.retain shared.ref }.setRef a shared.ref,
      (s.heap.release target.ref).2)) := by
  rw [step_assign ha hb hkinds]
  simp only [Heap.assign, if_neg hne]
  rw [release_kept hw ha hb hne]

/-- What the object to be shared reaches is left as it is, but for the counts. -/
lemma survives_kept {i j : ObjectId} (hj : shared.ref = some j) (hreach : s.heap.Reaches j i) :
    i ∉ (s.heap.release target.ref).2.map (·.id)
      ∧ ∃ o o', s.heap.get? i = some o
        ∧ ((s.heap.release target.ref).1.retain shared.ref).get? i = some o'
        ∧ o'.content = o.content ∧ o'.kids = o.kids := by
  obtain ⟨out, hout, hr⟩ := releases_kept hw ha hb hne
  have hspared := hr.spares (hout j hj) hreach
  obtain ⟨p, hp⟩ := hw.get?_of_slot hb hj
  have hlive := hw.exact.isSome_of_reaches (Option.isSome_iff_exists.mpr ⟨p, hp⟩) hreach
  obtain ⟨o, ho⟩ := Option.isSome_iff_exists.mp hlive
  obtain ⟨o₁, ho₁, hcontent₁, hkids₁⟩ := hr.survives ho hspared
  obtain ⟨o₂, ho₂, hcontent₂, hkids₂⟩ := ((Heap.Grown.refl _).retain shared.ref).old ho₁
  exact ⟨hspared, o, o₂, ho, ho₂, hcontent₂.trans hcontent₁, hkids₂.trans hkids₁⟩

end Different

/-- **Assigning never lets go of what is assigned**, in every history.  Where both slots share
one object, or none, nothing is done; else the heap, the slots and the drops are what a reset and
then storing a clone make of them, whatever the old object holds, and what the new one reaches is
left as it is, but for the counts. -/
theorem assign_reset_clone {steps : List Step} {replies : List StepReply}
    (hrun : ({} : Store).run? steps = some (s, replies))
    (ha : s.slots.get? a = some target) (hb : s.slots.get? b = some shared)
    (hkinds : ¬ (target.kind = .concrete ∧ shared.kind = .erased)) :
    (target.ref = shared.ref → s.step? (.assign a b) = some (s, .quiet .done))
    ∧ (target.ref ≠ shared.ref → ∃ s₁ s₂ reply first second,
        s.step? (.assign a b) = some (s₁, reply)
        ∧ s.run? [.reset a, .store target.kind shared.kind a b] = some (s₂, [first, second])
        ∧ Alike s₁ s₂ ∧ s₁.slots.get? a = some ⟨target.kind, shared.ref⟩
        ∧ reply.outcome = .returned .done ∧ second.outcome = .returned .done
        ∧ reply.events = first.events ++ second.events
        ∧ ∀ j, shared.ref = some j → ∀ i, s.heap.Reaches j i →
          i ∉ reply.events.map (·.id) ∧ ∃ o o', s.heap.get? i = some o
            ∧ s₁.heap.get? i = some o' ∧ o'.content = o.content ∧ o'.kids = o.kids) := by
  have hw := run_wellFormed hrun
  refine ⟨step_assign_same hw ha hb hkinds, fun hne => ?_⟩
  have hfilled : (s.setRef a shared.ref).slots.get? a = some ⟨target.kind, shared.ref⟩ :=
    get?_setRef_self ha shared.ref
  refine ⟨_, _, _, _, _, step_assign_other hw ha hb hne hkinds,
    run_reset_store ha hb hne hkinds, ⟨rfl, fun name => ?_, rfl⟩, hfilled, rfl, rfl,
    (List.append_nil _).symm, fun j hj i hreach => survives_kept hw ha hb hne hj hreach⟩
  show ((s.setRef a none).slots.insert a _).get? name = (s.setRef a shared.ref).slots.get? name
  rw [Table.get?_insert]
  by_cases hname : name = a
  · rw [if_pos hname, hname, hfilled]
  · rw [if_neg hname, get?_setRef_of_ne hname, get?_setRef_of_ne hname]

/-- A slot shares an object that holds another one, by way of a third, and so does a slot. -/
def nestedSteps : List Step :=
  [.create .erased "top" "a", .create .concrete "middle" "m", .create .concrete "deep" "b",
    .push "m" "b", .push "a" "m", .remove "m"]

/-- What these steps leave. -/
def nested : Store :=
  ⟨⟨⟨[(0, ⟨.fresh "top", [some 1], 1⟩), (1, ⟨.fresh "middle", [some 2], 1⟩),
      (2, ⟨.fresh "deep", [], 2⟩)]⟩, 3⟩,
    ⟨[("a", ⟨.erased, some 0⟩), ("b", ⟨.concrete, some 2⟩)]⟩, .empty⟩

/-- The outer objects go when the slot is to share the inner one, which stays; and a slot assigned
to itself is left alone. -/
theorem assign_reset_clone_nested :
    ({} : Store).run? nestedSteps = some (nested, List.replicate 6 (.quiet .done))
      ∧ nested.step? (.assign "a" "a") = some (nested, .quiet .done)
      ∧ ∃ s₁ s₂ reply first second, nested.step? (.assign "a" "b") = some (s₁, reply)
        ∧ nested.run? [.reset "a", .upcast "b" "a" .same] = some (s₂, [first, second])
        ∧ Alike s₁ s₂ ∧ s₁.view = [("a", some ("deep", 2)), ("b", some ("deep", 2))]
        ∧ reply.events = first.events ++ second.events
        ∧ reply.events = [⟨0, .fresh "top"⟩, ⟨1, .fresh "middle"⟩] := by
  have hrun : ({} : Store).run? nestedSteps
      = some (nested, List.replicate 6 (.quiet .done)) := by cbv
  have ha : nested.slots.get? "a" = some ⟨.erased, some 0⟩ := rfl
  have hb : nested.slots.get? "b" = some ⟨.concrete, some 2⟩ := rfl
  have hassigned : nested.step? (.assign "a" "b")
      = some (⟨⟨⟨[(2, ⟨.fresh "deep", [], 2⟩)]⟩, 3⟩,
          ⟨[("a", ⟨.erased, some 2⟩), ("b", ⟨.concrete, some 2⟩)]⟩, .empty⟩,
        { outcome := .returned .done, events := [⟨0, .fresh "top"⟩, ⟨1, .fresh "middle"⟩] }) := by
    cbv
  have hself := (assign_reset_clone hrun ha ha (by decide)).1 rfl
  obtain ⟨s₁, s₂, reply, first, second, hstep, hsteps, halike, -, -, -, hevents, -⟩ :=
    (assign_reset_clone hrun ha hb (by decide)).2 (by decide)
  obtain ⟨rfl, rfl⟩ := Prod.mk.inj (Option.some_inj.mp (hstep.symm.trans hassigned))
  exact ⟨hrun, hself, _, s₂, _, first, second, hstep, hsteps, halike, rfl, hevents, rfl⟩

end Store

end ScriptBinding.Shared
