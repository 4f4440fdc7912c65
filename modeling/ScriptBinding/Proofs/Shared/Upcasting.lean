import ScriptBinding.Proofs.Shared.Foreign

/-
Upcasting shares an object, or changes nothing.

* `Heap.Code`: a conversion, as any code that is handed an owner and gives one back; `Code.Fair`:
  it keeps nothing, and leaves alone what is there.
* `Heap.upcastBy`, `Store.upcastTo`: an upcast by such code; `step_upcast`: the one of a store's
  histories is of this kind, and `fair_convert`: its conversions are fair.
* `Store.GoesLast`: from now on an object is dropped once, when its last owner goes;
  `run_resets`: slots are reset in any order.
* `upcast_shares_or_restores`: in every history, for every handle and every fair conversion.
-/
namespace ScriptBinding.Shared

namespace Heap

variable {α : Type}

/-- Code that is handed an owner of an object: the heap after it, the object whose owner it gives
back, and what was dropped meanwhile. -/
abbrev Code (α : Type) :=
  Heap α → ObjectId → Heap α × ObjectId × List (Drop α)

/-- Code that works with one more owner of an object, and ends with the owner that it gives back
and with nothing else in hand; `out` are the handles of others. -/
def Code.Fair (code : Code α) (h : Heap α) (i : ObjectId) (out : Multiset ObjectId) : Prop :=
  Works out (h.retain (some i)) {i} (code (h.retain (some i)) i).1
    {(code (h.retain (some i)) i).2.1} (code (h.retain (some i)) i).2.2

/-- An upcast whose conversion is any code.  It is not run on an empty handle; an owner of another
object that it gives back is released. -/
def upcastBy (h : Heap α) (code : Code α) : Ref → Heap α × Option Ref × List (Drop α)
  | none => (h, some none, [])
  | some i =>
    let (h, j, drops) := code (h.retain (some i)) i
    if j = i then (h, some (some i), drops)
    else
      let (h, more) := h.release (some j)
      (h, none, drops ++ more)

variable {h : Heap α} {out : Multiset ObjectId} {i : ObjectId} {o : Object α} {code : Code α}

lemma upcast_eq (h : Heap α) (r : Ref) (c : Conversion α) :
    h.upcast r c = h.upcastBy (fun h i => h.convert i c) r := by
  cases r <;> rfl

/-- What a conversion does with the owner that it is handed is fair. -/
lemma fair_convert (h : Heap α) (i : ObjectId) (out : Multiset ObjectId) {c : Conversion α}
    (hother : ∀ j, c = .other j → (h.get? j).isSome) :
    Code.Fair (fun h i => h.convert i c) h i out := by
  have hrelease : ∀ (g : Heap α) hand, Works out g (i ::ₘ hand) (g.release (some i)).1 hand
      (g.release (some i)).2 := by
    intro g hand
    have hworks : Works out g (owned [some i] + hand) (g.release (some i)).1 hand
        (g.release (some i)).2 := .release g [some i] hand
    rwa [owned_cons_some, owned_nil, Multiset.cons_add, zero_add] at hworks
  cases c with
  | same => exact .refl _ _
  | fresh content =>
      have hmade := (hrelease (h.retain (some i)) 0).trans (.alloc _ content [] 0)
      rw [List.append_nil] at hmade
      exact hmade
  | other j =>
      obtain ⟨q, hq⟩ := Option.isSome_iff_exists.mp (hother j rfl)
      have htaken : Works out (h.retain (some i)) {i} ((h.retain (some i)).retain (some j))
          (j ::ₘ {i}) [] := .retain {i} (get?_retain hq (some i))
      rw [← Multiset.cons_zero i, Multiset.cons_swap] at htaken
      exact htaken.trans (hrelease _ {j})

/-- An owner added changes no shape. -/
lemma shape_retain (h : Heap α) (i k : ObjectId) :
    ((h.retain (some i)).get? k).map Object.shape = (h.get? k).map Object.shape := by
  rw [Heap.retain, get?_modify]
  split
  · rw [Option.map_map]
    rfl
  · rfl

/-- **The object comes back**: it has one owner more, and nothing else is different. -/
theorem upcastBy_same (he : h.Exact out) (hget : h.get? i = some o) (hfair : code.Fair h i out)
    (hsame : (code (h.retain (some i)) i).2.1 = i) :
    ∃ h' drops, h.upcastBy code (some i) = (h', some (some i), drops)
      ∧ h'.Exact (i ::ₘ out) ∧ (∀ k, h'.get? k = (h.retain (some i)).get? k)
      ∧ h.DropsMade h' drops := by
  have hgiven : (h.retain (some i)).Exact ({i} + out) := by
    rw [Multiset.singleton_add]
    exact he.retain hget
  have hexact := hfair.exact hgiven
  have hback : (h.retain (some i)).Exact ({(code (h.retain (some i)) i).2.1} + out) := by
    rw [hsame]
    exact hgiven
  have hold : ∀ k ∈ ({(code (h.retain (some i)) i).2.1} : Multiset ObjectId),
      (h.get? k).isSome := by
    intro k hk
    rw [Multiset.mem_singleton.mp hk, hsame, hget]
    rfl
  have hsettled := hfair.settles he hget hold hback (shape_retain h i)
  rw [hsame, Multiset.singleton_add] at hexact
  refine ⟨_, _, ?_, hexact, hsettled⟩
  rw [upcastBy]
  exact if_pos hsame

/-- **Another object comes back**: its owner goes, and everything is as it was. -/
theorem upcastBy_other (he : h.Exact out) (hget : h.get? i = some o) (hfair : code.Fair h i out)
    (hother : (code (h.retain (some i)) i).2.1 ≠ i) :
    ∃ h' drops, h.upcastBy code (some i) = (h', none, drops)
      ∧ (∀ k, h'.get? k = h.get? k) ∧ h.DropsMade h' drops := by
  have hgone := hfair.trans (.release (code (h.retain (some i)) i).1
    [some (code (h.retain (some i)) i).2.1] 0)
  have hbefore : h.Exact (0 + out) := by rwa [zero_add]
  have hsettled := hgone.settles he hget (fun k hk => absurd hk (Multiset.notMem_zero k)) hbefore
    fun _ => rfl
  refine ⟨_, _, ?_, hsettled⟩
  rw [upcastBy]
  exact if_neg hother

end Heap

namespace Store

/-- A handle upcast by any code, and stored in a slot where the object comes back. -/
def upcastTo (s : Store) (code : Heap.Code Node) (slot : Slot) (dest : String) :
    Store × StepReply :=
  let (heap, result, drops) := s.heap.upcastBy code slot.ref
  match result with
  | none =>
    ({ s with heap := heap },
      { outcome := .aborted (differentText slot.kind.typeName), events := drops })
  | some r =>
    let (s, more) := { s with heap := heap }.put dest ⟨.erased, r⟩
    done (s, drops ++ more)

/-- From now on an object is dropped once, when its last owner goes. -/
structure GoesLast (s : Store) (i : ObjectId) : Prop where
  /-- In whatever is done, it is dropped once if no owner is left, and else not at all. -/
  once : ∀ more s₁ replies, s.run? more = some (s₁, replies) →
    (dropLog replies).count i = if some i ∈ s₁.owners then 0 else 1
  /-- It is dropped in the operation that gives up its last owner, concrete or erased. -/
  last : ∀ more s₁ replies step s₂ reply, s.run? more = some (s₁, replies) →
    s₁.step? step = some (s₂, reply) →
    (i ∈ reply.events.map (·.id) ↔ some i ∈ s₁.owners ∧ some i ∉ s₂.owners)
  /-- Where only slots own it, they may be reset in any order, and some more than once. -/
  resets : ∀ names : List String, (∀ name ∈ names, (s.slots.get? name).isSome) →
    (∀ name slot, s.slots.get? name = some slot → slot.ref = some i → name ∈ names) →
    some i ∉ s.heap.kidRefs → some i ∉ heldRefs s.held →
    ∃ s₁ replies, s.run? (names.map .reset) = some (s₁, replies) ∧ (dropLog replies).count i = 1

variable {s s' : Store} {i : ObjectId} {slot : Slot} {dest : String}

/-! ### Slots that are reset -/

/-- Slots are reset in any order; the others keep their handles, and held owners stay. -/
lemma run_resets (names : List String) (hnames : ∀ name ∈ names, (s.slots.get? name).isSome) :
    ∃ s₁ replies, s.run? (names.map .reset) = some (s₁, replies) ∧ s₁.held = s.held
      ∧ ∀ name, s₁.slots.get? name = (s.slots.get? name).map fun slot =>
          if name ∈ names then { slot with ref := none } else slot := by
  induction names generalizing s with
  | nil => exact ⟨s, [], rfl, rfl, fun name => by simp⟩
  | cons first names ih =>
      obtain ⟨hfirst, hnames⟩ := List.forall_mem_cons.mp hnames
      obtain ⟨slot, hslot⟩ := Option.isSome_iff_exists.mp hfirst
      have hview : ∀ name, ((s.setRef first none).release slot.ref).1.slots.get? name
          = (s.slots.get? name).map fun slot =>
              if name = first then { slot with ref := none } else slot := by
        intro name
        show (s.setRef first none).slots.get? name = _
        by_cases hname : name = first
        · subst hname
          rw [get?_setRef_self hslot, hslot]
          simp
        · rw [get?_setRef_of_ne hname]
          simp [hname]
      have hrest : ∀ name ∈ names,
          (((s.setRef first none).release slot.ref).1.slots.get? name).isSome := by
        intro name hname
        rw [hview, Option.isSome_map]
        exact hnames name hname
      obtain ⟨s₁, replies, hrun, hheld, hslots⟩ := ih hrest
      refine ⟨s₁, _, run?_of_step (step_reset hslot) hrun, hheld, fun name => ?_⟩
      rw [hslots, hview, Option.map_map]
      refine congrArg (Option.map · _) (funext fun slot => ?_)
      by_cases hname : name = first <;> by_cases hmem : name ∈ names <;> simp [hname, hmem]

/-- A slot's handle is one of those in slots. -/
lemma mem_slotRefs_iff (hw : s.WellFormed 0) : some i ∈ slotRefs s.slots
    ↔ ∃ name slot, s.slots.get? name = some slot ∧ slot.ref = some i := by
  rw [slotRefs, List.mem_map]
  constructor
  · rintro ⟨⟨name, slot⟩, hmem, hi⟩
    exact ⟨name, slot, hw.slots.get?_eq_some_iff.mpr hmem, hi⟩
  · rintro ⟨name, slot, hget, hi⟩
    exact ⟨(name, slot), hw.slots.get?_eq_some_iff.mp hget, hi⟩

lemma mem_owners_iff : some i ∈ s.owners
    ↔ some i ∈ slotRefs s.slots ∨ some i ∈ s.heap.kidRefs ∨ some i ∈ heldRefs s.held := by
  rw [owners, handles, List.mem_append, List.mem_append, or_assoc]

/-- An object that is live now is dropped once, when its last owner goes. -/
theorem WellFormed.goesLast (hw : s.WellFormed 0) (hi : some i ∈ s.owners) : s.GoesLast i := by
  have hlive := hw.isSome_iff.mpr hi
  obtain ⟨o, ho⟩ := Option.isSome_iff_exists.mp hlive
  have honce : ∀ more s₁ replies, s.run? more = some (s₁, replies) →
      (dropLog replies).count i = if some i ∈ s₁.owners then 0 else 1 := by
    intro more s₁ replies hrun
    have hw₁ := (run_passes hrun).wellFormed hw
    obtain ⟨-, -, hm⟩ := run_passes hrun hw
    have hcount := hm.count_dropped hw.exact i
    rw [Heap.dropped, Multiset.coe_count] at hcount
    rw [dropLog, hcount]
    by_cases howned : some i ∈ s₁.owners
    · rw [if_pos howned, if_neg fun hgone => hgone.2 (hw₁.isSome_iff.mpr howned)]
    · rw [if_neg howned, if_pos ⟨.inl hlive, fun hi₁ => howned (hw₁.isSome_iff.mp hi₁)⟩]
  refine ⟨honce, ?_, ?_⟩
  · intro more s₁ replies step s₂ reply hrun hstep
    have hw₁ := (run_passes hrun).wellFormed hw
    obtain ⟨-, -, hm⟩ := run_passes hrun hw
    have hlt : i < s₁.heap.next := (hw.exact.lt_next ho).trans_le hm.next_le
    rw [hw₁.mem_drops_iff hstep]
    exact and_congr_left fun _ => or_iff_left fun hmade => absurd hmade.1 (not_le_of_gt hlt)
  · intro names hnames hall hkids hheldRefs
    obtain ⟨s₁, replies, hrun, hheld, hslots⟩ := run_resets names hnames
    have hw₁ := (run_passes hrun).wellFormed hw
    refine ⟨s₁, replies, hrun, ?_⟩
    rw [honce _ _ _ hrun, if_neg]
    rw [mem_owners_iff, hheld]
    rintro (hslot | hkid | hmem)
    · obtain ⟨name, slot₁, hget₁, hi₁⟩ := (mem_slotRefs_iff hw₁).mp hslot
      rw [hslots] at hget₁
      obtain ⟨slot, hget, rfl⟩ := Option.map_eq_some_iff.mp hget₁
      split at hi₁
      · cases hi₁
      · exact absurd (hall name slot hget hi₁) ‹_›
    · -- resetting adds nothing to a kid list
      obtain ⟨p, hp⟩ := (Heap.mem_kidRefs hw₁.exact.distinct).mp hkid
      have hgo : ∀ step ∈ names.map Step.reset, step.LetsGo := by
        intro step hstep
        obtain ⟨name, -, rfl⟩ := List.mem_map.mp hstep
        trivial
      exact hkids ((Heap.mem_kidRefs hw.exact.distinct).mpr ⟨p, run_holds hw hgo hrun hp⟩)
    · exact hheldRefs hmem

/-! ### Upcasts -/

/-- The upcast of a history is one by the code of its conversion, which is fair. -/
lemma step_upcast (hw : s.WellFormed 0) {source : String} {via : Via} {c : Heap.Conversion Node}
    (hslot : s.slots.get? source = some slot) (hc : s.conversion? slot.ref via = some c) :
    s.step? (.upcast source dest via) = some (s.upcastTo (fun h i => h.convert i c) slot dest)
      ∧ ∀ i, slot.ref = some i →
        Heap.Code.Fair (fun h i => h.convert i c) s.heap i (owned s.roots) := by
  constructor
  · simp only [step?, bind_eq_some]
    refine ⟨slot, hslot, c, hc, ?_⟩
    rw [upcastTo, ← Heap.upcast_eq]
    generalize s.heap.upcast slot.ref c = upcast
    obtain ⟨heap, result, drops⟩ := upcast
    cases result <;> rfl
  · intro i _
    refine Heap.fair_convert s.heap i _ fun j hj => ?_
    obtain ⟨name, hname⟩ := conversion?_other (hj ▸ hc)
    exact Option.isSome_iff_exists.mpr (hw.get?_of_slot hname rfl)

/-- A handle in a slot or in a kid list points at a live object. -/
lemma WellFormed.get?_of_handle (hw : s.WellFormed 0) (hslot : slot.ref ∈ s.handles)
    (hi : slot.ref = some i) : ∃ o, s.heap.get? i = some o :=
  hw.balanced.live i (hi ▸ hslot)

/-- The handle to an object that came back is stored. -/
lemma upcastTo_done {code : Heap.Code Node} {h' : Heap Node} {drops : List (Drop Node)}
    (hw : s.WellFormed 0) (hi : slot.ref = some i) (hexact : h'.Exact (i ::ₘ owned s.roots))
    (hupcast : s.heap.upcastBy code (some i) = (h', some (some i), drops)) (dest : String) :
    ∃ s' drops', s.upcastTo code slot dest = done (s', drops') ∧ s'.WellFormed 0
      ∧ s'.slots = s.slots.insert dest ⟨.erased, some i⟩ := by
  have hmade : WellFormed { s with heap := h' } (owned [some i] + 0) := by
    refine ⟨hw.slots, hw.held, ?_⟩
    rw [add_zero, owned_cons_some, owned_nil, Multiset.cons_add, zero_add]
    exact hexact
  have hstored : s.upcastTo code slot dest
      = done (({ s with heap := h' }.put dest ⟨.erased, some i⟩).1,
        drops ++ ({ s with heap := h' }.put dest ⟨.erased, some i⟩).2) := by
    rw [upcastTo, hi, hupcast]
  exact ⟨_, _, hstored, (Passes.put _ dest ⟨.erased, some i⟩ 0).wellFormed hmade, rfl⟩

/-- **Upcasting shares the object, or changes nothing**, in every history, for every handle and
every fair conversion.  An empty handle is not converted.  Where the object comes back, it has one
owner more, its old and its new handle are equal, and it is dropped once, when the last of either
type goes.  Where another one comes back, the upcast aborts, and everything is as it was; what the
conversion made is dropped once. -/
theorem upcast_shares_or_restores {steps : List Step} {replies : List StepReply}
    (hrun : ({} : Store).run? steps = some (s, replies)) (hslot : slot.ref ∈ s.handles)
    {code : Heap.Code Node}
    (hfair : ∀ i, slot.ref = some i → code.Fair s.heap i (owned s.roots)) (dest : String) :
    (slot.ref = none → s.upcastTo code slot dest = done (s.put dest ⟨.erased, none⟩))
    ∧ (∀ i, slot.ref = some i → (code (s.heap.retain slot.ref) i).2.1 = i →
        ∃ h' drops s' reply, s.heap.upcastBy code slot.ref = (h', some slot.ref, drops)
          ∧ (∀ k, h'.get? k = (s.heap.get? k).map fun o =>
              if k = i then { o with owners := o.owners + 1 } else o)
          ∧ s.heap.DropsMade h' drops
          ∧ s.upcastTo code slot dest = (s', reply) ∧ reply.outcome = .returned .done
          ∧ s'.slots.get? dest = some ⟨.erased, slot.ref⟩
          ∧ (∀ name, name ≠ dest → s.slots.get? name = some slot →
              s'.step? (.compare name dest) = some (s', .quiet (.equal true))
              ∧ s'.step? (.compare dest name) = some (s', .quiet (.equal true)))
          ∧ s'.GoesLast i)
    ∧ (∀ i, slot.ref = some i → (code (s.heap.retain slot.ref) i).2.1 ≠ i →
        ∃ h' drops, s.upcastTo code slot dest = ({ s with heap := h' },
            { outcome := .aborted (differentText slot.kind.typeName), events := drops })
          ∧ (∀ k, h'.get? k = s.heap.get? k) ∧ s.heap.DropsMade h' drops)
    ∧ ∀ source via c, s.slots.get? source = some slot → s.conversion? slot.ref via = some c →
        s.step? (.upcast source dest via) = some (s.upcastTo (fun h i => h.convert i c) slot dest)
        ∧ ∀ i, slot.ref = some i →
          Heap.Code.Fair (fun h i => h.convert i c) s.heap i (owned s.roots) := by
  have hw := run_wellFormed hrun
  have he := hw.exact
  rw [zero_add] at he
  refine ⟨fun hnone => ?_, fun i hi hsame => ?_, fun i hi hother => ?_,
    fun source via c hsource hc => step_upcast hw hsource hc⟩
  · rw [upcastTo, hnone]
    rfl
  · obtain ⟨o, ho⟩ := hw.get?_of_handle hslot hi
    rw [hi] at hsame ⊢
    obtain ⟨h', drops, hupcast, hexact, hsettled, hmade⟩ :=
      Heap.upcastBy_same he ho (hfair i hi) hsame
    obtain ⟨s', drops', hstored, hw', hslots⟩ := upcastTo_done hw hi hexact hupcast dest
    have hdest : s'.slots.get? dest = some ⟨.erased, some i⟩ := by
      rw [hslots, Table.get?_insert, if_pos rfl]
    have howned : some i ∈ s'.owners :=
      mem_owners_iff.mpr (.inl ((mem_slotRefs_iff hw').mpr ⟨dest, _, hdest, rfl⟩))
    refine ⟨h', drops, s', _, hupcast, fun k => ?_, hmade, hstored, rfl, hdest,
      fun name hname hsource => ?_, hw'.goesLast howned⟩
    · rw [hsettled, Heap.retain, Heap.get?_modify]
      by_cases hk : k = i <;> simp [hk]
    · have hkept : s'.slots.get? name = some slot := by
        rw [hslots, Table.get?_insert, if_neg hname, hsource]
      rw [hw'.balanced.compare _ _ _ _ hkept hdest, hw'.balanced.compare _ _ _ _ hdest hkept, hi]
      simp
  · obtain ⟨o, ho⟩ := hw.get?_of_handle hslot hi
    rw [hi] at hother
    obtain ⟨h', drops, hupcast, hsettled⟩ := Heap.upcastBy_other he ho (hfair i hi) hother
    refine ⟨h', drops, ?_, hsettled⟩
    rw [upcastTo, hi, hupcast]

/-- Lets the owner go that it is handed, and makes a node that holds the first one of a heap. -/
def swapping : Heap.Code Node := fun h i =>
  let (h, drops) := h.release (some i)
  let (h, j) := (h.retain (some 0)).alloc (.fresh "new") [some 0]
  (h, j, drops)

/-- A node and its only kid, to which no slot has a handle. -/
def parent : Store :=
  ⟨⟨⟨[(0, ⟨.fresh "root", [some 1], 1⟩), (1, ⟨.fresh "leaf", [], 1⟩)]⟩, 2⟩,
    ⟨[("a", ⟨.concrete, some 0⟩)]⟩, .empty⟩

/-- The kid's handle is upcast to a new node that holds the root: the new node goes, and nothing
else is different.  The root's handle is upcast as it should be. -/
theorem upcast_shares_or_restores_swapping :
    ({} : Store).run? [.create .concrete "root" "a", .create .concrete "leaf" "b", .push "a" "b",
        .remove "b"] = some (parent, List.replicate 4 (.quiet .done))
      ∧ (∃ h', parent.upcastTo swapping ⟨.concrete, some 1⟩ "c" = ({ parent with heap := h' },
          { outcome := .aborted
              "upcast of Shared<driver::shared::Node> returned a different object"
            events := [⟨2, .fresh "new"⟩] })
        ∧ ∀ k, h'.get? k = parent.heap.get? k)
      ∧ ∃ s' reply, parent.step? (.upcast "a" "c" .same) = some (s', reply)
        ∧ s'.view = [("a", some ("root", 2)), ("c", some ("root", 2))]
        ∧ s'.step? (.compare "a" "c") = some (s', .quiet (.equal true)) ∧ s'.GoesLast 0 := by
  have hrun : ({} : Store).run? [.create .concrete "root" "a", .create .concrete "leaf" "b",
      .push "a" "b", .remove "b"] = some (parent, List.replicate 4 (.quiet .done)) := by
    cbv
  have hfair : swapping.Fair parent.heap 1 (owned parent.roots) := by
    have hroot : ((parent.heap.retain (some 1)).release (some 1)).1.get? 0
        = some ⟨.fresh "root", [some 1], 1⟩ := by
      cbv
    have hreleased : Heap.Works (owned parent.roots) (parent.heap.retain (some 1))
        (owned [some 1] + 0) _ _ _ := .release _ [some 1] 0
    have hmade := (hreleased.trans (.retain 0 hroot)).trans (.alloc _ (.fresh "new") [some 0] 0)
    rw [List.append_nil, List.append_nil] at hmade
    exact hmade
  have hswapped : parent.heap.upcastBy swapping (some 1)
      = (⟨parent.heap.objects, 3⟩, none, [⟨2, .fresh "new"⟩]) := by
    cbv
  have haborted : parent.upcastTo swapping ⟨.concrete, some 1⟩ "c"
      = ({ parent with heap := ⟨parent.heap.objects, 3⟩ },
        { outcome := .aborted (differentText Kind.concrete.typeName)
          events := [⟨2, .fresh "new"⟩] }) := by
    rw [upcastTo, hswapped]
  have htext : differentText Kind.concrete.typeName
      = "upcast of Shared<driver::shared::Node> returned a different object" := by
    decide
  rw [htext] at haborted
  have hkid : (⟨.concrete, some 1⟩ : Slot).ref ∈ parent.handles := by decide
  obtain ⟨-, -, hother, -⟩ := upcast_shares_or_restores hrun hkid
    (fun i hi => Option.some_inj.mp hi ▸ hfair) "c"
  obtain ⟨h', drops, hupcast, hsame, -⟩ := hother 1 rfl (by cbv)
  have hreply := (Prod.mk.inj (hupcast.symm.trans haborted)).2
  have hrestored := hupcast.trans (congrArg (Prod.mk { parent with heap := h' }) hreply)
  refine ⟨hrun, ⟨h', hrestored, hsame⟩, ?_⟩
  have hroot : parent.slots.get? "a" = some ⟨.concrete, some 0⟩ := rfl
  have hhandle : (⟨.concrete, some 0⟩ : Slot).ref ∈ parent.handles := by decide
  have hgiven : ∀ i, (⟨.concrete, some 0⟩ : Slot).ref = some i →
      Heap.Code.Fair (fun h i => h.convert i .same) parent.heap i (owned parent.roots) := by
    intro i _
    refine Heap.fair_convert parent.heap i _ fun j hj => ?_
    cases hj
  obtain ⟨-, hshared, -, hsteps⟩ := upcast_shares_or_restores hrun hhandle hgiven "c"
  obtain ⟨_, _, s', reply, -, -, -, hstored, -, -, hequal, hlast⟩ := hshared 0 rfl rfl
  obtain ⟨hstep, -⟩ := hsteps "a" .same .same hroot rfl
  have hview : (parent.upcastTo (fun h i => h.convert i .same) ⟨.concrete, some 0⟩ "c").1.view
      = [("a", some ("root", 2)), ("c", some ("root", 2))] := by
    cbv
  rw [hstored] at hstep hview
  exact ⟨s', reply, hstep, hview, (hequal "a" (by decide) hroot).1, hlast⟩

end Store

end ScriptBinding.Shared
