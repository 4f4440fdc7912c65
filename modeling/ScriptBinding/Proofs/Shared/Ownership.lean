import ScriptBinding.Proofs.Shared.Passes

/-
Shared ownership is exact for every operation on named handles.

* `Moves.giveUp`, `Moves.chain`, `Moves.convert`, `Moves.upcast`: operations on the heap that
  are several moves.
* `Passes.assign`, `Passes.chain`, `Passes.upcast`, `Passes.init`, `Passes.push`,
  `Passes.pop`: the same for operations on a store.
* `step_passes`: every operation is a sequence of moves.
-/
namespace ScriptBinding.Shared

/-! ### Operations made of several moves -/

namespace Heap

variable {α : Type} {h : Heap α} {out : Multiset ObjectId}

/-- One owner given up. -/
lemma Moves.giveUp {i : ObjectId} (he : h.Exact (i ::ₘ out)) :
    Moves h (i ::ₘ out) (h.release (some i)).1 out (h.release (some i)).2 := by
  have hone : owned [some i] + out = i ::ₘ out := by simp
  rw [← hone] at he ⊢
  exact .release he.releases

/-- A chain hands out the handle to its first object. -/
lemma Moves.chain (content : Nat → α) (h : Heap α) (out : Multiset ObjectId) (count : Nat) :
    ∀ first, Moves h out (h.chain content first count).1
      (owned [(h.chain content first count).2] + out) [] := by
  induction count with
  | zero =>
      intro first
      rw [Heap.chain, owned_cons_none, owned_nil, zero_add]
      exact .refl _ _
  | succ count ih =>
      intro first
      have hrest := ih (first + 1)
      have hkids : owned ((h.chain content (first + 1) count).2.toList.map some)
          = owned [(h.chain content (first + 1) count).2] := by
        cases (h.chain content (first + 1) count).2 <;> rfl
      rw [← hkids] at hrest
      simp only [Heap.chain, owned_cons_some, owned_nil, Multiset.cons_add, zero_add]
      exact hrest.trans (.alloc _ _ _ _)

/-- A conversion turns the owner that it is handed into the one that it gives
back. -/
lemma Moves.convert {i : ObjectId} (he : h.Exact (i ::ₘ out)) {c : Conversion α}
    (hother : ∀ j, c = .other j → ∃ o, h.get? j = some o) :
    Moves h (i ::ₘ out) (h.convert i c).1 ((h.convert i c).2.1 ::ₘ out) (h.convert i c).2.2 := by
  cases c with
  | same => exact .refl _ _
  | fresh content =>
      have halloc := Moves.alloc (h.release (some i)).1 content [] out
      rw [owned_nil, zero_add] at halloc
      have hmoves := (Moves.giveUp he).trans halloc
      rw [List.append_nil] at hmoves
      exact hmoves
  | other j =>
      obtain ⟨o, ho⟩ := hother j rfl
      have hretain : Moves h (i ::ₘ out) _ (j ::ₘ i ::ₘ out) [] := .retain ho
      rw [Multiset.cons_swap] at hretain
      exact hretain.trans (Moves.giveUp (hretain.exact he))

/-- An owner added changes one count, and nothing else. -/
lemma get?_retain {i : ObjectId} {o : Object α} (ho : h.get? i = some o) (r : Ref) :
    (h.retain r).get? i = some { o with owners := o.owners + if r = some i then 1 else 0 } := by
  cases r with
  | none => exact ho
  | some j =>
      rw [Heap.retain, get?_modify, ho]
      by_cases hij : i = j
      · rw [if_pos hij, if_pos (congrArg some hij.symm)]
        rfl
      · rw [if_neg hij, if_neg fun hji => hij (Option.some_inj.mp hji).symm]
        rfl

/-- An upcast hands out the handle that comes back, if one does. -/
lemma Moves.upcast (he : h.Exact out) {r : Ref} (hlive : ∀ i, r = some i → ∃ o, h.get? i = some o)
    {c : Conversion α} (hother : ∀ j, c = .other j → ∃ o, h.get? j = some o) :
    Moves h out (h.upcast r c).1 (owned (h.upcast r c).2.1.toList + out) (h.upcast r c).2.2 := by
  cases r with
  | none =>
      simp only [Heap.upcast, Option.toList_some, owned_cons_none, owned_nil, zero_add]
      exact .refl _ _
  | some i =>
      obtain ⟨o, ho⟩ := hlive i rfl
      have hretain : Moves h out _ (i ::ₘ out) [] := .retain ho
      have hconvert := Moves.convert (hretain.exact he) (c := c) fun j hj => by
        obtain ⟨q, hq⟩ := hother j hj
        exact ⟨_, get?_retain hq (some i)⟩
      have hmoves := hretain.trans hconvert
      simp only [Heap.upcast]
      split
      · rename_i hj
        rw [hj] at hmoves
        simp only [Option.toList_some, owned_cons_some, owned_nil, Multiset.cons_add, zero_add]
        exact hmoves
      · simp only [Option.toList_none, owned_nil, zero_add]
        exact hmoves.trans (Moves.giveUp (hmoves.exact he))

end Heap

namespace Store

variable {s s' : Store}

/-- Assigning replaces a slot's handle: the new one is there before the old one
goes. -/
lemma Passes.assign {name : String} {slot : Slot} (hget : s.slots.get? name = some slot) {r : Ref}
    (hlive : s.WellFormed 0 → ∀ i, r = some i → ∃ o, s.heap.get? i = some o) :
    Passes s 0 ({ s with heap := (s.heap.assign slot.ref r).1 }.setRef name
      (s.heap.assign slot.ref r).2.1) 0 (s.heap.assign slot.ref r).2.2 := by
  by_cases hsame : slot.ref = r
  · -- nothing is touched
    intro hw
    simp only [Heap.assign, if_pos hsame]
    rw [hw.setRef_self hget]
    exact refl s 0 hw
  · have hretain := retain s 0 hlive
    have hset := setRef { s with heap := s.heap.retain r } hget r 0
    have hrelease := release ({ s with heap := s.heap.retain r }.setRef name r) slot.ref 0
    simp only [Heap.assign, if_neg hsame]
    exact (hretain.trans hset).trans hrelease

/-- A slot that is read: its handle is empty and nothing happens, or it points
at a live object. -/
lemma reading_cases {slot : Slot} {use : ObjectId → Object Node → Store × StepReply}
    {p : Store × StepReply} (h : s.reading slot use = some p) :
    (slot.ref = none ∧ p = (s, { outcome := .aborted (emptyText slot.kind.typeName) }))
      ∨ ∃ i o, slot.ref = some i ∧ s.heap.get? i = some o ∧ p = use i o := by
  rw [reading] at h
  split at h
  · exact .inl ⟨‹_›, (Option.some_inj.mp h).symm⟩
  · rename_i i hi
    obtain ⟨o, ho, rfl⟩ := Option.map_eq_some_iff.mp h
    exact .inr ⟨i, o, hi, ho, rfl⟩

/-- A slot of the concrete type. -/
lemma concrete?_eq_some {name : String} {r : Ref} (h : s.concrete? name = some r) :
    s.slots.get? name = some ⟨.concrete, r⟩ := by
  rw [concrete?] at h
  split at h
  · rename_i r' hget
    rw [hget, Option.some_inj.mp h]
  · cases h

lemma bind_eq_some {β γ : Type} {x : Option β} {f : β → Option γ} {c : γ} :
    (do let b ← x; f b) = some c ↔ ∃ b, x = some b ∧ f b = some c :=
  Option.bind_eq_some_iff

/-- What a conversion gives back from elsewhere is in a slot. -/
lemma conversion?_other {r : Ref} {via : Via} {j : ObjectId}
    (h : s.conversion? r via = some (.other j)) :
    ∃ name, s.slots.get? name = some ⟨.concrete, some j⟩ := by
  cases via with
  | same => cases h
  | fresh label => cases h
  | other name =>
      simp only [conversion?, Option.bind_eq_bind, Option.bind_eq_some_iff] at h
      obtain ⟨q, hq, h⟩ := h
      cases r with
      | none => cases h
      | some i =>
          obtain ⟨k, rfl, hk⟩ := Option.map_eq_some_iff.mp h
          cases hk
          exact ⟨name, concrete?_eq_some hq⟩

/-- A chain made, its first handle in hand. -/
lemma Passes.chain (s : Store) (label : String) (length : Nat) :
    Passes s 0
      { s with heap := (s.heap.chain (fun k => Node.fresh (label ++ toString k)) 0 length).1 }
      (owned [(s.heap.chain (fun k => Node.fresh (label ++ toString k)) 0 length).2] + 0) [] := by
  refine Passes.of_moves ?_
  intro _
  rw [zero_add, add_zero]
  exact .chain _ _ _ _ _

/-- A slot upcast: the handle that comes back, if one does, is in hand. -/
lemma Passes.upcast {source : String} {slot : Slot} (hslot : s.slots.get? source = some slot)
    {via : Via} {c : Heap.Conversion Node} (hc : s.conversion? slot.ref via = some c) :
    Passes s 0 { s with heap := (s.heap.upcast slot.ref c).1 }
      (owned (s.heap.upcast slot.ref c).2.1.toList) (s.heap.upcast slot.ref c).2.2 := by
  refine Passes.of_moves ?_
  intro hw
  rw [zero_add]
  refine .upcast (by simpa using hw.exact) (fun i => hw.get?_of_slot hslot) fun j hj => ?_
  obtain ⟨name, hname⟩ := conversion?_other (hj ▸ hc)
  exact hw.get?_of_slot hname rfl

/-- A slot that is emptied, and then given a new object. -/
lemma Passes.init {name : String} {slot : Slot} (hget : s.slots.get? name = some slot)
    (content : Node) :
    Passes s 0 ({ ((s.setRef name none).release slot.ref).1 with
        heap := ((s.heap.release slot.ref).1.alloc content []).1 }.setRef name
          (some (s.heap.release slot.ref).1.next)) 0 (s.heap.release slot.ref).2 := by
  have hempty := Passes.setRef s hget none 0
  have hrelease := Passes.release (s.setRef name none) slot.ref 0
  have halloc := Passes.alloc ((s.setRef name none).release slot.ref).1 content [] 0
  have hslot := get?_setRef_self hget none
  have hset := Passes.setRef { ((s.setRef name none).release slot.ref).1 with
    heap := (((s.setRef name none).release slot.ref).1.heap.alloc content []).1 }
    hslot (some ((s.setRef name none).release slot.ref).1.heap.next) 0
  have hall := ((hempty.trans hrelease).trans halloc).trans hset
  rw [List.append_nil, List.append_nil] at hall
  exact hall

/-- A slot that is read: what is done with its object is done, or nothing is. -/
lemma Passes.reading {slot : Slot} {use : ObjectId → Object Node → Store × StepReply}
    {p : Store × StepReply} (h : s.reading slot use = some p)
    (huse : ∀ i o, s.heap.get? i = some o → s.Passes 0 (use i o).1 0 (use i o).2.events) :
    s.Passes 0 p.1 0 p.2.events := by
  rcases reading_cases h with ⟨-, rfl⟩ | ⟨i, o, -, ho, rfl⟩
  · exact Passes.refl _ _
  · exact huse i o ho

/-- A handle appended to the kids of an object. -/
lemma Passes.push {i : ObjectId} {o : Object Node} (ho : s.heap.get? i = some o) {kid : Ref}
    (hlive : s.WellFormed 0 → ∀ j, kid = some j → ∃ o, s.heap.get? j = some o) :
    Passes s 0 { s with
      heap := (s.heap.retain kid).modify i fun o => { o with kids := o.kids ++ [kid] } } 0 [] := by
  have hretain := Passes.retain s 0 hlive
  refine hretain.trans (Passes.edit _ (fun o => { o with kids := o.kids ++ [kid] })
    (Heap.get?_retain ho kid) rfl ?_)
  rw [owned_append, add_zero, add_zero]

/-- The last kid of an object, taken from it and released. -/
lemma Passes.pop {i : ObjectId} {o : Object Node} (ho : s.heap.get? i = some o) {kid : Ref}
    (hlast : o.kids.getLast? = some kid) :
    Passes s 0 { s with
      heap := ((s.heap.modify i fun o => { o with kids := o.kids.dropLast }).release kid).1 } 0
      ((s.heap.modify i fun o => { o with kids := o.kids.dropLast }).release kid).2 := by
  have hkids : o.kids = o.kids.dropLast ++ [kid] :=
    (List.dropLast_append_getLast? kid hlast).symm
  refine (Passes.edit s (fun o => { o with kids := o.kids.dropLast }) ho rfl ?_).trans
    (Passes.release _ kid 0)
  rw [add_zero, add_zero, ← owned_append, ← hkids]

/-- **Every operation is a sequence of moves**, and has nothing in hand before
and after. -/
theorem step_passes {step : Step} {reply : StepReply} (h : s.step? step = some (s', reply)) :
    s.Passes 0 s' 0 reply.events := by
  cases step with
  | create kind label dest =>
      cases h
      have halloc := Passes.alloc s (.fresh label) [] 0
      exact halloc.trans (Passes.put _ dest ⟨kind, some s.heap.next⟩ 0)
  | empty kind dest =>
      cases h
      exact Passes.put s dest ⟨kind, none⟩ 0
  | chain length label dest =>
      cases h
      exact (Passes.chain s label length).trans (Passes.put _ dest ⟨.concrete, _⟩ 0)
  | init slot label =>
      simp only [step?, bind_eq_some] at h
      obtain ⟨target, htarget, h⟩ := h
      cases h
      exact Passes.init htarget (.fresh label)
  | clone source dest =>
      simp only [step?, bind_eq_some] at h
      obtain ⟨slot, hslot, h⟩ := h
      cases h
      have hretain := Passes.retain s 0 fun hw i => hw.get?_of_slot hslot (i := i)
      exact hretain.trans (Passes.put _ dest slot 0)
  | assign slot source =>
      simp only [step?, bind_eq_some] at h
      obtain ⟨target, htarget, src, hsrc, h⟩ := h
      split at h <;> cases h
      exact Passes.assign htarget fun hw i => hw.get?_of_slot hsrc (i := i)
  | reset slot =>
      simp only [step?, bind_eq_some] at h
      obtain ⟨target, htarget, h⟩ := h
      cases h
      have hempty := Passes.setRef s htarget none 0
      exact hempty.trans (Passes.release (s.setRef slot none) target.ref 0)
  | remove slot =>
      simp only [step?, bind_eq_some] at h
      obtain ⟨_, _, h⟩ := h
      cases h
      exact Passes.removeSlot s slot 0
  | get | status | inspect =>
      simp only [step?, bind_eq_some] at h
      obtain ⟨_, _, h⟩ := h
      cases h
      exact Passes.refl _ _
  | compare slot other =>
      simp only [step?, bind_eq_some] at h
      obtain ⟨_, _, _, _, h⟩ := h
      cases h
      exact Passes.refl _ _
  | pointsAt slot place =>
      simp only [step?, bind_eq_some] at h
      obtain ⟨_, _, h⟩ := h
      cases place with
      | null | elsewhere =>
          cases h
          exact Passes.refl _ _
      | node other =>
          simp only [bind_eq_some] at h
          obtain ⟨_, _, h⟩ := h
          cases h
          exact Passes.refl _ _
  | deref slot | read slot =>
      simp only [step?, bind_eq_some] at h
      obtain ⟨_, _, h⟩ := h
      exact Passes.reading h fun _ _ _ => Passes.refl _ _
  | write slot value =>
      simp only [step?, bind_eq_some] at h
      obtain ⟨_, _, h⟩ := h
      exact Passes.reading h fun i o ho => Passes.edit s _ ho rfl rfl
  | push slot source =>
      simp only [step?, bind_eq_some] at h
      obtain ⟨_, _, kid, hkid, h⟩ := h
      refine Passes.reading h fun i o ho => Passes.push ho fun hw j => ?_
      exact hw.get?_of_slot (concrete?_eq_some hkid)
  | pop slot =>
      simp only [step?, bind_eq_some] at h
      obtain ⟨_, _, h⟩ := h
      refine Passes.reading h ?_
      intro i o ho
      split
      · exact Passes.refl _ _
      · exact Passes.pop ho ‹_›
  | kid slot index dest =>
      simp only [step?, bind_eq_some] at h
      obtain ⟨_, _, h⟩ := h
      refine Passes.reading h ?_
      intro i o ho
      split
      · exact Passes.refl _ _
      · rename_i kid hkid
        have hretain := Passes.retain s (r := kid) 0 fun hw j hj =>
          hw.get?_of_kid ho (hj ▸ List.mem_of_getElem? hkid)
        exact hretain.trans (Passes.put _ dest ⟨.concrete, kid⟩ 0)
  | advance slot =>
      simp only [step?, bind_eq_some] at h
      obtain ⟨target, htarget, h⟩ := h
      split at h
      · cases h
      · refine Passes.reading h fun i o ho => Passes.assign htarget fun hw j hj => ?_
        refine hw.get?_of_kid ho ?_
        cases hkids : o.kids with
        | nil =>
            rw [hkids] at hj
            cases hj
        | cons r rs =>
            rw [hkids] at hj
            exact hj ▸ List.mem_cons_self ..
  | upcast source dest via =>
      simp only [step?, bind_eq_some] at h
      obtain ⟨slot, hslot, conversion, hconversion, h⟩ := h
      have hupcast := Passes.upcast hslot hconversion
      split at h
      · rename_i hnone
        cases h
        rw [hnone] at hupcast
        exact hupcast
      · rename_i r hsome
        cases h
        rw [hsome] at hupcast
        have hput := Passes.put { s with heap := (s.heap.upcast slot.ref conversion).1 } dest
          ⟨.erased, r⟩ 0
        rw [add_zero] at hput
        exact hupcast.trans hput
  | hold source owner =>
      simp only [step?, bind_eq_some] at h
      obtain ⟨r, hr, h⟩ := h
      cases r with
      | none =>
          cases h
          exact Passes.refl _ _
      | some i =>
          cases h
          have hretain := Passes.retain s 0 fun hw j =>
            hw.get?_of_slot (concrete?_eq_some hr) (i := j)
          exact hretain.trans (Passes.keep _ owner i 0)
  | letGo owner =>
      simp only [step?, bind_eq_some] at h
      obtain ⟨_, _, h⟩ := h
      cases h
      exact Passes.removeHeld s owner 0
  | adopt owner dest =>
      simp only [step?, bind_eq_some] at h
      obtain ⟨i, hi, h⟩ := h
      cases h
      have htake := Passes.takeHeld s owner 0
      rw [hi] at htake
      exact htake.trans (Passes.put _ dest ⟨.concrete, some i⟩ 0)

end Store

end ScriptBinding.Shared
