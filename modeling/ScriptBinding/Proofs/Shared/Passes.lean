import Mathlib.Tactic.Abel
import ScriptBinding.Proofs.Shared.Moves
import ScriptBinding.Shared.Step

/-
Stores as owners.  The handles outside of a store's heap are those in its slots,
the owners that it holds, and those that an operation has in hand.

* `Store.roots`: the handles in slots and the held owners.
* `Store.WellFormed`: names stand once and counts are exact, `out` being in hand.
* `Store.Passes`: from one well-formed store to another by moves of the heap, with
  what is in hand before and after; one lemma for each operation on stores.
-/
namespace ScriptBinding.Shared

/-! ### Handles in tables -/

/-- The handles in a table of slots. -/
def slotRefs (t : Table String Slot) : List Ref :=
  t.entries.map (·.2.ref)

/-- The handles that held owners stand for. -/
def heldRefs (t : Table String ObjectId) : List Ref :=
  t.entries.map (some ·.2)

section Tables

variable {name : String}

/-- A slot taken away gives up its handle. -/
lemma owned_slotRefs_erase {t : Table String Slot} (ht : t.Distinct) (name : String) :
    owned [(t.get? name).bind (·.ref)] + owned (slotRefs (t.erase name))
      = owned (slotRefs t) := by
  cases hget : t.get? name with
  | none => rw [Table.erase_eq_self hget]; simp
  | some slot =>
      rw [← owned_append]
      exact (owned_perm ((ht.perm_erase hget).map fun e => e.2.ref)).symm

lemma owned_slotRefs_insert (t : Table String Slot) (name : String) (slot : Slot) :
    owned (slotRefs (t.insert name slot))
      = owned [slot.ref] + owned (slotRefs (t.erase name)) := by
  rw [slotRefs, Table.insert, List.map_append, owned_append, add_comm]
  rfl

/-- A slot's handle replaced. -/
lemma owned_slotRefs_modify {t : Table String Slot} (ht : t.Distinct) {slot : Slot}
    (hget : t.get? name = some slot) (r : Ref) :
    owned [slot.ref] + owned (slotRefs (t.modify name fun slot => { slot with ref := r }))
      = owned [r] + owned (slotRefs t) := by
  have hnew := owned_perm ((ht.perm_modify hget fun slot => { slot with ref := r }).map
    fun e => e.2.ref)
  have hold := owned_perm ((ht.perm_erase hget).map fun e => e.2.ref)
  rw [List.map_cons, owned_cons] at hnew hold
  rw [slotRefs, slotRefs, hnew, hold]
  exact add_left_comm _ _ _

lemma owned_heldRefs_erase {t : Table String ObjectId} (ht : t.Distinct) (name : String) :
    owned [t.get? name] + owned (heldRefs (t.erase name)) = owned (heldRefs t) := by
  cases hget : t.get? name with
  | none => rw [Table.erase_eq_self hget]; simp
  | some i =>
      rw [← owned_append]
      exact (owned_perm ((ht.perm_erase hget).map fun e => some e.2)).symm

lemma owned_heldRefs_insert (t : Table String ObjectId) (name : String) (i : ObjectId) :
    owned (heldRefs (t.insert name i)) = owned [some i] + owned (heldRefs (t.erase name)) := by
  rw [heldRefs, Table.insert, List.map_append, owned_append, add_comm]
  rfl

/-- A slot's handle is among those of its table. -/
lemma mem_slotRefs {t : Table String Slot} (ht : t.Distinct) {slot : Slot}
    (hget : t.get? name = some slot) : slot.ref ∈ slotRefs t :=
  List.mem_map.mpr ⟨(name, slot), ht.get?_eq_some_iff.mp hget, rfl⟩

end Tables

namespace Store

/-- A slot whose handle is replaced. -/
lemma get?_setRef_self {s : Store} {name : String} {slot : Slot}
    (hget : s.slots.get? name = some slot) (r : Ref) :
    (s.setRef name r).slots.get? name = some { slot with ref := r } := by
  rw [setRef, Table.get?_modify, if_pos rfl, hget]
  rfl

lemma get?_setRef_of_ne {name other : String} (hne : other ≠ name) (s : Store) (r : Ref) :
    (s.setRef name r).slots.get? other = s.slots.get? other :=
  (s.slots.get?_modify name other _).trans (if_neg hne)

/-- The handles in slots, and the held owners. -/
def roots (s : Store) : List Ref :=
  slotRefs s.slots ++ heldRefs s.held

/-- Names of slots and of held owners stand once, and counts are exact while
`out` is in hand. -/
structure WellFormed (s : Store) (out : Multiset ObjectId) : Prop where
  slots : s.slots.Distinct
  held : s.held.Distinct
  exact : s.heap.Exact (out + owned s.roots)

/-- From a store, with `out` in hand, to another one, with `out'` in hand, by
moves of the heap. -/
def Passes (s : Store) (out : Multiset ObjectId) (s' : Store) (out' : Multiset ObjectId)
    (drops : List (Drop Node)) : Prop :=
  s.WellFormed out → s'.slots.Distinct ∧ s'.held.Distinct ∧
    Heap.Moves s.heap (out + owned s.roots) s'.heap (out' + owned s'.roots) drops

namespace WellFormed

lemma empty : WellFormed {} 0 :=
  ⟨Table.distinct_empty, Table.distinct_empty, Heap.Exact.empty⟩

variable {s : Store} {out : Multiset ObjectId}

/-- A handle in a slot points at a live object. -/
lemma get?_of_slot (hw : s.WellFormed out) {name : String} {slot : Slot} {i : ObjectId}
    (hget : s.slots.get? name = some slot) (hi : slot.ref = some i) :
    ∃ o, s.heap.get? i = some o := by
  refine hw.exact.exists_of_mem (Multiset.mem_add.mpr (.inr (mem_owned.mpr ?_)))
  exact List.mem_append_left _ (hi ▸ mem_slotRefs hw.slots hget)

/-- A slot's handle replaced by itself. -/
lemma setRef_self (hw : s.WellFormed out) {name : String} {slot : Slot}
    (hget : s.slots.get? name = some slot) : s.setRef name slot.ref = s := by
  have hslots : s.slots.modify name (fun x => { x with ref := slot.ref }) = s.slots :=
    hw.slots.modify_eq_self hget rfl
  rw [setRef, hslots]

/-- A handle in the kid list of a live object points at a live object. -/
lemma get?_of_kid (hw : s.WellFormed out) {p i : ObjectId} {o : Object Node}
    (hget : s.heap.get? p = some o) (hi : some i ∈ o.kids) : ∃ q, s.heap.get? i = some q := by
  refine Option.isSome_iff_exists.mp (hw.exact.isSome_iff.mpr (.inr ?_))
  exact (Heap.mem_kidRefs hw.exact.distinct).mpr ⟨p, o, hget, hi⟩

end WellFormed

namespace Passes

variable {s s₁ s₂ : Store} {out out₁ out₂ : Multiset ObjectId} {ds es : List (Drop Node)}

lemma wellFormed (hp : Passes s out s₁ out₁ ds) (hw : s.WellFormed out) : s₁.WellFormed out₁ := by
  obtain ⟨hslots, hheld, hm⟩ := hp hw
  exact ⟨hslots, hheld, hm.exact hw.exact⟩

lemma refl (s : Store) (out : Multiset ObjectId) : Passes s out s out [] := fun hw =>
  ⟨hw.slots, hw.held, .refl _ _⟩

lemma trans (hp : Passes s out s₁ out₁ ds) (hq : Passes s₁ out₁ s₂ out₂ es) :
    Passes s out s₂ out₂ (ds ++ es) := by
  intro hw
  obtain ⟨-, -, hm⟩ := hp hw
  obtain ⟨hslots, hheld, hn⟩ := hq (hp.wellFormed hw)
  exact ⟨hslots, hheld, hm.trans hn⟩

/-- Moves of the heap alone. -/
lemma of_moves {h' : Heap Node}
    (hm : s.WellFormed out → s.heap.Moves (out + owned s.roots) h' (out₁ + owned s.roots) ds) :
    Passes s out { s with heap := h' } out₁ ds := fun hw =>
  ⟨hw.slots, hw.held, hm hw⟩

/-- A new object. -/
lemma alloc (s : Store) (content : Node) (kids : List Ref) (out : Multiset ObjectId) :
    Passes s (owned kids + out) { s with heap := (s.heap.alloc content kids).1 }
      (owned [some s.heap.next] + out) [] := by
  refine of_moves ?_
  intro _
  rw [add_assoc, add_assoc, owned_cons_some, owned_nil, Multiset.cons_add, zero_add]
  exact .alloc _ _ _ _

/-- A handle cloned: one more owner of what it points at, in hand. -/
lemma retain (s : Store) {r : Ref} (out : Multiset ObjectId)
    (hlive : s.WellFormed out → ∀ i, r = some i → ∃ o, s.heap.get? i = some o) :
    Passes s out { s with heap := s.heap.retain r } (owned [r] + out) [] := by
  refine of_moves ?_
  intro hw
  cases r with
  | none =>
      rw [owned_cons_none, owned_nil, zero_add]
      exact .refl _ _
  | some i =>
      obtain ⟨o, ho⟩ := hlive hw i rfl
      rw [owned_cons_some, owned_nil, Multiset.cons_add, Multiset.cons_add, zero_add]
      exact .retain ho

/-- A live object changed. -/
lemma edit (s : Store) {i : ObjectId} {o : Object Node} (f : Object Node → Object Node)
    (hget : s.heap.get? i = some o) (hown : (f o).owners = o.owners)
    (hout : owned (f o).kids + out₁ = owned o.kids + out) :
    Passes s out { s with heap := s.heap.modify i f } out₁ [] := by
  refine of_moves fun _ => .edit hget hown ?_
  rw [← add_assoc, ← add_assoc, hout]

/-- A handle in hand is given up. -/
lemma release (s : Store) (r : Ref) (out : Multiset ObjectId) :
    Passes s (owned [r] + out) (s.release r).1 out (s.release r).2 := by
  refine of_moves ?_
  intro hw
  rw [add_assoc]
  have he := hw.exact
  rw [add_assoc] at he
  exact .release he.releases

/-- Handles move between the tables and the hand, and none is lost. -/
lemma regroup {slots : Table String Slot} {held : Table String ObjectId}
    (hslots : s.slots.Distinct → slots.Distinct) (hheld : s.held.Distinct → held.Distinct)
    (hsum : s.WellFormed out → out₁ + owned (slotRefs slots ++ heldRefs held)
      = out + owned s.roots) :
    Passes s out { s with slots := slots, held := held } out₁ [] := by
  intro hw
  refine ⟨hslots hw.slots, hheld hw.held, ?_⟩
  have hsum := hsum hw
  rw [show owned (roots { s with slots := slots, held := held })
    = owned (slotRefs slots ++ heldRefs held) from rfl, hsum]
  exact .refl _ _

/-- A slot's handle replaced by one in hand; the one that was there is in hand
afterwards. -/
lemma setRef (s : Store) {name : String} {slot : Slot} (hget : s.slots.get? name = some slot)
    (r : Ref) (out : Multiset ObjectId) :
    Passes s (owned [r] + out) (s.setRef name r) (owned [slot.ref] + out) [] := by
  refine regroup (fun h => h.modify _ _) id fun hw => ?_
  have hslots := owned_slotRefs_modify hw.slots hget r
  calc owned [slot.ref] + out + owned (slotRefs (s.setRef name r).slots ++ heldRefs s.held)
      = owned [slot.ref] + owned (slotRefs (s.setRef name r).slots)
        + (out + owned (heldRefs s.held)) := by rw [owned_append]; abel
    _ = owned [r] + owned (slotRefs s.slots) + (out + owned (heldRefs s.held)) := by
        rw [Store.setRef, hslots]
    _ = owned [r] + out + owned s.roots := by rw [roots, owned_append]; abel

/-- A handle in hand is stored; the one that was there is in hand afterwards. -/
lemma insertSlot (s : Store) (name : String) (slot : Slot) (out : Multiset ObjectId) :
    Passes s (owned [slot.ref] + out) { s with slots := s.slots.insert name slot }
      (owned [(s.slots.get? name).bind (·.ref)] + out) [] := by
  refine regroup (fun h => h.insert _ _) id fun hw => ?_
  have hslots := owned_slotRefs_erase hw.slots name
  calc owned [(s.slots.get? name).bind (·.ref)] + out
        + owned (slotRefs (s.slots.insert name slot) ++ heldRefs s.held)
      = owned [slot.ref] + out + (owned [(s.slots.get? name).bind (·.ref)]
        + owned (slotRefs (s.slots.erase name)) + owned (heldRefs s.held)) := by
        rw [owned_append, owned_slotRefs_insert]; abel
    _ = owned [slot.ref] + out + owned s.roots := by rw [hslots, roots, owned_append]

/-- A handle in hand is stored, and the one that was there is given up. -/
lemma put (s : Store) (name : String) (slot : Slot) (out : Multiset ObjectId) :
    Passes s (owned [slot.ref] + out) (s.put name slot).1 out (s.put name slot).2 :=
  (insertSlot s name slot out).trans
    (release { s with slots := s.slots.insert name slot } _ out)

/-- A slot taken away; its handle is in hand afterwards. -/
lemma eraseSlot (s : Store) (name : String) (out : Multiset ObjectId) :
    Passes s out { s with slots := s.slots.erase name }
      (owned [(s.slots.get? name).bind (·.ref)] + out) [] := by
  refine regroup (fun h => h.erase _) id fun hw => ?_
  rw [roots, owned_append, owned_append, ← owned_slotRefs_erase hw.slots name]
  abel

/-- A slot taken away, and its handle given up. -/
lemma removeSlot (s : Store) (name : String) (out : Multiset ObjectId) :
    Passes s out (s.removeSlot name).1 out (s.removeSlot name).2 :=
  (eraseSlot s name out).trans (release { s with slots := s.slots.erase name } _ out)

/-- An owner in hand is held under a name. -/
lemma keep (s : Store) (name : String) (i : ObjectId) (out : Multiset ObjectId) :
    Passes s (owned [some i] + out) (s.keep name i).1 out (s.keep name i).2 := by
  have hinsert : Passes s (owned [some i] + out) { s with held := s.held.insert name i }
      (owned [s.held.get? name] + out) [] := by
    refine regroup id (fun h => h.insert _ _) fun hw => ?_
    rw [roots, owned_append, owned_append, owned_heldRefs_insert,
      ← owned_heldRefs_erase hw.held name]
    abel
  exact hinsert.trans (release { s with held := s.held.insert name i } _ out)

/-- A held owner taken in hand. -/
lemma takeHeld (s : Store) (name : String) (out : Multiset ObjectId) :
    Passes s out { s with held := s.held.erase name } (owned [s.held.get? name] + out) [] := by
  refine regroup id (fun h => h.erase _) fun hw => ?_
  rw [roots, owned_append, owned_append, ← owned_heldRefs_erase hw.held name]
  abel

/-- A held owner taken away. -/
lemma removeHeld (s : Store) (name : String) (out : Multiset ObjectId) :
    Passes s out (s.removeHeld name).1 out (s.removeHeld name).2 :=
  (takeHeld s name out).trans (release { s with held := s.held.erase name } _ out)

end Passes

end Store

end ScriptBinding.Shared
