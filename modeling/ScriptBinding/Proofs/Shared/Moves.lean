import Mathlib.Data.Multiset.Range
import ScriptBinding.Proofs.Shared.Exact

/-
Moves: the few things that an operation on handles can do to a heap and to the
handles outside of it, in sequence, with what is dropped meanwhile.

* `Heap.Moves`: objects made, owners added, objects changed, owners given up.
* `Moves.exact`: counts stay exact.
* `Moves.ledger`: the books of a heap; what was live or is made is dropped once
  or is live, and nothing else is.
* `Moves.mem_dropped_iff`: an object is dropped exactly if it was there, or was
  made meanwhile, and is gone.
-/
namespace ScriptBinding.Shared.Heap

variable {α : Type}

/-- The names of the live objects. -/
def names (h : Heap α) : Multiset ObjectId :=
  h.objects.keys

/-- The names of dropped objects. -/
def dropped (drops : List (Drop α)) : Multiset ObjectId :=
  drops.map (·.id)

@[simp] lemma dropped_nil : dropped ([] : List (Drop α)) = 0 := rfl

@[simp] lemma dropped_cons (d : Drop α) (drops : List (Drop α)) :
    dropped (d :: drops) = d.id ::ₘ dropped drops := rfl

@[simp] lemma dropped_append (ds es : List (Drop α)) :
    dropped (ds ++ es) = dropped ds + dropped es := by
  rw [dropped, List.map_append]
  rfl

lemma mem_names {h : Heap α} {i : ObjectId} : i ∈ h.names ↔ (h.get? i).isSome :=
  Table.mem_keys_iff

lemma names_modify (h : Heap α) (i : ObjectId) (f : Object α → Object α) :
    (h.modify i f).names = h.names :=
  congrArg (fun ks : List ObjectId => (ks : Multiset ObjectId)) (h.objects.keys_modify i f)

lemma names_erase {h : Heap α} (hd : h.objects.Distinct) {i : ObjectId} {o : Object α}
    (hget : h.get? i = some o) : h.names = i ::ₘ (h.erase i).names :=
  Multiset.coe_eq_coe.mpr ((hd.perm_erase hget).map Prod.fst)

lemma Exact.nodup_names {h : Heap α} {out : Multiset ObjectId} (he : h.Exact out) :
    h.names.Nodup :=
  Multiset.coe_nodup.mpr he.distinct

lemma Exact.names_alloc {h : Heap α} {out : Multiset ObjectId} (he : h.Exact out) (content : α)
    (kids : List Ref) : (h.alloc content kids).1.names = h.next ::ₘ h.names := by
  have hentries := Table.insert_eq_append he.get?_next ⟨content, kids, 1⟩
  rw [names, Table.keys, Heap.alloc, hentries, List.map_append]
  exact Multiset.coe_eq_coe.mpr List.perm_append_comm

/-- A cascade drops what goes from the heap, each object once. -/
lemma Releases.names {h h' : Heap α} {work : List Ref} {out : Multiset ObjectId}
    {drops : List (Drop α)} (hr : Releases out h work h' drops) :
    h'.names + dropped drops = h.names := by
  induction hr with
  | nil _ => simp
  | skip _ ih => exact ih
  | last he hget _ _ ih =>
      rw [dropped_cons, Multiset.add_cons, ih, names_erase he.distinct hget]
  | more _ _ _ _ ih => rw [ih, names_modify]

/-- A cascade gives no names. -/
lemma Releases.next {h h' : Heap α} {work : List Ref} {out : Multiset ObjectId}
    {drops : List (Drop α)} (hr : Releases out h work h' drops) : h'.next = h.next := by
  induction hr with
  | nil _ => rfl
  | skip _ ih => exact ih
  | last _ _ _ _ ih => exact ih
  | more _ _ _ _ ih => exact ih

/-- `Moves h out h' out' drops`: from a heap with the handles `out` outside of it
to another such pair, dropping objects meanwhile. -/
inductive Moves : Heap α → Multiset ObjectId → Heap α → Multiset ObjectId → List (Drop α) → Prop
  | refl (h out) : Moves h out h out []
  /-- An object is made, which takes over handles; its owner is handed out. -/
  | alloc (h content kids out) :
      Moves h (owned kids + out) (h.alloc content kids).1 (h.next ::ₘ out) []
  /-- A live object gets one more owner outside. -/
  | retain {h out i o} : h.get? i = some o → Moves h out (h.retain (some i)) (i ::ₘ out) []
  /-- A live object is changed; handles that it gains come from outside, and
  those that it gives up are left there. -/
  | edit {h out out' i o} {f : Object α → Object α} : h.get? i = some o →
      (f o).owners = o.owners → owned (f o).kids + out' = owned o.kids + out →
      Moves h out (h.modify i f) out' []
  /-- Handles outside are given up. -/
  | release {h work out h' drops} :
      Releases out h work h' drops → Moves h (owned work + out) h' out drops
  | trans {h out h₁ out₁ h₂ out₂ ds es} :
      Moves h out h₁ out₁ ds → Moves h₁ out₁ h₂ out₂ es → Moves h out h₂ out₂ (ds ++ es)

namespace Moves

variable {h h' : Heap α} {out out' : Multiset ObjectId} {drops : List (Drop α)}

/-- **Counts stay exact.** -/
theorem exact (hm : Moves h out h' out' drops) (he : h.Exact out) : h'.Exact out' := by
  induction hm with
  | refl => exact he
  | alloc => exact he.alloc _
  | retain hget => exact he.retain hget
  | edit hget hown hout => exact he.edit hget hown hout
  | release hr => exact hr.exact
  | trans _ _ ih₁ ih₂ => exact ih₂ (ih₁ he)

/-- Names are given in order. -/
lemma next_le (hm : Moves h out h' out' drops) : h.next ≤ h'.next := by
  induction hm with
  | refl => exact le_rfl
  | alloc h => exact Nat.le_succ h.next
  | retain => exact le_rfl
  | edit => exact le_rfl
  | release hr => exact hr.next.ge
  | trans _ _ ih₁ ih₂ => exact ih₁.trans ih₂

/-- **The books of a heap**: the objects that were live and those made since are
the live ones and the dropped ones, each once. -/
theorem ledger (hm : Moves h out h' out' drops) (he : h.Exact out) :
    h'.names + dropped drops + Multiset.range h.next = h.names + Multiset.range h'.next := by
  induction hm with
  | refl => simp
  | alloc h content kids out =>
      rw [he.names_alloc, dropped_nil, add_zero]
      show _ = _ + Multiset.range (h.next + 1)
      rw [Multiset.range_succ, Multiset.cons_add, Multiset.add_cons]
  | retain => rw [dropped_nil, add_zero, Heap.retain, names_modify]; rfl
  | edit => rw [dropped_nil, add_zero, names_modify]; rfl
  | release hr => rw [hr.names, hr.next]
  | trans hm₁ _ ih₁ ih₂ =>
      have h₁ := ih₁ he
      have h₂ := ih₂ (hm₁.exact he)
      ext i
      have c₁ := congrArg (Multiset.count i) h₁
      have c₂ := congrArg (Multiset.count i) h₂
      simp only [Multiset.count_add, dropped_append] at c₁ c₂ ⊢
      omega

/-- How often an object is dropped: once if it was there or was made meanwhile
and is gone, else never. -/
lemma count_dropped (hm : Moves h out h' out' drops) (he : h.Exact out) (i : ObjectId) :
    (dropped drops).count i
      = if ((h.get? i).isSome ∨ h.next ≤ i ∧ i < h'.next) ∧ ¬ (h'.get? i).isSome then 1 else 0 := by
  have hledger := congrArg (Multiset.count i) (hm.ledger he)
  have hnext := hm.next_le
  have hlive : (h.get? i).isSome → i < h.next := fun hi => by
    obtain ⟨o, ho⟩ := Option.isSome_iff_exists.mp hi
    exact he.lt_next ho
  simp only [Multiset.count_add, Multiset.count_eq_of_nodup he.nodup_names,
    Multiset.count_eq_of_nodup (hm.exact he).nodup_names,
    Multiset.count_eq_of_nodup (Multiset.nodup_range _), mem_names, Multiset.mem_range] at hledger
  have hi : i < h.next ∨ h.next ≤ i := Nat.lt_or_ge _ _
  split_ifs at hledger ⊢ <;> grind

/-- No object is dropped twice. -/
lemma nodup_dropped (hm : Moves h out h' out' drops) (he : h.Exact out) :
    (dropped drops).Nodup := by
  rw [Multiset.nodup_iff_count_le_one]
  intro i
  rw [hm.count_dropped he]
  split <;> omega

/-- An object is dropped exactly if it was there, or was made meanwhile, and is
gone. -/
lemma mem_dropped_iff (hm : Moves h out h' out' drops) (he : h.Exact out) {i : ObjectId} :
    i ∈ dropped drops
      ↔ ((h.get? i).isSome ∨ h.next ≤ i ∧ i < h'.next) ∧ ¬ (h'.get? i).isSome := by
  rw [← Multiset.count_pos, hm.count_dropped he]
  split <;> simp_all

end Moves

end ScriptBinding.Shared.Heap
