import Mathlib.Algebra.Order.Group.Multiset
import Mathlib.Data.List.ReduceOption
import Mathlib.Data.Multiset.AddSub
import Mathlib.Tactic.Common
import ScriptBinding.Proofs.Table.Entries
import ScriptBinding.Shared.Heap

/-
Exact counts.  The owners of an object are the handles to it: those in the kid
lists of live objects, and those outside of the heap, which are kept as a bag
of the objects that they point at.

* `owned`: the bag of what a list of handles points at.
* `Heap.kidRefs`: the handles in the kid lists of live objects.
* `Heap.Exact`: every stored count is the number of handles, and no live object
  has none; `Exact.isSome_iff`: an object is live exactly if a handle points at
  it, so no handle dangles.
* `Exact.alloc`, `Exact.retain`, `Exact.edit`: what each operation does to the
  bag.
* `Heap.Releases`: the rounds of a cascade; `Exact.releases`, `Releases.exact`: a
  cascade gives up the handles that it is handed and leaves the others alone,
  whatever it drops.
-/
namespace ScriptBinding.Shared

/-- The objects that handles point at, each as often as a handle does. -/
def owned (rs : List Ref) : Multiset ObjectId :=
  rs.reduceOption

@[simp] lemma owned_nil : owned [] = 0 := rfl

@[simp] lemma owned_cons_none (rs : List Ref) : owned (none :: rs) = owned rs := rfl

@[simp] lemma owned_cons_some (i : ObjectId) (rs : List Ref) :
    owned (some i :: rs) = i ::ₘ owned rs := rfl

@[simp] lemma owned_append (rs ss : List Ref) : owned (rs ++ ss) = owned rs + owned ss := by
  rw [owned, List.reduceOption_append]
  rfl

lemma owned_cons (r : Ref) (rs : List Ref) : owned (r :: rs) = owned [r] + owned rs :=
  owned_append [r] rs

lemma count_owned (rs : List Ref) (i : ObjectId) : (owned rs).count i = rs.count (some i) := by
  induction rs with
  | nil => rfl
  | cons r rs ih =>
      cases r with
      | none => rw [owned_cons_none, ih, List.count_cons_of_ne (by simp)]
      | some j =>
          rw [owned_cons_some, Multiset.count_cons, ih, List.count_cons]
          by_cases hij : i = j
          · simp [hij]
          · simp [hij, show ¬ j = i from fun h => hij h.symm]

lemma mem_owned {rs : List Ref} {i : ObjectId} : i ∈ owned rs ↔ some i ∈ rs := by
  rw [← Multiset.count_pos, count_owned, List.count_pos_iff]

lemma owned_perm {rs ss : List Ref} (h : rs.Perm ss) : owned rs = owned ss :=
  Multiset.coe_eq_coe.mpr (h.filterMap id)

namespace Heap

variable {α : Type}

/-! ### Objects that an operation leaves alone -/

section Others

variable {h : Heap α} {i j : ObjectId}

lemma get?_alloc_of_ne (hi : i ≠ h.next) (content : α) (kids : List Ref) :
    (h.alloc content kids).1.get? i = h.get? i := by
  rw [get?_alloc, if_neg hi]

lemma get?_modify_of_ne (hji : j ≠ i) (f : Object α → Object α) :
    (h.modify i f).get? j = h.get? j := by
  rw [get?_modify, if_neg hji]

lemma get?_erase_of_ne (hji : j ≠ i) : (h.erase i).get? j = h.get? j := by
  rw [get?_erase, if_neg hji]

lemma ownerCount_congr {g : Heap α} (hsame : g.get? i = h.get? i) :
    g.ownerCount (some i) = h.ownerCount (some i) := by
  simp only [ownerCount, deref?, Option.bind_some, hsame]

end Others

/-! ### Exact counts -/

/-- The handles in the kid lists of live objects. -/
def kidRefs (h : Heap α) : List Ref :=
  h.objects.entries.flatMap (·.2.kids)

/-- Every object is counted as often as handles to it exist: those in `out` and
those in kid lists.  Names are given once, and only live objects are listed. -/
structure Exact (h : Heap α) (out : Multiset ObjectId) : Prop where
  distinct : h.objects.Distinct
  lt_next : ∀ {i o}, h.get? i = some o → i < h.next
  count : ∀ i, h.ownerCount (some i) = out.count i + h.kidRefs.count (some i)
  pos : ∀ {i o}, h.get? i = some o → 1 ≤ o.owners

lemma ownerCount_of_get? {h : Heap α} {i : ObjectId} {o : Object α} (hget : h.get? i = some o) :
    h.ownerCount (some i) = o.owners := by
  simp [ownerCount, deref?, hget]

lemma ownerCount_of_get?_none {h : Heap α} {i : ObjectId} (hget : h.get? i = none) :
    h.ownerCount (some i) = 0 := by
  simp [ownerCount, deref?, hget]

/-- A handle in a kid list is held by a live object. -/
lemma mem_kidRefs {h : Heap α} (hd : h.objects.Distinct) {r : Ref} :
    r ∈ h.kidRefs ↔ ∃ i o, h.get? i = some o ∧ r ∈ o.kids := by
  simp only [kidRefs, List.mem_flatMap, Prod.exists]
  exact exists_congr fun i => exists_congr fun o => and_congr_left' hd.get?_eq_some_iff.symm

/-- The kid lists with those of one live object split off. -/
lemma perm_kidRefs_erase {h : Heap α} (hd : h.objects.Distinct) {i : ObjectId} {o : Object α}
    (hget : h.get? i = some o) : h.kidRefs.Perm (o.kids ++ (h.erase i).kidRefs) :=
  (hd.perm_erase hget).flatMap_right _

/-- The kid lists with those of one live object split off, after it was changed. -/
lemma perm_kidRefs_modify {h : Heap α} (hd : h.objects.Distinct) {i : ObjectId} {o : Object α}
    (hget : h.get? i = some o) (f : Object α → Object α) :
    (h.modify i f).kidRefs.Perm ((f o).kids ++ (h.erase i).kidRefs) :=
  (hd.perm_modify hget f).flatMap_right _

/-! ### One round of a cascade -/

section Rounds

variable {h : Heap α} {i : ObjectId} {o : Object α} (work : List Ref)

lemma releaseAll_nil (h : Heap α) : h.releaseAll [] = (h, []) := by
  rw [releaseAll]

lemma releaseAll_none (h : Heap α) : h.releaseAll (none :: work) = h.releaseAll work := by
  rw [releaseAll]

/-- A handle to an object that is gone is passed over. -/
lemma releaseAll_gone (hget : h.get? i = none) :
    h.releaseAll (some i :: work) = h.releaseAll work := by
  rw [releaseAll]
  split <;> simp_all

/-- The last owner of an object drops it and releases its kids next. -/
lemma releaseAll_last (hget : h.get? i = some o) (hlast : o.owners ≤ 1) :
    h.releaseAll (some i :: work) = (((h.erase i).releaseAll (o.kids ++ work)).1,
      ⟨i, o.content⟩ :: ((h.erase i).releaseAll (o.kids ++ work)).2) := by
  rw [releaseAll]
  split <;> simp_all

/-- An owner that is not the last only goes. -/
lemma releaseAll_more (hget : h.get? i = some o) (hmore : ¬ o.owners ≤ 1) :
    h.releaseAll (some i :: work)
      = (h.modify i fun o => { o with owners := o.owners - 1 }).releaseAll work := by
  rw [releaseAll]
  split <;> simp_all

end Rounds

/-! ### What the operations do to the counts -/

namespace Exact

variable {h : Heap α} {out : Multiset ObjectId} {i : ObjectId}

lemma empty : (Heap.empty : Heap α).Exact 0 where
  distinct := Table.distinct_empty
  lt_next hget := nomatch hget
  count _ := rfl
  pos hget := nomatch hget

/-- The count of a live object. -/
lemma owners_eq (he : h.Exact out) {o : Object α} (hget : h.get? i = some o) :
    o.owners = out.count i + h.kidRefs.count (some i) := by
  rw [← ownerCount_of_get? hget, he.count]

/-- An object is live exactly if some handle points at it. -/
lemma isSome_iff (he : h.Exact out) : (h.get? i).isSome ↔ i ∈ out ∨ some i ∈ h.kidRefs := by
  rw [← Multiset.count_pos, ← List.count_pos_iff]
  have hcount := he.count i
  cases hget : h.get? i with
  | none =>
      rw [ownerCount_of_get?_none hget] at hcount
      simp only [Option.isSome_none, Bool.false_eq_true, false_iff]
      omega
  | some o =>
      have hpos := he.pos hget
      rw [ownerCount_of_get? hget] at hcount
      simp only [Option.isSome_some, true_iff]
      omega

/-- A handle outside of the heap points at a live object. -/
lemma exists_of_mem (he : h.Exact out) (hi : i ∈ out) : ∃ o, h.get? i = some o :=
  Option.isSome_iff_exists.mp (he.isSome_iff.mpr (.inl hi))

/-- The next name points at nothing yet. -/
lemma get?_next (he : h.Exact out) : h.get? h.next = none := by
  cases hget : h.get? h.next with
  | none => rfl
  | some o => exact absurd (he.lt_next hget) (lt_irrefl _)

lemma kidRefs_alloc (he : h.Exact out) (content : α) (kids : List Ref) :
    (h.alloc content kids).1.kidRefs = h.kidRefs ++ kids := by
  have hentries := Table.insert_eq_append he.get?_next ⟨content, kids, 1⟩
  simp only [kidRefs, alloc, hentries, List.flatMap_append, List.flatMap_singleton]

/-- A new object takes over the handles that it is made with, and has the one
owner that is handed out. -/
lemma alloc (content : α) {kids : List Ref} (he : h.Exact (owned kids + out)) :
    (h.alloc content kids).1.Exact (h.next ::ₘ out) where
  distinct := he.distinct.insert _ _
  lt_next {i o} hget := by
    rw [get?_alloc] at hget
    split at hget
    · rename_i hi
      exact hi ▸ Nat.lt_succ_self _
    · exact Nat.lt_succ_of_lt (he.lt_next hget)
  count i := by
    rw [he.kidRefs_alloc, List.count_append, Multiset.count_cons]
    have hcount := he.count i
    rw [Multiset.count_add, count_owned] at hcount
    by_cases hi : i = h.next
    · -- no handle points at a name that was not given yet
      rw [ownerCount_of_get? ((get?_alloc ..).trans (if_pos hi)), if_pos hi]
      rw [ownerCount_of_get?_none (hi ▸ he.get?_next)] at hcount
      simp only
      omega
    · rw [if_neg hi, ownerCount_congr (get?_alloc_of_ne hi content kids)]
      omega
  pos {i o} hget := by
    rw [get?_alloc] at hget
    split at hget
    · cases hget
      exact le_rfl
    · exact he.pos hget

/-- Changing one object keeps the counts right if what it gains and gives up is
taken from the outside or left there. -/
lemma modify (he : h.Exact out) {o : Object α} (hget : h.get? i = some o)
    {f : Object α → Object α} {out' : Multiset ObjectId} (hpos : 1 ≤ (f o).owners)
    (hout : ∀ j, out'.count j + (f o).kids.count (some j) + (if j = i then o.owners else 0)
      = out.count j + o.kids.count (some j) + (if j = i then (f o).owners else 0)) :
    (h.modify i f).Exact out' where
  distinct := he.distinct.modify _ _
  lt_next {j p} hp := by
    rw [get?_modify] at hp
    obtain ⟨q, hq⟩ : ∃ q, h.get? j = some q := by
      split at hp
      · obtain ⟨q, hq, -⟩ := Option.map_eq_some_iff.mp hp
        exact ⟨q, hq⟩
      · exact ⟨p, hp⟩
    exact he.lt_next hq
  count j := by
    have hold := (perm_kidRefs_erase he.distinct hget).count_eq (some j)
    have hnew := (perm_kidRefs_modify he.distinct hget f).count_eq (some j)
    rw [List.count_append] at hold hnew
    have hcount := he.count j
    have hj := hout j
    by_cases hji : j = i
    · subst hji
      rw [ownerCount_of_get? (show (h.modify j f).get? j = some (f o) by simp [get?_modify, hget])]
      rw [ownerCount_of_get? hget] at hcount
      simp only [if_true] at hj
      omega
    · rw [ownerCount_congr (get?_modify_of_ne hji f)]
      simp only [if_neg hji] at hj
      omega
  pos {j p} hp := by
    rw [get?_modify] at hp
    split at hp
    · rename_i hji
      subst hji
      rw [hget] at hp
      cases hp
      exact hpos
    · exact he.pos hp

/-- One more owner of a live object. -/
lemma retain (he : h.Exact out) {o : Object α} (hget : h.get? i = some o) :
    (h.retain (some i)).Exact (i ::ₘ out) := by
  refine he.modify hget (by simp) ?_
  intro j
  rw [Multiset.count_cons]
  by_cases hj : j = i <;> simp only [hj, if_true, if_false] <;> omega

/-- Changing what one object holds, or its content, but not its count. -/
lemma edit (he : h.Exact out) {o : Object α} (hget : h.get? i = some o) {f : Object α → Object α}
    {out' : Multiset ObjectId} (hown : (f o).owners = o.owners)
    (hout : owned (f o).kids + out' = owned o.kids + out) : (h.modify i f).Exact out' := by
  refine he.modify hget (hown ▸ he.pos hget) ?_
  intro j
  have hj := congrArg (Multiset.count j) hout
  rw [Multiset.count_add, Multiset.count_add, count_owned, count_owned] at hj
  rw [hown]
  omega

/-- Dropping an object whose only owner is outside hands out its kids. -/
lemma erase {out : Multiset ObjectId} (he : h.Exact (i ::ₘ out)) {o : Object α}
    (hget : h.get? i = some o) (hlast : o.owners ≤ 1) :
    (h.erase i).Exact (owned o.kids + out) where
  distinct := he.distinct.erase _
  lt_next {j p} hp := by
    rw [get?_erase] at hp
    split at hp
    · cases hp
    · exact he.lt_next hp
  count j := by
    have hold := (perm_kidRefs_erase he.distinct hget).count_eq (some j)
    have hcount := he.count j
    rw [Multiset.count_cons] at hcount
    rw [List.count_append] at hold
    rw [Multiset.count_add, count_owned]
    by_cases hji : j = i
    · -- the count was one, so the dropped handle was the only one
      subst hji
      rw [ownerCount_of_get?_none (by rw [get?_erase, if_pos rfl])]
      rw [ownerCount_of_get? hget, if_pos rfl] at hcount
      omega
    · rw [ownerCount_congr (get?_erase_of_ne hji)]
      rw [if_neg hji] at hcount
      omega
  pos {j p} hp := by
    rw [get?_erase] at hp
    split at hp
    · cases hp
    · exact he.pos hp

/-- One owner less of an object that has others. -/
lemma decrement {out : Multiset ObjectId} (he : h.Exact (i ::ₘ out)) {o : Object α}
    (hget : h.get? i = some o) (hmore : ¬ o.owners ≤ 1) :
    (h.modify i fun o => { o with owners := o.owners - 1 }).Exact out := by
  refine he.modify hget (by simp only; omega) ?_
  intro j
  rw [Multiset.count_cons]
  by_cases hj : j = i <;> simp only [hj, if_true, if_false] <;> omega

end Exact

/-! ### Cascades -/

/-- The rounds of a cascade on a heap with exact counts, where `out` are the
handles outside that are not given up: a round skips an empty handle, drops an
object whose last owner it gives up, or takes one owner from an object that has
more.  No waiting handle dangles. -/
inductive Releases (out : Multiset ObjectId) :
    Heap α → List Ref → Heap α → List (Drop α) → Prop
  | nil {h} : h.Exact out → Releases out h [] h []
  | skip {h work h' drops} : Releases out h work h' drops → Releases out h (none :: work) h' drops
  | last {h i work o h' drops} : h.Exact (i ::ₘ (owned work + out)) → h.get? i = some o →
      o.owners ≤ 1 → Releases out (h.erase i) (o.kids ++ work) h' drops →
      Releases out h (some i :: work) h' (⟨i, o.content⟩ :: drops)
  | more {h i work o h' drops} : h.Exact (i ::ₘ (owned work + out)) → h.get? i = some o →
      ¬ o.owners ≤ 1 →
      Releases out (h.modify i fun o => { o with owners := o.owners - 1 }) work h' drops →
      Releases out h (some i :: work) h' drops

/-- Every cascade on a heap with exact counts consists of such rounds. -/
theorem Exact.releases {h : Heap α} {work : List Ref} {out : Multiset ObjectId}
    (he : h.Exact (owned work + out)) :
    Releases out h work (h.releaseAll work).1 (h.releaseAll work).2 := by
  induction h, work using Heap.releaseAll.induct with
  | case1 h =>
      rw [releaseAll_nil]
      exact .nil (by simpa using he)
  | case2 h work ih =>
      rw [releaseAll_none]
      exact .skip (ih he)
  | case3 h i work hget ih =>
      obtain ⟨o, ho⟩ := he.exists_of_mem (i := i) (by simp)
      rw [hget] at ho
      cases ho
  | case4 h i work o hget hlast _ _ _ ih =>
      rw [releaseAll_last work hget hlast]
      rw [owned_cons_some, Multiset.cons_add] at he
      refine .last he hget hlast (ih ?_)
      rw [owned_append, add_assoc]
      exact he.erase hget hlast
  | case5 h i work o hget hmore ih =>
      rw [releaseAll_more work hget hmore]
      rw [owned_cons_some, Multiset.cons_add] at he
      exact .more he hget hmore (ih (he.decrement hget hmore))

/-- **Counts are exact after every cascade**: whatever is dropped on the way,
the handles outside that were not given up still are all the owners there are. -/
theorem Releases.exact {h h' : Heap α} {work : List Ref} {out : Multiset ObjectId}
    {drops : List (Drop α)} (hr : Releases out h work h' drops) : h'.Exact out := by
  induction hr with
  | nil he => exact he
  | skip _ ih => exact ih
  | last _ _ _ _ ih => exact ih
  | more _ _ _ _ ih => exact ih

end Heap

end ScriptBinding.Shared
