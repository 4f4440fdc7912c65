import Mathlib.Data.List.Lex
import Mathlib.Order.Bounds.Basic
import ScriptBinding.Proofs.Shared.Holders

/-
The order of a cascade is depth first.

* `Heap.DepthFirst`: a log in the depth-first order of the kid lists, an object
  standing where the last handle to it is met.
* `Heap.Ordered`: the same for a cascade that other handles wait for; `skip`,
  `more`, `last` are its rounds.
* `Releases.ordered`, `Releases.depthFirst`: all rounds, and one release.
-/
namespace ScriptBinding.Shared.Heap

variable {α : Type}

/-- The places of the handles to an object that logged objects hold: the path of
the holder, and then the position in its kid list. -/
def places (h : Heap α) (log : List ObjectId) (path : ObjectId → List Nat) (i : ObjectId) :
    Set (List Nat) :=
  {π | ∃ p ∈ log, ∃ o k, h.get? p = some o ∧ o.kids[k]? = some (some i) ∧ π = path p ++ [k]}

/-- A log in the depth-first order of the kid lists.  Each object has a path from
the first one, by way of the last of the handles to it, and the log is in the
lexicographic order of the paths. -/
def DepthFirst (h : Heap α) (log : List ObjectId) : Prop :=
  ∃ path : ObjectId → List Nat, log.Pairwise (path · < path ·) ∧
    ∀ top rest, log = top :: rest →
      path top = [] ∧ ∀ i ∈ rest, IsGreatest (h.places log path i) (path i)

/-! ### Paths -/

/-- A path that branches off to the left of another one. -/
def LeftOf (π ρ : List Nat) : Prop :=
  ∃ c a x b y, π = c ++ a :: x ∧ ρ = c ++ b :: y ∧ a < b

/-- Paths stay apart when they are continued. -/
lemma LeftOf.append {π ρ : List Nat} (hl : LeftOf π ρ) (x y : List Nat) :
    LeftOf (π ++ x) (ρ ++ y) := by
  obtain ⟨c, a, x', b, y', rfl, rfl, hab⟩ := hl
  exact ⟨c, a, x' ++ x, b, y' ++ y, by simp, by simp, hab⟩

lemma LeftOf.lt {π ρ : List Nat} (hl : LeftOf π ρ) : π < ρ := by
  obtain ⟨c, a, x, b, y, rfl, rfl, hab⟩ := hl
  exact List.append_left_lt (List.cons_lt_cons_iff.mpr (.inl hab))

/-- Whatever lies under a path comes after those to the left of it. -/
lemma LeftOf.lt_of_extends {π ρ σ : List Nat} (hl : LeftOf π ρ) (hσ : ρ <+: σ) : π < σ := by
  obtain ⟨x, rfl⟩ := hσ
  have happend := (hl.append [] x).lt
  rwa [List.append_nil] at happend

lemma lt_of_extends_snoc {π σ : List Nat} {k : Nat} (hσ : π ++ [k] <+: σ) : π < σ := by
  obtain ⟨x, rfl⟩ := hσ
  have hlt : π ++ [] < π ++ (k :: x) := List.append_left_lt (List.nil_lt_cons k x)
  simpa using hlt

/-- The positions in one kid list branch off in their order. -/
lemma leftOf_snoc (π : List Nat) {k l : Nat} (hkl : k < l) : LeftOf (π ++ [k]) (π ++ [l]) :=
  ⟨π, k, [], l, [], rfl, rfl, hkl⟩

/-! ### Waiting handles -/

section Cascades

variable {h h' : Heap α} {work : List Ref} {out : Multiset ObjectId} {drops : List (Drop α)}

/-- The places of handles depend on the kid lists only. -/
lemma places_congr {g : Heap α} {j : ObjectId} {log : List ObjectId} (path : ObjectId → List Nat)
    (hkids : ∀ p ∈ log, (g.get? p).map (·.kids) = (h.get? p).map (·.kids)) :
    g.places log path j = h.places log path j := by
  have hiff : ∀ f : Heap α, ∀ π, π ∈ f.places log path j ↔ ∃ p ∈ log, ∃ kids k,
      (f.get? p).map (·.kids) = some kids ∧ kids[k]? = some (some j) ∧ π = path p ++ [k] := by
    intro f π
    simp [places]
  ext π
  rw [hiff, hiff]
  exact exists_congr fun p => and_congr_right fun hp => by rw [hkids p hp]

/-- The log of a cascade whose waiting handles have paths: every dropped object
lies under a waiting handle, at the last of the places where a handle to it is
met, and paths ascend. -/
structure Ordered (h : Heap α) (waiting : List (List Nat × Ref)) (log : List ObjectId)
    (path : ObjectId → List Nat) : Prop where
  under : ∀ i ∈ log, ∃ w ∈ waiting, w.1 <+: path i
  sorted : log.Pairwise (path · < path ·)
  greatest : ∀ i ∈ log, IsGreatest ({π | (π, some i) ∈ waiting} ∪ h.places log path i) (path i)

/-- The kids of an object with their paths. -/
def branches (π : List Nat) (kids : List Ref) : List (List Nat × Ref) :=
  kids.zipIdx.map fun x => (π ++ [x.2], x.1)

lemma mem_branches {π ρ : List Nat} {kids : List Ref} {r : Ref} :
    (ρ, r) ∈ branches π kids ↔ ∃ k, kids[k]? = some r ∧ ρ = π ++ [k] := by
  simp only [branches, List.mem_map, List.mem_zipIdx_iff_getElem?, Prod.exists, Prod.mk.injEq]
  constructor
  · rintro ⟨r', k, hk, rfl, rfl⟩
    exact ⟨k, hk, rfl⟩
  · rintro ⟨k, hk, rfl⟩
    exact ⟨r, k, hk, rfl, rfl⟩

lemma branches_map_snd (π : List Nat) (kids : List Ref) : (branches π kids).map (·.2) = kids := by
  rw [branches, List.map_map]
  exact List.zipIdx_map_fst 0 kids

/-- The branches go from left to right. -/
lemma pairwise_branches (π : List Nat) (kids : List Ref) :
    (branches π kids).Pairwise (LeftOf ·.1 ·.1) := by
  have hidx : (kids.zipIdx.map Prod.snd).Pairwise (· < ·) := by
    rw [List.zipIdx_map_snd]
    exact List.pairwise_lt_range'
  rw [List.pairwise_map] at hidx
  exact List.pairwise_map.mpr (hidx.imp fun hkl => leftOf_snoc π hkl)

/-- The places of the handles to an object once another one is logged before all
others. -/
lemma places_cons {i j : ObjectId} {o : Object α} {log : List ObjectId}
    (hget : h.get? i = some o) (hi : i ∉ log) {path path' : ObjectId → List Nat}
    (hpath : ∀ p ∈ log, path p = path' p) :
    h.places (i :: log) path j
      = {π | (π, some j) ∈ branches (path i) o.kids} ∪ (h.erase i).places log path' j := by
  have herase : ∀ p ∈ log, (h.erase i).get? p = h.get? p := by
    intro p hp
    refine get?_erase_of_ne ?_
    rintro rfl
    exact hi hp
  ext π
  simp only [places, List.exists_mem_cons_iff, Set.mem_ofPred_eq, Set.mem_union, mem_branches]
  refine or_congr ?_ (exists_congr fun p => and_congr_right fun hp => ?_)
  · rw [hget]
    simp
  · rw [herase p hp, hpath p hp]

namespace Ordered

variable {waiting : List (List Nat × Ref)} {log : List ObjectId} {path : ObjectId → List Nat}
  {i : ObjectId} {o : Object α} {π : List Nat}

/-- An empty handle that waits has no place in the order. -/
lemma skip (hp : h.Ordered waiting log path) (π : List Nat) :
    h.Ordered ((π, none) :: waiting) log path where
  under j hj := by
    obtain ⟨w, hw, hunder⟩ := hp.under j hj
    exact ⟨w, List.mem_cons_of_mem _ hw, hunder⟩
  sorted := hp.sorted
  greatest j hj := by
    have hsame : {ρ | (ρ, some j) ∈ (π, none) :: waiting} = {ρ | (ρ, some j) ∈ waiting} := by
      simp
    rw [hsame]
    exact hp.greatest j hj

/-- A handle that is not the last to its object has no place in the order: the
object, if it is dropped at all, lies further right. -/
lemma more {n : Nat → Nat}
    (hp : (h.modify i fun o => { o with owners := n o.owners }).Ordered waiting log path)
    (hleft : ∀ w ∈ waiting, LeftOf π w.1) : h.Ordered ((π, some i) :: waiting) log path where
  under j hj := by
    obtain ⟨w, hw, hunder⟩ := hp.under j hj
    exact ⟨w, List.mem_cons_of_mem _ hw, hunder⟩
  sorted := hp.sorted
  greatest j hj := by
    have hgreatest := hp.greatest j hj
    rw [places_congr path fun p _ => get?_modify_kids h i p n] at hgreatest
    refine ⟨hgreatest.1.imp_left (List.mem_cons_of_mem _), ?_⟩
    rintro ρ (hρ | hρ)
    · rcases List.mem_cons.mp hρ with hρ | hρ
      · obtain ⟨w, hw, hunder⟩ := hp.under j hj
        rw [(Prod.mk.inj hρ).1]
        exact ((hleft w hw).lt_of_extends hunder).le
      · exact hgreatest.2 (.inl hρ)
    · exact hgreatest.2 (.inr hρ)

/-- Under an object that is dropped lies what its kids drop, and the rest lies to
the right of it. -/
lemma above (hp : (h.erase i).Ordered (branches π o.kids ++ waiting) log path)
    (hleft : ∀ w ∈ waiting, LeftOf π w.1) {j : ObjectId} (hj : j ∈ log) :
    π < path j ∧ ∃ w ∈ (π, some i) :: waiting, w.1 <+: path j := by
  obtain ⟨⟨ρ, r⟩, hw, hunder⟩ := hp.under j hj
  rcases List.mem_append.mp hw with hw | hw
  · obtain ⟨k, -, rfl⟩ := mem_branches.mp hw
    exact ⟨lt_of_extends_snoc hunder, _, List.mem_cons_self ..,
      (List.prefix_append π [k]).trans hunder⟩
  · exact ⟨(hleft _ hw).lt_of_extends hunder, _, List.mem_cons_of_mem _ hw, hunder⟩

/-- The last handle to an object puts it where it was waiting, before all that
its kids drop. -/
lemma last (hp : (h.erase i).Ordered (branches π o.kids ++ waiting) log path)
    (hleft : ∀ w ∈ waiting, LeftOf π w.1) (hget : h.get? i = some o) (hi : i ∉ log)
    (hwaiting : ∀ ρ, (ρ, some i) ∉ waiting) (hheld : ∀ p, ¬ h.Holds p i) :
    h.Ordered ((π, some i) :: waiting) (i :: log) (Function.update path i π) := by
  have hne : ∀ j ∈ log, j ≠ i := fun j hj hji => hi (hji ▸ hj)
  have hself : Function.update path i π i = π := Function.update_self i π path
  have hother : ∀ j ∈ log, Function.update path i π j = path j :=
    fun j hj => Function.update_of_ne (hne j hj) π path
  refine ⟨fun j hj => ?_, List.pairwise_cons.mpr ⟨fun j hj => ?_, ?_⟩, fun j hj => ?_⟩
  · rcases List.mem_cons.mp hj with rfl | hj
    · exact ⟨(π, some j), List.mem_cons_self .., hself.symm ▸ List.prefix_rfl⟩
    · rw [hother j hj]
      exact (hp.above hleft hj).2
  · rw [hself, hother j hj]
    exact (hp.above hleft hj).1
  · exact hp.sorted.imp_of_mem fun ha hb hab => by rwa [hother _ ha, hother _ hb]
  · rcases List.mem_cons.mp hj with rfl | hj
    · -- no other handle to it is left
      rw [hself]
      refine ⟨.inl (List.mem_cons_self ..), ?_⟩
      rintro ρ (hρ | ⟨p, -, q, k, hq, hk, -⟩)
      · rcases List.mem_cons.mp hρ with hρ | hρ
        · rw [(Prod.mk.inj hρ).1]
        · exact absurd hρ (hwaiting ρ)
      · exact absurd ⟨q, hq, List.mem_of_getElem? hk⟩ (hheld p)
    · have hsame : {ρ | (ρ, some j) ∈ (π, some i) :: waiting}
            ∪ h.places (i :: log) (Function.update path i π) j
          = {ρ | (ρ, some j) ∈ branches π o.kids ++ waiting} ∪ (h.erase i).places log path j := by
        rw [places_cons hget hi hother, hself]
        ext ρ
        have hji := hne j hj
        simp only [Set.mem_union, Set.mem_ofPred_eq, List.mem_cons, List.mem_append,
          Prod.mk.injEq, Option.some_inj, hji, and_false, false_or]
        tauto
      rw [hsame, hother j hj]
      exact hp.greatest j hj

end Ordered

/-- **The order of a cascade**: from the paths of the waiting handles, which go
from left to right, to those of the dropped objects. -/
theorem Releases.ordered (hr : Releases out h work h' drops) (waiting : List (List Nat × Ref))
    (hwork : waiting.map (·.2) = work) (hleft : waiting.Pairwise (LeftOf ·.1 ·.1)) :
    ∃ path, h.Ordered waiting (drops.map (·.id)) path := by
  induction hr generalizing waiting with
  | nil _ =>
      refine ⟨fun _ => [], ?_, List.Pairwise.nil, ?_⟩ <;> (intro i hi; cases hi)
  | skip _ ih =>
      obtain ⟨⟨π, r⟩, waiting, rfl, rfl, rfl⟩ := List.map_eq_cons_iff.mp hwork
      obtain ⟨path, hp⟩ := ih waiting rfl (List.pairwise_cons.mp hleft).2
      exact ⟨path, hp.skip π⟩
  | @last h i work o h' drops he hget hlast hrest ih =>
      obtain ⟨⟨π, r⟩, waiting, rfl, hr, rfl⟩ := List.map_eq_cons_iff.mp hwork
      subst hr
      obtain ⟨hhead, htail⟩ := List.pairwise_cons.mp hleft
      obtain ⟨hout, hheld⟩ := he.only hget hlast
      have hbranches : (branches π o.kids ++ waiting).Pairwise (LeftOf ·.1 ·.1) := by
        refine List.pairwise_append.mpr ⟨pairwise_branches π _, htail, ?_⟩
        rintro ⟨ρ, r⟩ hw v hv
        obtain ⟨k, -, rfl⟩ := mem_branches.mp hw
        have happend := (hhead v hv).append [k] []
        rwa [List.append_nil] at happend
      obtain ⟨path, hp⟩ := ih (branches π o.kids ++ waiting)
        (by rw [List.map_append, branches_map_snd]) hbranches
      refine ⟨_, hp.last hhead hget (fun hi => hrest.ne_of_erase hi rfl) (fun ρ hρ => ?_) hheld⟩
      exact hout (Multiset.mem_add.mpr (.inl (mem_owned.mpr (List.mem_map.mpr ⟨_, hρ, rfl⟩))))
  | @more h i work o h' drops he hget hmore hrest ih =>
      obtain ⟨⟨π, r⟩, waiting, rfl, hr, rfl⟩ := List.map_eq_cons_iff.mp hwork
      subst hr
      obtain ⟨hhead, htail⟩ := List.pairwise_cons.mp hleft
      obtain ⟨path, hp⟩ := ih waiting rfl htail
      exact ⟨path, Ordered.more (n := (· - 1)) hp hhead⟩

/-- The order of a release is depth first. -/
lemma Releases.depthFirst {r : Ref} (hr : Releases out h [r] h' drops)
    (he : h.Exact (owned [r] + out)) : h.DepthFirst (drops.map (·.id)) := by
  obtain ⟨path, hpath⟩ := hr.ordered [([], r)] rfl (List.pairwise_singleton _ _)
  refine ⟨path, hpath.sorted, fun top rest hlog => ?_⟩
  have hheld := hr.not_holds_first hlog
  have hnodup := hr.nodup he
  obtain ⟨d, ds, rfl, rfl, rfl⟩ := List.map_eq_cons_iff.mp hlog
  have htop : r = some d.id := hr.first d rfl
  subst htop
  refine ⟨?_, fun i hi => ?_⟩
  · rcases (hpath.greatest d.id (List.mem_cons_self ..)).1 with hmem | ⟨p, -, q, k, hq, hk, -⟩
    · exact (Prod.mk.inj (List.mem_singleton.mp hmem)).1
    · exact absurd ⟨q, hq, List.mem_of_getElem? hk⟩ (hheld p)
  · have hne : i ≠ d.id := by
      rintro rfl
      exact (List.nodup_cons.mp hnodup).1 hi
    have hnone : {π : List Nat | (π, some i) ∈ [([], some d.id)]} = ∅ := by
      ext π
      simp [hne]
    have hgreatest := hpath.greatest i (List.mem_cons_of_mem _ hi)
    rwa [hnone, Set.empty_union] at hgreatest

end Cascades

end ScriptBinding.Shared.Heap
