import ScriptBinding.Proofs.Shared.DepthFirst

/-
What one release drops, and in which order.

* `Heap.Cascade`: the least closed set is dropped, each object once, in the
  depth-first order of the kid lists and after all that held it.
* `Exact.cascade`: every release on a heap with exact counts is such a cascade.
* `Heap.Grown`: a heap with more objects and owners, whose old objects hold what
  they held and whose new ones hold new ones only.
* `Cascade.of_grown`: what is made just before a release does not matter to it.
-/
namespace ScriptBinding.Shared.Heap

variable {α : Type} {h h' : Heap α} {r : Ref} {roots : List Ref}

/-- What giving up a handle `r` drops while the handles `roots` remain. -/
structure Cascade (h : Heap α) (roots : List Ref) (r : Ref) (drops : List (Drop α)) : Prop where
  /-- The least closed set is dropped. -/
  least : IsLeast {D | h.Closed roots D} {i | i ∈ drops.map (·.id)}
  /-- Each object is logged once. -/
  once : (drops.map (·.id)).Nodup
  /-- It is logged with what it contained. -/
  logged : ∀ d ∈ drops, ∃ o, h.get? d.id = some o ∧ o.content = d.content
  /-- The object of the handle comes first. -/
  first : ∀ d ∈ drops.head?, r = some d.id
  /-- Something is dropped exactly if the handle is the last one to its object. -/
  last : drops ≠ [] ↔ ∃ i, r = some i ∧ some i ∉ roots ∧ ∀ p, ¬ h.Holds p i
  /-- No dropped object is held by a remaining handle, nor by an object that is
  not dropped before it. -/
  held : ∀ i ∈ drops.map (·.id), some i ∉ roots ∧ ∀ p, h.Holds p i →
    (drops.map (·.id)).idxOf p < (drops.map (·.id)).idxOf i
  /-- Cycles are never dropped. -/
  acyclic : ∀ i ∈ drops.map (·.id), ¬ Relation.TransGen h.Holds i i
  /-- The order is depth first. -/
  order : h.DepthFirst (drops.map (·.id))

/-- **Every release on a heap with exact counts is a cascade.** -/
theorem Exact.cascade (he : h.Exact (owned [r] + owned roots)) :
    h.Cascade roots r (h.release r).2 := by
  have hr : Releases (owned roots) h [r] (h.release r).1 (h.release r).2 := he.releases
  have hheld : ∀ i ∈ (h.release r).2.map (·.id), some i ∉ roots ∧ ∀ p, h.Holds p i →
      ((h.release r).2.map (·.id)).idxOf p < ((h.release r).2.map (·.id)).idxOf i := fun i hi =>
    (hr.held i hi).imp_left fun hroot hmem => hroot (mem_owned.mpr hmem)
  exact
    { least := ⟨hr.closed he, fun D hD => subset_of_closed hD (fun i hi => hr.isSome hi) hheld⟩
      once := hr.nodup he
      logged := hr.logged
      first := hr.first
      last := hr.ne_nil_iff he
      held := hheld
      acyclic := fun i hi hcycle =>
        lt_irrefl _ (idxOf_lt_of_transGen (fun j hj => (hheld j hj).2) hi hcycle)
      order := hr.depthFirst he }

/-! ### Heaps that have grown -/

/-- Objects were made and owners added: old objects contain and hold what they
did, and new ones hold only new ones. -/
structure Grown (h h' : Heap α) : Prop where
  old : ∀ {i o}, h.get? i = some o → ∃ o', h'.get? i = some o' ∧ o'.content = o.content ∧
    o'.kids = o.kids
  new : ∀ {p i}, h.get? p = none → h'.Holds p i → h.get? i = none

namespace Grown

lemma refl (h : Heap α) : h.Grown h where
  old hget := ⟨_, hget, rfl, rfl⟩
  new hnone hp := by
    obtain ⟨o, ho, -⟩ := hp
    rw [hnone] at ho
    cases ho

/-- An object that is not there later was not there before. -/
lemma get?_eq_none (hg : h.Grown h') {i : ObjectId} (hnone : h'.get? i = none) :
    h.get? i = none := by
  cases hget : h.get? i with
  | none => rfl
  | some o =>
      obtain ⟨o', ho', -⟩ := hg.old hget
      rw [hnone] at ho'
      cases ho'

/-- An old object holds what it held. -/
lemma kids_eq (hg : h.Grown h') {p : ObjectId} (hp : (h.get? p).isSome) :
    (h'.get? p).map (·.kids) = (h.get? p).map (·.kids) := by
  obtain ⟨o, ho⟩ := Option.isSome_iff_exists.mp hp
  obtain ⟨o', ho', -, hkids⟩ := hg.old ho
  rw [ho, ho', Option.map_some, Option.map_some, hkids]

/-- An old object is held by those that held it. -/
lemma holds_iff (hg : h.Grown h') {p i : ObjectId} (hi : (h.get? i).isSome) :
    h'.Holds p i ↔ h.Holds p i := by
  cases hget : h.get? p with
  | some o => exact holds_congr (hg.kids_eq (by rw [hget]; rfl))
  | none =>
      constructor
      · intro hp
        rw [hg.new hget hp] at hi
        cases hi
      · rintro ⟨o, ho, -⟩
        rw [hget] at ho
        cases ho

/-- Other owners. -/
lemma recount (hg : h.Grown h') (i : ObjectId) (n : Nat → Nat) :
    h.Grown (h'.modify i fun o => { o with owners := n o.owners }) where
  old hget := by
    obtain ⟨o', ho', hcontent, hkids⟩ := hg.old hget
    rw [get?_modify, ho']
    split
    · exact ⟨_, rfl, hcontent, hkids⟩
    · exact ⟨o', rfl, hcontent, hkids⟩
  new hnone hp := hg.new hnone ((holds_congr (get?_modify_kids h' i _ n)).mp hp)

lemma retain (hg : h.Grown h') (r : Ref) : h.Grown (h'.retain r) := by
  cases r with
  | none => exact hg
  | some i => exact hg.recount i (· + 1)

/-- A new object that holds nothing old. -/
lemma alloc (hg : h.Grown h') (hnext : h'.get? h'.next = none) (content : α) {kids : List Ref}
    (hkids : ∀ i, some i ∈ kids → h.get? i = none) : h.Grown (h'.alloc content kids).1 where
  old {i o} hget := by
    obtain ⟨o', ho', hsame⟩ := hg.old hget
    have hne : i ≠ h'.next := by
      rintro rfl
      rw [hnext] at ho'
      cases ho'
    exact ⟨o', (get?_alloc_of_ne hne content kids).trans ho', hsame⟩
  new {p i} hnone hp := by
    obtain ⟨o, ho, hmem⟩ := hp
    rw [get?_alloc] at ho
    split at ho
    · cases ho
      exact hkids i hmem
    · exact hg.new hnone ⟨o, ho, hmem⟩

end Grown

/-- Every object that is dropped is that of the handle, or was held by a dropped
one. -/
lemma Cascade.reached {drops : List (Drop α)} (hc : h.Cascade roots r drops) :
    ∀ i ∈ drops.map (·.id), r = some i ∨ ∃ p ∈ drops.map (·.id), h.Holds p i := by
  intro i hi
  obtain ⟨path, -, hpath⟩ := hc.order
  cases drops with
  | nil => cases hi
  | cons d ds =>
      rcases List.mem_cons.mp hi with rfl | hrest
      · exact .inl (hc.first d rfl)
      · obtain ⟨p, hp, o, k, ho, hk, -⟩ := ((hpath _ _ rfl).2 i hrest).1
        exact .inr ⟨p, hp, o, ho, List.mem_of_getElem? hk⟩

/-- Whatever is dropped was there before the heap grew, if the object of the
handle was. -/
lemma Cascade.isSome_of_grown {drops : List (Drop α)} (hc : h'.Cascade roots r drops)
    (hg : h.Grown h') (hold : ∀ i, r = some i → (h.get? i).isSome)
    (hkids : ∀ p i, h.Holds p i → (h.get? i).isSome) :
    ∀ i ∈ drops.map (·.id), (h.get? i).isSome := by
  -- by induction on the position in the log
  have hall : ∀ n, ∀ i ∈ drops.map (·.id), (drops.map (·.id)).idxOf i = n →
      (h.get? i).isSome := by
    intro n
    induction n using Nat.strong_induction_on with
    | _ n ih =>
        intro i hi hn
        rcases hc.reached i hi with hri | ⟨p, hp, hpi⟩
        · exact hold i hri
        · have hlt := (hc.held i hi).2 p hpi
          have hlive := ih _ (hn ▸ hlt) p hp rfl
          exact hkids p i ((holds_congr (hg.kids_eq hlive)).mp hpi)
  exact fun i hi => hall _ i hi rfl

/-- **What is made just before a release does not matter to it**, if the handle
is old. -/
theorem Cascade.of_grown {drops : List (Drop α)} {roots' : List Ref}
    (hc : h'.Cascade roots' r drops) (hg : h.Grown h')
    (hold : ∀ i, r = some i → (h.get? i).isSome) (hkids : ∀ p i, h.Holds p i → (h.get? i).isSome)
    (hroots : ∀ i, (h.get? i).isSome → (some i ∈ roots' ↔ some i ∈ roots)) :
    h.Cascade roots r drops := by
  have hlive := hc.isSome_of_grown hg hold hkids
  have hheld : ∀ i ∈ drops.map (·.id), some i ∉ roots ∧ ∀ p, h.Holds p i →
      (drops.map (·.id)).idxOf p < (drops.map (·.id)).idxOf i := fun i hi =>
    ⟨fun hroot => (hc.held i hi).1 ((hroots i (hlive i hi)).mpr hroot),
      fun p hp => (hc.held i hi).2 p ((hg.holds_iff (hlive i hi)).mpr hp)⟩
  refine
    { least := ⟨fun i hi hroot hp => ?_, fun D hD => subset_of_closed hD hlive hheld⟩
      once := hc.once
      logged := fun d hd => ?_
      first := hc.first
      last := hc.last.trans (exists_congr fun i => and_congr_right fun hri => ?_)
      held := hheld
      acyclic := fun i hi hcycle =>
        lt_irrefl _ (idxOf_lt_of_transGen (fun j hj => (hheld j hj).2) hi hcycle)
      order := ?_ }
  · obtain ⟨o, ho⟩ := Option.isSome_iff_exists.mp hi
    obtain ⟨o', ho', -⟩ := hg.old ho
    refine hc.least.1 i (Option.isSome_iff_exists.mpr ⟨o', ho'⟩) ?_ fun p hp' => ?_
    · exact fun hmem => hroot ((hroots i hi).mp hmem)
    · exact hp p ((hg.holds_iff hi).mp hp')
  · obtain ⟨o, ho⟩ := Option.isSome_iff_exists.mp (hlive d.id (List.mem_map.mpr ⟨d, hd, rfl⟩))
    obtain ⟨o', ho', hcontent, -⟩ := hg.old ho
    obtain ⟨q, hq, hlogged⟩ := hc.logged d hd
    rw [ho'] at hq
    cases hq
    exact ⟨o, ho, hcontent ▸ hlogged⟩
  · exact and_congr (not_congr (hroots i (hold i hri)))
      (forall_congr' fun p => not_congr (hg.holds_iff (hold i hri)))
  · obtain ⟨path, hsorted, hpath⟩ := hc.order
    refine ⟨path, hsorted, fun top rest hlog => ?_⟩
    obtain ⟨htop, hrest⟩ := hpath top rest hlog
    refine ⟨htop, fun i hi => ?_⟩
    have hgreatest := hrest i hi
    rwa [places_congr path fun p hp => hg.kids_eq (hlive p hp)] at hgreatest

end ScriptBinding.Shared.Heap
