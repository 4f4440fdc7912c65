import Mathlib.Logic.Relation
import ScriptBinding.Proofs.Shared.Moves

/-
Who holds what, and what a cascade does about it.

* `Heap.Holds`: a live object has a handle to another one in its kid list.
* `Heap.Closed`: a set contains every live object that only its members hold.
* `Releases.held`: whatever holds a dropped object is dropped before it.
* `Releases.closed`, `subset_of_closed`: what one release drops is closed, and is
  within every closed set.
* `Releases.logged`, `Releases.survives`: contents and kid lists stay.
-/
namespace ScriptBinding.Shared.Heap

variable {α : Type}

/-- A live object has a handle to another one in its kid list. -/
def Holds (h : Heap α) (p i : ObjectId) : Prop :=
  ∃ o, h.get? p = some o ∧ some i ∈ o.kids

/-- A set that contains every live object whose handles, but for one that is
given up, are all in the kid lists of its members; `roots` are the handles
outside of kid lists that remain. -/
def Closed (h : Heap α) (roots : List Ref) (D : Set ObjectId) : Prop :=
  ∀ i, (h.get? i).isSome → some i ∉ roots → (∀ p, h.Holds p i → p ∈ D) → i ∈ D

/-! ### One round -/

section Rounds

variable {h h' : Heap α} {i j p : ObjectId} {o : Object α} {work : List Ref}
  {out : Multiset ObjectId} {drops : List (Drop α)}

/-- An object counted differently holds what it held. -/
lemma get?_modify_kids (h : Heap α) (i p : ObjectId) (n : Nat → Nat) :
    ((h.modify i fun o => { o with owners := n o.owners }).get? p).map (·.kids)
      = (h.get? p).map (·.kids) := by
  rw [get?_modify]
  split
  · cases h.get? p <;> rfl
  · rfl

/-- Who holds what depends on the kid lists only. -/
lemma holds_congr {g : Heap α} (hkids : (g.get? p).map (·.kids) = (h.get? p).map (·.kids)) :
    g.Holds p j ↔ h.Holds p j := by
  have hiff : ∀ f : Heap α, f.Holds p j ↔ ∃ kids, (f.get? p).map (·.kids) = some kids ∧
      some j ∈ kids := fun f => by simp [Holds]
  rw [hiff, hiff, hkids]

/-- What an object that goes does not hold is held by the others. -/
lemma Holds.of_ne (hp : h.Holds p j) (hne : p ≠ i) : (h.erase i).Holds p j := by
  obtain ⟨q, hq, hj⟩ := hp
  exact ⟨q, (get?_erase_of_ne hne).trans hq, hj⟩

/-- The object of the only handle is held by nothing else. -/
lemma Exact.only (he : h.Exact (i ::ₘ out)) (hget : h.get? i = some o) (hlast : o.owners ≤ 1) :
    i ∉ out ∧ ∀ p, ¬ h.Holds p i := by
  have hcount := he.owners_eq hget
  rw [Multiset.count_cons_self] at hcount
  constructor
  · intro hi
    have hpos := Multiset.count_pos.mpr hi
    omega
  · rintro p ⟨q, hq, hi⟩
    have hpos := List.count_pos_iff.mpr ((mem_kidRefs he.distinct).mpr ⟨p, q, hq, hi⟩)
    omega

/-- What a cascade drops was live. -/
lemma Releases.isSome (hr : Releases out h work h' drops) (hj : j ∈ drops.map (·.id)) :
    (h.get? j).isSome := by
  rw [← mem_names, ← hr.names]
  exact Multiset.mem_add.mpr (.inr hj)

/-- What is dropped after an object is another one. -/
lemma Releases.ne_of_erase (hr : Releases out (h.erase i) work h' drops)
    (hj : j ∈ drops.map (·.id)) : j ≠ i := by
  rintro rfl
  have hlive := hr.isSome hj
  rw [get?_erase, if_pos rfl] at hlive
  cases hlive

end Rounds

/-! ### Every round -/

section Cascades

variable {h h' : Heap α} {work : List Ref} {out : Multiset ObjectId} {drops : List (Drop α)}

/-- No object is dropped twice in a cascade. -/
lemma Releases.nodup (hr : Releases out h work h' drops) (he : h.Exact (owned work + out)) :
    (drops.map (·.id)).Nodup :=
  Multiset.coe_nodup.mp ((Moves.release hr).nodup_dropped he)

/-- An object is logged with what it contained. -/
lemma Releases.logged (hr : Releases out h work h' drops) :
    ∀ d ∈ drops, ∃ o, h.get? d.id = some o ∧ o.content = d.content := by
  induction hr with
  | nil _ => intro d hd; cases hd
  | skip _ ih => exact ih
  | @last h i work o h' drops _ hget _ _ ih =>
      intro d hd
      rcases List.mem_cons.mp hd with rfl | hd
      · exact ⟨o, hget, rfl⟩
      · obtain ⟨q, hq, hcontent⟩ := ih d hd
        rw [get?_erase] at hq
        split at hq
        · cases hq
        · exact ⟨q, hq, hcontent⟩
  | @more h i work o h' drops _ _ _ _ ih =>
      intro d hd
      obtain ⟨q, hq, hcontent⟩ := ih d hd
      rw [get?_modify] at hq
      split at hq
      · obtain ⟨q', hq', rfl⟩ := Option.map_eq_some_iff.mp hq
        exact ⟨q', hq', hcontent⟩
      · exact ⟨q, hq, hcontent⟩

/-- An object that is not dropped keeps its content and what it holds. -/
lemma Releases.survives (hr : Releases out h work h' drops) {i : ObjectId} {o : Object α}
    (hget : h.get? i = some o) (hi : i ∉ drops.map (·.id)) :
    ∃ o', h'.get? i = some o' ∧ o'.content = o.content ∧ o'.kids = o.kids := by
  induction hr generalizing o with
  | nil _ => exact ⟨o, hget, rfl, rfl⟩
  | skip _ ih => exact ih hget hi
  | @last h j work _ h' drops _ _ _ _ ih =>
      rw [List.map_cons, List.mem_cons, not_or] at hi
      exact ih ((get?_erase_of_ne hi.1).trans hget) hi.2
  | @more h j work _ h' drops _ _ _ _ ih =>
      by_cases hij : i = j
      · subst hij
        have hnow : (h.modify i fun o => { o with owners := o.owners - 1 }).get? i
            = some { o with owners := o.owners - 1 } := by
          rw [get?_modify, if_pos rfl, hget]
          rfl
        obtain ⟨o', ho', hcontent, hkids⟩ := ih hnow hi
        exact ⟨o', ho', hcontent, hkids⟩
      · exact ih ((get?_modify_of_ne hij _).trans hget) hi

/-- **Holders go first**: whatever holds a dropped object is dropped before it,
and nothing outside holds it. -/
theorem Releases.held (hr : Releases out h work h' drops) : ∀ i ∈ drops.map (·.id),
    i ∉ out ∧ ∀ p, h.Holds p i → (drops.map (·.id)).idxOf p < (drops.map (·.id)).idxOf i := by
  induction hr with
  | nil _ => intro i hi; cases hi
  | skip _ ih => exact ih
  | @last h i work o h' drops he hget hlast hrest ih =>
      have honly := he.only hget hlast
      intro j hj
      rw [List.map_cons]
      rcases List.mem_cons.mp hj with rfl | hj
      · -- the object of the last handle has no holder at all
        refine ⟨fun hmem => honly.1 (Multiset.mem_add.mpr (.inr hmem)), fun p hp => ?_⟩
        exact absurd hp (honly.2 p)
      · obtain ⟨hout, hbefore⟩ := ih j hj
        have hji := hrest.ne_of_erase hj
        refine ⟨hout, fun p hp => ?_⟩
        rw [List.idxOf_cons_ne _ hji.symm]
        by_cases hpi : p = i
        · rw [hpi, List.idxOf_cons_self]
          exact Nat.succ_pos _
        · rw [List.idxOf_cons_ne _ (Ne.symm hpi)]
          exact Nat.succ_lt_succ (hbefore p (hp.of_ne hpi))
  | @more h i work o h' drops _ _ _ _ ih =>
      intro j hj
      obtain ⟨hout, hbefore⟩ := ih j hj
      refine ⟨hout, fun p hp => hbefore p ?_⟩
      exact (holds_congr (get?_modify_kids h i p (· - 1))).mpr hp

end Cascades

/-! ### One release -/

section One

variable {h h' : Heap α} {r : Ref} {roots : List Ref} {out : Multiset ObjectId}
  {drops : List (Drop α)}

/-- The object of the released handle comes first. -/
lemma Releases.first (hr : Releases out h [r] h' drops) : ∀ d ∈ drops.head?, r = some d.id := by
  cases hr with
  | skip hrest => cases hrest; intro d hd; cases hd
  | last _ _ _ _ =>
      rintro d hd
      cases hd
      rfl
  | more _ _ _ hrest => cases hrest; intro d hd; cases hd

/-- What is left at the end was there, and is not dropped. -/
lemma Releases.left {work : List Ref} (hr : Releases out h work h' drops)
    (he : h.Exact (owned work + out)) {p : ObjectId} {q : Object α} (hq : h'.get? p = some q) :
    p ∉ drops.map (·.id) ∧ ∃ o, h.get? p = some o ∧ q.kids = o.kids := by
  have hlive : (h'.get? p).isSome := by rw [hq]; rfl
  have hnot : p ∉ drops.map (·.id) := fun hp =>
    (((Moves.release hr).mem_dropped_iff he).mp hp).2 hlive
  have hold : p ∈ h.names := by
    rw [← hr.names]
    exact Multiset.mem_add.mpr (.inl (mem_names.mpr hlive))
  obtain ⟨o, ho⟩ := Option.isSome_iff_exists.mp (mem_names.mp hold)
  obtain ⟨q', hq', -, hkids⟩ := hr.survives ho hnot
  rw [hq] at hq'
  cases hq'
  exact ⟨hnot, o, ho, hkids⟩

/-- What is dropped is closed: all that is left is held by a root or by something
that is left. -/
lemma Releases.closed (hr : Releases (owned roots) h [r] h' drops)
    (he : h.Exact (owned [r] + owned roots)) : h.Closed roots {i | i ∈ drops.map (·.id)} := by
  intro i hlive hroot hheld
  by_contra hi
  obtain ⟨o, ho⟩ := Option.isSome_iff_exists.mp hlive
  obtain ⟨o', ho', -, -⟩ := hr.survives ho hi
  rcases hr.exact.isSome_iff.mp (Option.isSome_iff_exists.mpr ⟨o', ho'⟩) with hmem | hkid
  · exact hroot (mem_owned.mp hmem)
  · obtain ⟨p, q', hq', hkids⟩ := (mem_kidRefs hr.exact.distinct).mp hkid
    obtain ⟨hp, q, hq, heq⟩ := hr.left he hq'
    exact hp (hheld p ⟨q, hq, heq ▸ hkids⟩)

/-- A set of objects that goes back to objects which are logged before them is
within every closed set. -/
lemma subset_of_closed {log : List ObjectId} {D : Set ObjectId} (hD : h.Closed roots D)
    (hlive : ∀ i ∈ log, (h.get? i).isSome) (hheld : ∀ i ∈ log, some i ∉ roots ∧
      ∀ p, h.Holds p i → log.idxOf p < log.idxOf i) : ∀ i ∈ log, i ∈ D := by
  -- by induction on the position in the log
  have hall : ∀ n, ∀ i ∈ log, log.idxOf i = n → i ∈ D := by
    intro n
    induction n using Nat.strong_induction_on with
    | _ n ih =>
        intro i hi hn
        obtain ⟨hroot, hbefore⟩ := hheld i hi
        refine hD i (hlive i hi) hroot ?_
        intro p hp
        have hlt := hbefore p hp
        have hmem : p ∈ log :=
          List.idxOf_lt_length_iff.mp (hlt.trans (List.idxOf_lt_length_iff.mpr hi))
        exact ih _ (hn ▸ hlt) p hmem rfl
  exact fun i hi => hall _ i hi rfl

/-- A chain of holders goes down in the log. -/
lemma idxOf_lt_of_transGen {log : List ObjectId} (hheld : ∀ i ∈ log, ∀ p, h.Holds p i →
    log.idxOf p < log.idxOf i) {p i : ObjectId} (hi : i ∈ log)
    (hp : Relation.TransGen h.Holds p i) : log.idxOf p < log.idxOf i := by
  induction hp using Relation.TransGen.head_induction_on with
  | single hpi => exact hheld i hi _ hpi
  | head hpq _ ih =>
      have hmem := List.idxOf_lt_length_iff.mp (ih.trans (List.idxOf_lt_length_iff.mpr hi))
      exact (hheld _ hmem _ hpq).trans ih

/-- The first object has no holder. -/
lemma Releases.not_holds_first {top : ObjectId} {rest : List ObjectId}
    (hr : Releases out h [r] h' drops) (hlog : drops.map (·.id) = top :: rest) (p : ObjectId) :
    ¬ h.Holds p top := by
  intro hp
  have htop : top ∈ drops.map (·.id) := by
    rw [hlog]
    exact List.mem_cons_self ..
  have hlt := (hr.held top htop).2 p hp
  rw [hlog, List.idxOf_cons_self] at hlt
  cases hlt

/-- Something is dropped exactly if no other handle to the object is left. -/
lemma Releases.ne_nil_iff (hr : Releases (owned roots) h [r] h' drops)
    (he : h.Exact (owned [r] + owned roots)) :
    drops ≠ [] ↔ ∃ i, r = some i ∧ some i ∉ roots ∧ ∀ p, ¬ h.Holds p i := by
  constructor
  · intro hne
    obtain ⟨d, ds, rfl⟩ := List.exists_cons_of_ne_nil hne
    have hd := hr.held d.id (List.mem_cons_self ..)
    exact ⟨d.id, hr.first d rfl, fun hmem => hd.1 (mem_owned.mpr hmem), hr.not_holds_first rfl⟩
  · rintro ⟨i, rfl, hroot, hheld⟩ rfl
    have hlive := he.isSome_iff.mpr (.inl (show i ∈ owned [some i] + owned roots by simp))
    exact absurd (hr.closed he i hlive hroot fun p hp => absurd hp (hheld p)) List.not_mem_nil

end One

end ScriptBinding.Shared.Heap
