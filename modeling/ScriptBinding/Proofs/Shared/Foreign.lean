import ScriptBinding.Proofs.Shared.Leaks

/-
Foreign code at work on a heap.

* `Heap.Works`: what code can do that has some handles in hand and leaves those of others alone:
  it makes objects that hold handles in hand, clones handles, and gives up handles in hand.
* `Heap.Extends`: a heap with what was there before, and with new objects that hold older ones
  only; `Works.extends`: foreign code does no more to a heap, whatever it drops on the way.
* `Exact.get?_eq`: counts are a matter of what is held; `Extends.isSome_iff`: where all handles
  outside point at old objects, no new object is left.
* `Works.settles`: what the code made is then dropped, each object once, and nothing else is.
-/
namespace ScriptBinding.Shared.Heap

variable {α : Type}

/-- From a heap and the handles in hand to another such pair.  The handles of others, `out`, stay
where they are, and objects that are there are not changed. -/
inductive Works (out : Multiset ObjectId) :
    Heap α → Multiset ObjectId → Heap α → Multiset ObjectId → List (Drop α) → Prop
  | refl (h hand) : Works out h hand h hand []
  /-- An object is made that holds handles in hand; the handle to it is in hand then. -/
  | alloc (h content kids hand) :
      Works out h (owned kids + hand) (h.alloc content kids).1 (h.next ::ₘ hand) []
  /-- A handle is cloned, whoever has it. -/
  | retain {h i o} (hand) : h.get? i = some o → Works out h hand (h.retain (some i)) (i ::ₘ hand) []
  /-- Handles in hand are given up. -/
  | release (h work hand) :
      Works out h (owned work + hand) (h.releaseAll work).1 hand (h.releaseAll work).2
  | trans {h hand h₁ hand₁ h₂ hand₂ ds es} : Works out h hand h₁ hand₁ ds →
      Works out h₁ hand₁ h₂ hand₂ es → Works out h hand h₂ hand₂ (ds ++ es)

/-- A heap with the objects that were there, which contain and hold what they did, and with new
ones, each of which holds older ones only. -/
structure Extends (g h : Heap α) : Prop where
  old : ∀ {i o}, g.get? i = some o →
    ∃ o', h.get? i = some o' ∧ o'.content = o.content ∧ o'.kids = o.kids
  new : ∀ {i o}, g.get? i = none → h.get? i = some o →
    g.next ≤ i ∧ ∀ k, some k ∈ o.kids → k < i

/-- What was made from one heap to the next is dropped, each object once, and nothing else is.
Names are given in order. -/
def DropsMade (h h' : Heap α) (drops : List (Drop α)) : Prop :=
  ∀ i, (drops.map (·.id)).count i = if h.next ≤ i ∧ i < h'.next then 1 else 0

variable {g h h' : Heap α} {out out' hand hand' : Multiset ObjectId} {work : List Ref}
  {drops : List (Drop α)} {i : ObjectId} {o : Object α}

/-! ### The moves of foreign code -/

/-- Foreign code makes moves; the handles of others are outside all the time. -/
lemma Works.moves (hw : Works out h hand h' hand' drops) (he : h.Exact (hand + out)) :
    Moves h (hand + out) h' (hand' + out) drops := by
  induction hw with
  | refl => exact .refl _ _
  | alloc h content kids hand =>
      rw [add_assoc, Multiset.cons_add]
      exact .alloc _ _ _ _
  | retain hand hget =>
      rw [Multiset.cons_add]
      exact .retain hget
  | release h work hand =>
      rw [add_assoc] at he ⊢
      exact .release he.releases
  | trans _ _ ih₁ ih₂ => exact (ih₁ he).trans (ih₂ ((ih₁ he).exact he))

lemma Works.exact (hw : Works out h hand h' hand' drops) (he : h.Exact (hand + out)) :
    h'.Exact (hand' + out) :=
  (hw.moves he).exact he

/-! ### What was there stays -/

namespace Extends

lemma refl (g : Heap α) : g.Extends g where
  old hget := ⟨_, hget, rfl, rfl⟩
  new hnone hget := by rw [hnone] at hget; cases hget

/-- A live object's owner added, or one of several taken. -/
lemma recount (hx : g.Extends h) (i : ObjectId) (n : Nat → Nat) :
    g.Extends (h.modify i fun o => { o with owners := n o.owners }) where
  old hget := by
    obtain ⟨o', ho', hcontent, hkids⟩ := hx.old hget
    rw [get?_modify, ho']
    split
    · exact ⟨_, rfl, hcontent, hkids⟩
    · exact ⟨o', rfl, hcontent, hkids⟩
  new {k o} hnone hget := by
    rw [get?_modify] at hget
    split at hget
    · obtain ⟨o', ho', rfl⟩ := Option.map_eq_some_iff.mp hget
      obtain ⟨hnext, hkids⟩ := hx.new hnone ho'
      exact ⟨hnext, hkids⟩
    · exact hx.new hnone hget

/-- A new object that holds live ones. -/
lemma alloc (hx : g.Extends h) (he : h.Exact out) (hnext : g.next ≤ h.next) (content : α)
    {kids : List Ref} (hkids : ∀ k, some k ∈ kids → (h.get? k).isSome) :
    g.Extends (h.alloc content kids).1 where
  old {i o} hget := by
    obtain ⟨o', ho', hsame⟩ := hx.old hget
    have hne : i ≠ h.next := fun hi => Nat.ne_of_lt (he.lt_next ho') hi
    exact ⟨o', (get?_alloc_of_ne hne content kids).trans ho', hsame⟩
  new {i o} hnone hget := by
    rw [get?_alloc] at hget
    split at hget
    · rename_i hi
      cases hget
      refine ⟨hi ▸ hnext, fun k hk => ?_⟩
      obtain ⟨q, hq⟩ := Option.isSome_iff_exists.mp (hkids k hk)
      exact hi ▸ he.lt_next hq
    · exact hx.new hnone hget

/-- What others hold, or what holds it in turn, keeps every old object. -/
lemma notMem_drops (hx : g.Extends h) (hg : g.Exact out)
    (hr : Releases (hand + out) h work h' drops) (hi : (g.get? i).isSome) :
    i ∉ drops.map (·.id) := by
  -- by induction on the position in the log: a holder would have been dropped before
  have hall : ∀ n i, (g.get? i).isSome → i ∈ drops.map (·.id) →
      (drops.map (·.id)).idxOf i = n → False := by
    intro n
    induction n using Nat.strong_induction_on with
    | _ n ih =>
        intro i hi hmem hn
        obtain ⟨hout, hheld⟩ := hr.held i hmem
        rcases hg.isSome_iff.mp hi with hroot | hkid
        · exact hout (Multiset.mem_add.mpr (.inr hroot))
        · obtain ⟨p, o, ho, hpi⟩ := (mem_kidRefs hg.distinct).mp hkid
          obtain ⟨o', ho', -, hkids⟩ := hx.old ho
          have hlt := hheld p ⟨o', ho', hkids ▸ hpi⟩
          have hp : p ∈ drops.map (·.id) :=
            List.idxOf_lt_length_iff.mp (hlt.trans (List.idxOf_lt_length_iff.mpr hmem))
          exact ih _ (hn ▸ hlt) p (Option.isSome_iff_exists.mpr ⟨o, ho⟩) hp rfl
  exact fun hmem => hall _ i hi hmem rfl

/-- Handles given up. -/
lemma release (hx : g.Extends h) (hg : g.Exact out) (he : h.Exact (owned work + (hand + out)))
    (hr : Releases (hand + out) h work h' drops) : g.Extends h' where
  old hget := by
    obtain ⟨o₁, ho₁, hcontent₁, hkids₁⟩ := hx.old hget
    have hspared := hx.notMem_drops hg hr (Option.isSome_iff_exists.mpr ⟨_, hget⟩)
    obtain ⟨o₂, ho₂, hcontent₂, hkids₂⟩ := hr.survives ho₁ hspared
    exact ⟨o₂, ho₂, hcontent₂.trans hcontent₁, hkids₂.trans hkids₁⟩
  new hnone hget := by
    obtain ⟨-, o, ho, hkids⟩ := hr.left he hget
    rw [hkids]
    exact hx.new hnone ho

end Extends

/-- **Foreign code leaves what was there as it is**, but for the counts, and what it makes holds
older objects only. -/
theorem Works.extends (hw : Works out h hand h' hand' drops) (hg : g.Exact out)
    (hx : g.Extends h) (hnext : g.next ≤ h.next) (he : h.Exact (hand + out)) : g.Extends h' := by
  induction hw with
  | refl => exact hx
  | alloc h content kids hand =>
      refine hx.alloc he hnext content fun k hk => he.isSome_iff.mpr (.inl ?_)
      rw [add_assoc]
      exact Multiset.mem_add.mpr (.inl (mem_owned.mpr hk))
  | @retain h i o hand hget => exact hx.recount i (· + 1)
  | release h work hand =>
      rw [add_assoc] at he
      exact hx.release hg he he.releases
  | trans hw₁ _ ih₁ ih₂ =>
      exact ih₂ (ih₁ hx hnext he) (hnext.trans (hw₁.moves he).next_le) (hw₁.exact he)

/-! ### Counts are a matter of what is held -/

/-- The content of an object and its kid list. -/
def Object.shape (o : Object α) : α × List Ref :=
  (o.content, o.kids)

/-- Where the same is live with the same kid lists, there are the same handles in kid lists. -/
lemma perm_kidRefs (hd : h.objects.Distinct) (hd' : h'.objects.Distinct)
    (hsame : ∀ i, (h'.get? i).map (·.kids) = (h.get? i).map (·.kids)) :
    h'.kidRefs.Perm h.kidRefs := by
  have hmem : ∀ {f : Heap α}, f.objects.Distinct → ∀ i ks,
      (i, ks) ∈ f.objects.entries.map (fun e => (e.1, e.2.kids))
        ↔ (f.get? i).map (·.kids) = some ks := by
    intro f hf i ks
    rw [Option.map_eq_some_iff, List.mem_map]
    constructor
    · rintro ⟨⟨j, o⟩, he, heq⟩
      cases heq
      exact ⟨o, hf.get?_eq_some_iff.mpr he, rfl⟩
    · rintro ⟨o, ho, rfl⟩
      exact ⟨(i, o), hf.get?_eq_some_iff.mp ho, rfl⟩
  have hnodup : ∀ {f : Heap α}, f.objects.Distinct →
      (f.objects.entries.map fun e => (e.1, e.2.kids)).Nodup := by
    intro f hf
    refine List.Nodup.of_map Prod.fst ?_
    rw [List.map_map]
    exact hf
  have hperm : (h'.objects.entries.map fun e => (e.1, e.2.kids)).Perm
      (h.objects.entries.map fun e => (e.1, e.2.kids)) := by
    rw [List.perm_ext_iff_of_nodup (hnodup hd') (hnodup hd)]
    rintro ⟨i, ks⟩
    rw [hmem hd', hmem hd, hsame]
  have hrefs := hperm.flatMap_right Prod.snd
  rwa [List.flatMap_map, List.flatMap_map] at hrefs

/-- **Counts are a matter of what is held**: two heaps with exact counts and the same handles
outside are the same, object by object, if the same is live, contains the same and holds the
same. -/
theorem Exact.get?_eq (he : h.Exact out) (he' : h'.Exact out)
    (hsame : ∀ i, (h'.get? i).map Object.shape = (h.get? i).map Object.shape) (i : ObjectId) :
    h'.get? i = h.get? i := by
  have hkids : ∀ i, (h'.get? i).map (·.kids) = (h.get? i).map (·.kids) := by
    intro i
    have hi := congrArg (Option.map Prod.snd) (hsame i)
    rw [Option.map_map, Option.map_map] at hi
    exact hi
  have hcount : h'.ownerCount (some i) = h.ownerCount (some i) := by
    rw [he.count, he'.count, (perm_kidRefs he.distinct he'.distinct hkids).count_eq]
  have hi := hsame i
  cases hget : h.get? i with
  | none =>
      rw [hget, Option.map_none, Option.map_eq_none_iff] at hi
      exact hi
  | some o =>
      rw [hget, Option.map_some, Option.map_eq_some_iff] at hi
      obtain ⟨o', ho', hshape⟩ := hi
      rw [ownerCount_of_get? hget, ownerCount_of_get? ho'] at hcount
      obtain ⟨hcontent, hkids'⟩ := Prod.mk.inj hshape
      rw [ho', Option.some_inj]
      cases o
      cases o'
      simp_all

/-- Where all handles outside point at old objects, no new one is left: the newest would be held
by a newer one. -/
lemma Extends.isSome_iff (hx : g.Extends h) (hg : g.Exact out') (he : h.Exact out)
    (hout : ∀ i ∈ out, (g.get? i).isSome) (i : ObjectId) :
    (h.get? i).isSome ↔ (g.get? i).isSome := by
  have hall : ∀ n i o, g.get? i = none → h.get? i = some o → h.next - i = n → False := by
    intro n
    induction n using Nat.strong_induction_on with
    | _ n ih =>
        intro i o hnone hget hn
        rcases he.isSome_iff.mp (Option.isSome_iff_exists.mpr ⟨o, hget⟩) with hroot | hkid
        · have hold := hout i hroot
          rw [hnone] at hold
          cases hold
        · obtain ⟨p, q, hq, hpi⟩ := (mem_kidRefs he.distinct).mp hkid
          cases hp : g.get? p with
          | some q' =>
              -- an old object holds old ones
              obtain ⟨q'', hq'', -, hkids⟩ := hx.old hp
              rw [hq, Option.some_inj] at hq''
              subst hq''
              have hold := hg.isSome_iff.mpr
                (.inr ((mem_kidRefs hg.distinct).mpr ⟨p, q', hp, hkids ▸ hpi⟩))
              rw [hnone] at hold
              cases hold
          | none =>
              have hlt := (hx.new hp hq).2 i hpi
              have hless : h.next - p < n := hn ▸ Nat.sub_lt_sub_left (he.lt_next hget) hlt
              exact ih _ hless p q hp hq rfl
  constructor
  · intro hi
    obtain ⟨o, ho⟩ := Option.isSome_iff_exists.mp hi
    cases hget : g.get? i with
    | some _ => rfl
    | none => exact (hall _ i o hget ho rfl).elim
  · intro hi
    obtain ⟨o, ho⟩ := Option.isSome_iff_exists.mp hi
    obtain ⟨o', ho', -⟩ := hx.old ho
    rw [ho']
    rfl

/-- An extension with the live objects of the old heap is the old heap, object by object, but for
the counts. -/
lemma Extends.shape_eq (hx : g.Extends h) (hlive : ∀ i, (h.get? i).isSome ↔ (g.get? i).isSome)
    (i : ObjectId) : (h.get? i).map Object.shape = (g.get? i).map Object.shape := by
  cases hget : g.get? i with
  | none =>
      have hi := hlive i
      rw [hget] at hi
      cases hnew : h.get? i with
      | none => rfl
      | some o => rw [hnew] at hi; simp at hi
  | some o =>
      obtain ⟨o', ho', hcontent, hkids⟩ := hx.old hget
      rw [ho', Option.map_some, Option.map_some, Object.shape, Object.shape, hcontent, hkids]

/-- Moves that leave live what was live drop all that they make. -/
lemma Moves.dropsMade (hm : Moves h out h' out' drops) (he : h.Exact out)
    (hlive : ∀ i, (h'.get? i).isSome ↔ (h.get? i).isSome) : h.DropsMade h' drops := by
  intro i
  have hcount := hm.count_dropped he i
  rw [dropped, Multiset.coe_count] at hcount
  refine hcount.trans (if_congr ⟨?_, ?_⟩ rfl rfl)
  · rintro ⟨hmade, hgone⟩
    exact hmade.resolve_left fun hi => hgone ((hlive i).mpr hi)
  · rintro ⟨hle, hlt⟩
    refine ⟨.inr ⟨hle, hlt⟩, fun hi => ?_⟩
    obtain ⟨o, ho⟩ := Option.isSome_iff_exists.mp ((hlive i).mp hi)
    exact absurd (he.lt_next ho) (not_lt_of_ge hle)

/-- **Foreign code that keeps nothing leaves nothing behind**: where it began with an owner of an
object `i` that others own too, and the handles that it ends with point at old objects, the heap
is what these handles alone make of the old one, and what the code made is dropped. -/
theorem Works.settles (hw : Works out (h.retain (some i)) {i} h' hand' drops) (he : h.Exact out)
    (hget : h.get? i = some o) (hold : ∀ k ∈ hand', (h.get? k).isSome) {ref : Heap α}
    (href : ref.Exact (hand' + out))
    (hshape : ∀ k, (ref.get? k).map Object.shape = (h.get? k).map Object.shape) :
    (∀ k, h'.get? k = ref.get? k) ∧ h.DropsMade h' drops := by
  have hgiven : (h.retain (some i)).Exact ({i} + out) := by
    rw [Multiset.singleton_add]
    exact he.retain hget
  have hx : h.Extends h' := hw.extends he ((Extends.refl h).recount i (· + 1)) le_rfl hgiven
  have he' := hw.exact hgiven
  have hlive := hx.isSome_iff he he' fun k hk =>
    (Multiset.mem_add.mp hk).elim (hold k) fun hk => he.isSome_iff.mpr (.inl hk)
  have hgivenLive : ∀ k, ((h.retain (some i)).get? k).isSome ↔ (h.get? k).isSome := by
    intro k
    rw [Heap.retain, get?_modify]
    split <;> simp
  exact ⟨href.get?_eq he' fun k => (hx.shape_eq hlive k).trans (hshape k).symm,
    (hw.moves hgiven).dropsMade hgiven fun k => (hlive k).trans (hgivenLive k).symm⟩

end ScriptBinding.Shared.Heap
