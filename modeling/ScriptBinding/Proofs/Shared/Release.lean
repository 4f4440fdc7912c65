import ScriptBinding.Proofs.Shared.Cascade
import ScriptBinding.Proofs.Shared.History

/-
What an operation on a store drops when it gives up a handle.

* `Store.GivesUp`: the operations that give up one handle, and which.
* `Store.Frees`: such an operation makes what it needs, releases the handle, and
  drops nothing else.
* `step_stores`: a handle that replaces another one is made before.
* `release_cascade`: in every history, what such an operation drops is a cascade
  of the heap that it found.
-/
namespace ScriptBinding.Shared

namespace Heap

variable {α : Type} {h h' : Heap α} {out : Multiset ObjectId}

/-- A chain holds only its own objects. -/
lemma Grown.chain (hg : h.Grown h') (content : Nat → α) (he : h'.Exact out) (count : Nat) :
    ∀ first, h.Grown (h'.chain content first count).1 ∧
      ∀ i, (h'.chain content first count).2 = some i → h.get? i = none := by
  induction count with
  | zero =>
      intro first
      exact ⟨hg, fun i hi => nomatch hi⟩
  | succ count ih =>
      intro first
      obtain ⟨hrest, hnew⟩ := ih (first + 1)
      have hnext := ((Moves.chain content h' out count (first + 1)).exact he).get?_next
      refine ⟨hrest.alloc hnext _ fun i hi => hnew i ?_, fun i hi => ?_⟩
      · obtain ⟨j, hj, hji⟩ := List.mem_map.mp hi
        cases hji
        exact Option.mem_toList.mp hj
      · cases hi
        exact hrest.get?_eq_none hnext

lemma get?_retain_self {i : ObjectId} {o : Object α} (hget : h.get? i = some o) :
    (h.retain (some i)).get? i = some { o with owners := o.owners + 1 } := by
  rw [get?_retain hget, if_pos rfl]

/-- An owner that was just added is given up without a drop. -/
lemma release_retain {i : ObjectId} {o : Object α} (hget : h.get? i = some o)
    (hpos : 1 ≤ o.owners) : (h.retain (some i)).release (some i)
      = ((h.retain (some i)).modify i fun o => { o with owners := o.owners - 1 }, []) := by
  have hmore : ¬ o.owners + 1 ≤ 1 := by omega
  rw [release, releaseAll_more [] (get?_retain_self hget) hmore, releaseAll_nil]

/-- An upcast gives a handle where the conversion gives back the owner that it was
handed. -/
lemma upcast_eq_some {i : ObjectId} {c : Conversion α} {r : Ref}
    (hr : (h.upcast (some i) c).2.1 = some r) :
    ((h.retain (some i)).convert i c).2.1 = i ∧ h.upcast (some i) c
      = (((h.retain (some i)).convert i c).1, some (some i),
        ((h.retain (some i)).convert i c).2.2) := by
  by_cases hsame : ((h.retain (some i)).convert i c).2.1 = i
  · refine ⟨hsame, ?_⟩
    simp only [Heap.upcast]
    rw [if_pos hsame]
  · simp only [Heap.upcast] at hr
    rw [if_neg hsame] at hr
    cases hr

/-- An upcast that gives a handle drops nothing. -/
lemma upcast_quiet (he : h.Exact out) {i : ObjectId} {o : Object α} (hget : h.get? i = some o)
    {c : Conversion α} {r : Ref} (hr : (h.upcast (some i) c).2.1 = some r) :
    (h.upcast (some i) c).2.2 = [] ∧ h.Grown (h.upcast (some i) c).1 := by
  have hretain : h.Grown (h.retain (some i)) := (Grown.refl h).retain _
  obtain ⟨hsame, hupcast⟩ := upcast_eq_some hr
  rw [hupcast]
  cases c with
  | same => exact ⟨rfl, hretain⟩
  | fresh content =>
      -- the name of the new object is not that of the old one
      simp only [convert, release_retain hget (he.pos hget)] at hsame
      have hlt := he.lt_next hget
      rw [← hsame] at hlt
      exact absurd hlt (lt_irrefl _)
  | other j =>
      simp only [convert] at hsame
      subst hsame
      simp only [convert, release_retain (get?_retain_self hget) (Nat.succ_pos _)]
      exact ⟨trivial, (hretain.retain _).recount j (· - 1)⟩

/-- A reset tells whether something is dropped. -/
lemma Exact.reset_flag {r : Ref} {roots : List Ref} (he : h.Exact (owned [r] + owned roots)) :
    (h.reset r).2.1 = decide ((h.reset r).2.2 ≠ []) := by
  refine decide_eq_decide.mpr (Iff.trans ?_ he.cascade.last.symm)
  cases r with
  | none => simp [ownerCount, deref?]
  | some i =>
      rw [he.count, owned_cons_some, Multiset.count_add, count_owned]
      simp only [owned_nil, Multiset.count_cons_self, Multiset.count_zero, Option.some_inj,
        exists_eq_left', ← List.count_eq_zero]
      have hkids : h.kidRefs.count (some i) = 0 ↔ ∀ p, ¬ h.Holds p i := by
        rw [List.count_eq_zero, mem_kidRefs he.distinct]
        exact not_exists
      rw [← hkids]
      omega

end Heap

/-- The slot that an operation puts a new handle into. -/
def Step.dest? : Step → Option String
  | .create _ _ dest | .empty _ dest | .chain _ _ dest | .clone _ dest | .kid _ _ dest
  | .upcast _ dest _ | .adopt _ dest => some dest
  | _ => none

namespace Store

variable {s s' : Store} {step : Step} {reply : StepReply}

/-- An operation that stores a handle makes it first, and nothing is dropped
before it is stored. -/
lemma step_stores (hw : s.WellFormed 0) {dest : String} (hdest : step.dest? = some dest)
    (hstep : s.step? step = some (s', reply)) (hdone : reply.outcome = .returned .done) :
    ∃ (t : Store) (slot : Slot), t.WellFormed (owned [slot.ref] + 0) ∧ s.heap.Grown t.heap
      ∧ t.slots = s.slots ∧ (s', reply) = done (t.put dest slot) := by
  have hrefl : s.heap.Grown s.heap := Heap.Grown.refl _
  cases step with
  | create kind label =>
      cases hdest
      cases hstep
      have hmade := (Passes.alloc s (.fresh label) [] 0).wellFormed hw
      refine ⟨_, ⟨kind, some s.heap.next⟩, hmade, hrefl.alloc hw.exact.get?_next _ ?_, rfl, rfl⟩
      intro i hi
      cases hi
  | empty kind =>
      cases hdest
      cases hstep
      exact ⟨s, ⟨kind, none⟩, hw, hrefl, rfl, rfl⟩
  | chain length label =>
      cases hdest
      cases hstep
      have hchain := hrefl.chain (fun k => Node.fresh (label ++ toString k)) hw.exact length 0
      have hmade := (Passes.chain s label length).wellFormed hw
      exact ⟨{ s with heap := (s.heap.chain _ 0 length).1 }, ⟨.concrete, _⟩, hmade, hchain.1, rfl,
        rfl⟩
  | clone source =>
      cases hdest
      simp only [step?, bind_eq_some, Option.pure_def, Option.some_inj] at hstep
      obtain ⟨slot, hslot, hstep⟩ := hstep
      have hmade := (Passes.retain s 0 fun hw i => hw.get?_of_slot hslot (i := i)).wellFormed hw
      exact ⟨{ s with heap := s.heap.retain slot.ref }, slot, hmade, hrefl.retain _, rfl,
        hstep.symm⟩
  | kid slot index =>
      cases hdest
      simp only [step?, bind_eq_some] at hstep
      obtain ⟨_, _, hstep⟩ := hstep
      rcases reading_cases hstep with ⟨_, hp⟩ | ⟨i, o, _, ho, hp⟩
      · cases hp
        cases hdone
      · split at hp
        · cases hp
          cases hdone
        · rename_i kid hkid
          have hmade := (Passes.retain s (r := kid) 0 fun hw j hj =>
            hw.get?_of_kid ho (hj ▸ List.mem_of_getElem? hkid)).wellFormed hw
          exact ⟨{ s with heap := s.heap.retain kid }, ⟨.concrete, kid⟩, hmade, hrefl.retain _, rfl,
            hp⟩
  | upcast source dest via =>
      cases hdest
      simp only [step?, bind_eq_some] at hstep
      obtain ⟨slot, hslot, conversion, hconversion, hstep⟩ := hstep
      have hmade := (Passes.upcast hslot hconversion).wellFormed hw
      split at hstep
      · cases hstep
        cases hdone
      · rename_i r hr
        rw [hr] at hmade
        have hquiet : (s.heap.upcast slot.ref conversion).2.2 = []
            ∧ s.heap.Grown (s.heap.upcast slot.ref conversion).1 := by
          obtain ⟨kind, ref⟩ := slot
          cases ref with
          | none => exact ⟨rfl, hrefl⟩
          | some i =>
              obtain ⟨o, ho⟩ := hw.get?_of_slot hslot rfl
              exact Heap.upcast_quiet hw.exact ho hr
        rw [hquiet.1] at hstep
        refine ⟨{ s with heap := (s.heap.upcast slot.ref conversion).1 }, ⟨.erased, r⟩, ?_, hquiet.2,
          rfl, (Option.some_inj.mp hstep).symm⟩
        simpa using hmade
  | adopt owner =>
      cases hdest
      simp only [step?, bind_eq_some, Option.pure_def, Option.some_inj] at hstep
      obtain ⟨i, hi, hstep⟩ := hstep
      have hmade := (Passes.takeHeld s owner 0).wellFormed hw
      rw [hi] at hmade
      exact ⟨_, ⟨.concrete, some i⟩, hmade, hrefl, rfl, hstep.symm⟩
  | _ => cases hdest

/-- A node without its last kid. -/
def popKid (o : Object Node) : Object Node :=
  { o with kids := o.kids.dropLast }

/-- An operation gives up one handle `r`.  The release finds the heap `h`: that of
the store, but for a handle that is taken out of a kid list first. -/
inductive GivesUp (s : Store) : Step → Heap Node → Ref → Prop
  | reset {name slot} : s.slots.get? name = some slot →
      GivesUp s (.reset name) s.heap slot.ref
  | remove {name slot} : s.slots.get? name = some slot →
      GivesUp s (.remove name) s.heap slot.ref
  | init {name label slot} : s.slots.get? name = some slot →
      GivesUp s (.init name label) s.heap slot.ref
  /-- Another object is shared from now on. -/
  | assign {name source slot shared} : s.slots.get? name = some slot →
      s.slots.get? source = some shared → (Step.assign name source).Fits s →
      slot.ref ≠ shared.ref → GivesUp s (.assign name source) s.heap slot.ref
  /-- The first kid of the object is shared from now on. -/
  | advance {name slot i o} : s.slots.get? name = some slot → slot.ref = some i →
      s.heap.get? i = some o → (Step.advance name).Fits s →
      slot.ref ≠ o.kids.head?.getD none → GivesUp s (.advance name) s.heap slot.ref
  /-- A new handle takes the place of another one. -/
  | overwrite {step dest slot s' reply} : step.dest? = some dest →
      s.slots.get? dest = some slot → s.step? step = some (s', reply) →
      reply.outcome = .returned .done → GivesUp s step s.heap slot.ref
  | pop {name slot i o kid} : s.slots.get? name = some slot → slot.ref = some i →
      s.heap.get? i = some o → o.kids.getLast? = some kid →
      GivesUp s (.pop name) (s.heap.modify i popKid) kid

/-- From a heap `h`, by way of a store `t` that has a handle `r` in hand and gives
it up, to a store `s'`. -/
structure Frees (h : Heap Node) (r : Ref) (t s' : Store) (drops : List (Drop Node)) : Prop where
  wellFormed : t.WellFormed (owned [r] + 0)
  before : h.Grown t.heap
  drops : drops = (t.heap.release r).2
  after : (t.heap.release r).1.Grown s'.heap
  roots : ∀ i, (h.get? i).isSome → (some i ∈ t.roots ↔ some i ∈ s'.roots)

namespace Frees

variable {h : Heap Node} {r : Ref} {t : Store} {drops : List (Drop Node)}

lemma exact (hf : Frees h r t s' drops) : t.heap.Exact (owned [r] + owned t.roots) := by
  have he := hf.wellFormed.exact
  rwa [add_zero] at he

/-- What is dropped is a cascade of the heap before. -/
lemma cascade (hf : Frees h r t s' drops) (hold : ∀ i, r = some i → (h.get? i).isSome)
    (hkids : ∀ p i, h.Holds p i → (h.get? i).isSome) : h.Cascade s'.roots r drops := by
  have hc := hf.exact.cascade
  rw [← hf.drops] at hc
  exact hc.of_grown hf.before hold hkids hf.roots

/-- What is not dropped contains and holds what it did. -/
lemma survives (hf : Frees h r t s' drops) {i : ObjectId} {o : Object Node}
    (hget : h.get? i = some o) (hi : i ∉ drops.map (·.id)) :
    ∃ o', s'.heap.get? i = some o' ∧ o'.content = o.content ∧ o'.kids = o.kids := by
  obtain ⟨o₁, ho₁, hcontent₁, hkids₁⟩ := hf.before.old hget
  rw [hf.drops] at hi
  have hr : Heap.Releases (owned t.roots) t.heap [r] _ _ := hf.exact.releases
  obtain ⟨o₂, ho₂, hcontent₂, hkids₂⟩ := hr.survives ho₁ hi
  obtain ⟨o₃, ho₃, hcontent₃, hkids₃⟩ := hf.after.old ho₂
  exact ⟨o₃, ho₃, hcontent₃.trans (hcontent₂.trans hcontent₁), hkids₃.trans (hkids₂.trans hkids₁)⟩

end Frees

/-- A slot that is reset. -/
lemma step_reset {name : String} {slot : Slot} (hget : s.slots.get? name = some slot) :
    s.step? (.reset name) = some (((s.setRef name none).release slot.ref).1,
      { outcome := .returned (.flag (s.heap.reset slot.ref).2.1)
        events := (s.heap.release slot.ref).2 }) := by
  simp only [step?, bind_eq_some]
  exact ⟨slot, hget, rfl⟩

lemma frees_reset (hw : s.WellFormed 0) {name : String} {slot : Slot}
    (hget : s.slots.get? name = some slot) :
    Frees s.heap slot.ref (s.setRef name none) ((s.setRef name none).release slot.ref).1
      (s.heap.release slot.ref).2 :=
  ⟨(Passes.setRef s hget none 0).wellFormed hw, Heap.Grown.refl _, rfl, Heap.Grown.refl _,
    fun _ _ => .rfl⟩

/-- The last kid of a node that is taken out and reset. -/
lemma step_pop {name : String} {slot : Slot} {i : ObjectId} {o : Object Node} {kid : Ref}
    (hget : s.slots.get? name = some slot) (hi : slot.ref = some i) (ho : s.heap.get? i = some o)
    (hlast : o.kids.getLast? = some kid) :
    s.step? (.pop name) = some (({ s with heap := s.heap.modify i popKid }.release kid).1,
      { outcome := .returned (.flag ((s.heap.modify i popKid).reset kid).2.1)
        events := ((s.heap.modify i popKid).release kid).2 }) := by
  simp only [step?, bind_eq_some]
  refine ⟨slot, hget, ?_⟩
  simp only [reading, hi, ho, hlast, Option.map_some]
  rfl

lemma frees_pop (hw : s.WellFormed 0) {i : ObjectId} {o : Object Node} {kid : Ref}
    (ho : s.heap.get? i = some o) (hlast : o.kids.getLast? = some kid) :
    Frees (s.heap.modify i popKid) kid { s with heap := s.heap.modify i popKid }
      ({ s with heap := s.heap.modify i popKid }.release kid).1
      ((s.heap.modify i popKid).release kid).2 := by
  have hkids : o.kids = o.kids.dropLast ++ [kid] := (List.dropLast_append_getLast? kid hlast).symm
  have htaken : Passes s 0 { s with heap := s.heap.modify i popKid } (owned [kid] + 0) [] := by
    refine Passes.edit s popKid ho rfl ?_
    rw [add_zero, add_zero, popKid, ← owned_append, ← hkids]
  exact ⟨htaken.wellFormed hw, Heap.Grown.refl _, rfl, Heap.Grown.refl _, fun _ _ => .rfl⟩

/-- A slot that is assigned another one of a fitting type. -/
lemma step_assign {name source : String} {slot shared : Slot}
    (hget : s.slots.get? name = some slot) (hshared : s.slots.get? source = some shared)
    (hkinds : ¬ (slot.kind = .concrete ∧ shared.kind = .erased)) :
    s.step? (.assign name source)
      = some (done ({ s with heap := (s.heap.assign slot.ref shared.ref).1 }.setRef name
        (s.heap.assign slot.ref shared.ref).2.1, (s.heap.assign slot.ref shared.ref).2.2)) := by
  simp only [step?, bind_eq_some]
  exact ⟨slot, hget, shared, hshared, by rw [if_neg hkinds]; rfl⟩

/-- A slot that is made to share another object: that one is retained before the
old one is released. -/
lemma frees_assign (hw : s.WellFormed 0) {name : String} {slot : Slot}
    (hget : s.slots.get? name = some slot) {r : Ref}
    (hlive : ∀ i, r = some i → ∃ o, s.heap.get? i = some o) (hne : slot.ref ≠ r) :
    Frees s.heap slot.ref ({ s with heap := s.heap.retain r }.setRef name r)
      ({ s with heap := (s.heap.assign slot.ref r).1 }.setRef name (s.heap.assign slot.ref r).2.1)
      (s.heap.assign slot.ref r).2.2 := by
  have hretain := (Passes.retain s 0 fun _ => hlive).wellFormed hw
  have hset := (Passes.setRef { s with heap := s.heap.retain r } hget r 0).wellFormed hretain
  simp only [Heap.assign, if_neg hne]
  exact ⟨hset, (Heap.Grown.refl _).retain r, rfl, Heap.Grown.refl _, fun _ _ => .rfl⟩

/-- A slot that a handle is put into releases the one that was there. -/
lemma frees_put {h : Heap Node} {t : Store} {dest : String} {slot previous : Slot}
    (hw : t.WellFormed (owned [slot.ref] + 0)) (hg : h.Grown t.heap)
    (hget : t.slots.get? dest = some previous) :
    Frees h previous.ref { t with slots := t.slots.insert dest slot } (t.put dest slot).1
      (t.put dest slot).2 := by
  have hinsert := (Passes.insertSlot t dest slot 0).wellFormed hw
  rw [hget] at hinsert
  rw [put, hget]
  exact ⟨hinsert, hg, rfl, Heap.Grown.refl _, fun _ _ => .rfl⟩

/-- A slot that is emptied, and then owns a new object. -/
lemma frees_init (hw : s.WellFormed 0) {name : String} {slot : Slot}
    (hget : s.slots.get? name = some slot) (content : Node) :
    Frees s.heap slot.ref (s.setRef name none)
      ({ ((s.setRef name none).release slot.ref).1 with
        heap := ((s.heap.release slot.ref).1.alloc content []).1 }.setRef name
          (some (s.heap.release slot.ref).1.next)) (s.heap.release slot.ref).2 := by
  have htaken := (Passes.setRef s hget none 0).wellFormed hw
  have he := htaken.exact
  rw [add_zero] at he
  have hr : Heap.Releases (owned (s.setRef name none).roots) s.heap [slot.ref] _ _ := he.releases
  refine ⟨htaken, Heap.Grown.refl _, rfl, ?_, fun i hi => ?_⟩
  · exact (Heap.Grown.refl _).alloc hr.exact.get?_next content fun i hi => nomatch hi
  · -- the new handle points at none of the old objects
    obtain ⟨o, ho⟩ := Option.isSome_iff_exists.mp hi
    have hlt := hw.exact.lt_next ho
    have hne : i ≠ (s.heap.release slot.ref).1.next := by
      have hnext : (s.heap.release slot.ref).1.next = s.heap.next := hr.next
      rw [hnext]
      exact Nat.ne_of_lt hlt
    have hempty := get?_setRef_self hget none
    have hslots := owned_slotRefs_modify htaken.slots hempty
      (some (s.heap.release slot.ref).1.next)
    have hmem := congrArg (i ∈ ·) hslots
    simp only [owned_cons_none, owned_nil, zero_add, owned_cons_some, Multiset.cons_add,
      Multiset.mem_cons, hne, false_or, mem_owned] at hmem
    rw [roots, roots, List.mem_append, List.mem_append]
    exact or_congr (iff_of_eq hmem).symm Iff.rfl

/-- **An operation that gives up a handle releases it once**, when all that it
makes before is made. -/
theorem GivesUp.frees (hw : s.WellFormed 0) {h : Heap Node} {r : Ref}
    (hgive : GivesUp s step h r) :
    ∃ t s' reply, s.step? step = some (s', reply) ∧ Frees h r t s' reply.events := by
  have hrefl : s.heap.Grown s.heap := Heap.Grown.refl _
  cases hgive with
  | @reset name slot hget => exact ⟨_, _, _, step_reset hget, frees_reset hw hget⟩
  | @remove name slot hget =>
      have htaken := (Passes.eraseSlot s name 0).wellFormed hw
      rw [hget] at htaken
      have hstep : s.step? (.remove name) = some (done (s.removeSlot name)) := by
        simp only [step?, bind_eq_some]
        exact ⟨slot, hget, rfl⟩
      refine ⟨_, _, _, hstep, htaken, hrefl, ?_, ?_, fun _ _ => .rfl⟩
      · rw [removeSlot, hget]
        rfl
      · rw [removeSlot, hget]
        exact Heap.Grown.refl _
  | @init name label slot hget =>
      refine ⟨_, _, { outcome := .returned .done, events := _ }, ?_,
        frees_init hw hget (.fresh label)⟩
      simp only [step?, bind_eq_some]
      exact ⟨slot, hget, rfl⟩
  | @assign name source slot shared hget hshared hfits hne =>
      have hkinds : ¬ (slot.kind = .concrete ∧ shared.kind = .erased) := by
        obtain ⟨slot', shared', hslot', hshared', hkinds⟩ := hfits
        rw [hget, Option.some_inj] at hslot'
        rw [hshared, Option.some_inj] at hshared'
        rwa [hslot', hshared']
      exact ⟨_, _, _, step_assign hget hshared hkinds,
        frees_assign hw hget (fun i => hw.get?_of_slot hshared) hne⟩
  | @advance name slot i o hget hi ho hfits hne =>
      have hkind : ¬ (slot.kind = .erased ∧ slot.ref.isSome) := by
        obtain ⟨slot', hslot', hkind⟩ := hfits
        rw [hget, Option.some_inj] at hslot'
        rwa [hslot']
      refine ⟨_, _, { outcome := .returned .done, events := _ }, ?_,
        frees_assign hw hget (fun j hj => hw.get?_of_kid ho ?_) hne⟩
      · simp only [step?, bind_eq_some]
        refine ⟨slot, hget, ?_⟩
        rw [if_neg hkind]
        simp only [reading, hi, ho, Option.map_some]
        rfl
      · cases hkids : o.kids with
        | nil => rw [hkids] at hj; cases hj
        | cons r rs => rw [hkids] at hj; exact hj ▸ List.mem_cons_self ..
  | @overwrite _ dest slot s' reply hdest hget hstep hdone =>
      obtain ⟨t, stored, hmade, hg, hslots, hput⟩ := step_stores hw hdest hstep hdone
      cases hput
      rw [← hslots] at hget
      exact ⟨_, _, _, hstep, frees_put hmade hg hget⟩
  | @pop name slot i o _ hget hi ho hlast =>
      exact ⟨_, _, _, step_pop hget hi ho hlast, frees_pop hw ho hlast⟩

/-- The object of the handle is there before. -/
lemma GivesUp.isSome (hw : s.WellFormed 0) {h : Heap Node} {r : Ref} (hgive : GivesUp s step h r) :
    ∀ i, r = some i → (h.get? i).isSome := by
  intro i hi
  cases hgive with
  | reset hget | remove hget | init hget | assign hget | advance hget | overwrite _ hget =>
      exact Option.isSome_iff_exists.mpr (hw.get?_of_slot hget hi)
  | @pop _ _ j o _ _ _ ho hlast =>
      obtain ⟨q, hq⟩ := hw.get?_of_kid ho (hi ▸ List.mem_of_getLast? hlast)
      rw [Heap.get?_modify, hq]
      split <;> rfl

/-- Whatever is held there is there. -/
lemma GivesUp.isSome_of_holds (hw : s.WellFormed 0) {h : Heap Node} {r : Ref}
    (hgive : GivesUp s step h r) : ∀ p i, h.Holds p i → (h.get? i).isSome := by
  have hkids : ∀ p i, s.heap.Holds p i → (s.heap.get? i).isSome := by
    rintro p i ⟨o, ho, hmem⟩
    exact Option.isSome_iff_exists.mpr (hw.get?_of_kid ho hmem)
  cases hgive with
  | reset | remove | init | assign | advance | overwrite => exact hkids
  | @pop _ _ j o _ _ _ ho hlast =>
      rintro p i ⟨q, hq, hmem⟩
      rw [Heap.get?_modify] at hq
      have hheld : s.heap.Holds p i := by
        split at hq
        · obtain ⟨q', hq', rfl⟩ := Option.map_eq_some_iff.mp hq
          exact ⟨q', hq', List.dropLast_subset _ hmem⟩
        · exact ⟨q, hq, hmem⟩
      obtain ⟨o', ho'⟩ := Option.isSome_iff_exists.mp (hkids p i hheld)
      rw [Heap.get?_modify, ho']
      split <;> rfl

/-- A reset, of a slot or of a kid, tells whether something is dropped. -/
lemma GivesUp.flag (hw : s.WellFormed 0) {h : Heap Node} {r : Ref} (hgive : GivesUp s step h r)
    {name : String} (hname : step = .reset name ∨ step = .pop name)
    (hstep : s.step? step = some (s', reply)) :
    reply.outcome = .returned (.flag (reply.events ≠ [])) := by
  cases hgive with
  | remove | init | assign | advance => simp at hname
  | overwrite hdest => rcases hname with rfl | rfl <;> cases hdest
  | reset hget =>
      rw [step_reset hget] at hstep
      cases hstep
      exact congrArg (Outcome.returned ∘ Answer.flag) (frees_reset hw hget).exact.reset_flag
  | pop hget hi ho hlast =>
      rw [step_pop hget hi ho hlast] at hstep
      cases hstep
      exact congrArg (Outcome.returned ∘ Answer.flag) (frees_pop hw ho hlast).exact.reset_flag

/-- **What one release drops, and in which order**, in every history. -/
theorem release_cascade {steps : List Step} {s : Store} {replies : List StepReply}
    (hrun : ({} : Store).run? steps = some (s, replies)) {step : Step} {h : Heap Node} {r : Ref}
    (hgive : GivesUp s step h r) :
    ∃ s' reply, s.step? step = some (s', reply)
      ∧ h.Cascade s'.roots r reply.events
      ∧ (∀ i ∈ reply.events.map (·.id), s'.heap.get? i = none)
      ∧ (∀ i o, h.get? i = some o → i ∉ reply.events.map (·.id) →
          ∃ o', s'.heap.get? i = some o' ∧ o'.content = o.content ∧ o'.kids = o.kids)
      ∧ (∀ name, step = .reset name ∨ step = .pop name →
          reply.outcome = .returned (.flag (reply.events ≠ [])))
      ∧ ∀ name slot, step = .reset name → s.slots.get? name = some slot →
          s'.slots.get? name = some { slot with ref := none } := by
  have hw := run_wellFormed hrun
  obtain ⟨t, s', reply, hstep, hf⟩ := hgive.frees hw
  refine ⟨s', reply, hstep, hf.cascade (hgive.isSome hw) (hgive.isSome_of_holds hw), ?_, ?_, ?_, ?_⟩
  · intro i hi
    have hgone := ((hw.mem_drops_iff hstep i).mp hi).2
    rw [← ((step_passes hstep).wellFormed hw).isSome_iff] at hgone
    exact Option.not_isSome_iff_eq_none.mp hgone
  · intro i o ho hi
    exact hf.survives ho hi
  · exact fun name hname => hgive.flag hw hname hstep
  · rintro name slot rfl hget
    rw [step_reset hget] at hstep
    cases hstep
    show (s.setRef name none).slots.get? name = _
    rw [setRef, Table.get?_modify, if_pos rfl, hget]
    rfl

/-- A node with two kids that share a third one goes with all of them, the shared
one last. -/
theorem release_cascade_diamond :
    ∃ s replies, ({} : Store).run? [.create .concrete "top" "a", .create .concrete "left" "b",
        .create .concrete "right" "c", .create .concrete "bottom" "d", .push "b" "d",
        .push "c" "d", .push "a" "b", .push "a" "c", .remove "b", .remove "c", .remove "d"]
          = some (s, replies)
      ∧ GivesUp s (.reset "a") s.heap (some 0)
      ∧ ∃ s' reply, s.step? (.reset "a") = some (s', reply)
        ∧ s.heap.Cascade s'.roots (some 0) reply.events
        ∧ reply.events = [⟨0, .fresh "top"⟩, ⟨1, .fresh "left"⟩, ⟨2, .fresh "right"⟩,
          ⟨3, .fresh "bottom"⟩]
        ∧ reply.outcome = .returned (.flag (reply.events ≠ []))
        ∧ s'.slots.get? "a" = some ⟨.concrete, none⟩ := by
  have hrun : ({} : Store).run? [.create .concrete "top" "a", .create .concrete "left" "b",
        .create .concrete "right" "c", .create .concrete "bottom" "d", .push "b" "d",
        .push "c" "d", .push "a" "b", .push "a" "c", .remove "b", .remove "c", .remove "d"]
      = some (⟨⟨⟨[(0, ⟨.fresh "top", [some 1, some 2], 1⟩), (1, ⟨.fresh "left", [some 3], 1⟩),
            (2, ⟨.fresh "right", [some 3], 1⟩), (3, ⟨.fresh "bottom", [], 2⟩)]⟩, 4⟩,
          ⟨[("a", ⟨.concrete, some 0⟩)]⟩, .empty⟩, List.replicate 11 (.quiet .done)) := by
    cbv
  refine ⟨_, _, hrun, @GivesUp.reset _ "a" ⟨.concrete, some 0⟩ rfl, ?_⟩
  obtain ⟨s', reply, hstep, hcascade, -, -, hflag, hempty⟩ :=
    release_cascade hrun (@GivesUp.reset _ "a" ⟨.concrete, some 0⟩ rfl)
  have hevents : reply.events = [⟨0, .fresh "top"⟩, ⟨1, .fresh "left"⟩, ⟨2, .fresh "right"⟩,
      ⟨3, .fresh "bottom"⟩] := by
    rw [@step_reset _ "a" ⟨.concrete, some 0⟩ rfl] at hstep
    cases hstep
    cbv
  exact ⟨s', reply, hstep, hcascade, hevents, hflag "a" (.inl rfl), hempty "a" _ rfl rfl⟩

end Store

end ScriptBinding.Shared
