import Mathlib.Tactic.Common
import ScriptBinding.Table

/-
The entries of a table up to order.  A table whose keys are distinct is, as a
bag of entries, the entry of a present key together with the table without that
key, and every operation changes only the first part.

* `Distinct.perm_erase`, `Distinct.perm_modify`: a present key split off, before
  and after its value is changed.
* `erase_eq_self`, `insert_eq_append`: nothing is taken away for an absent key.
* `size_insert`, `Distinct.size_erase`: an absent key put in is one entry more, and a
  present key taken away is one less.
* `Distinct.get?_eq_some_iff`: the view lists exactly the entries.
* `modify_modify`, `modify_comm`, `erase_modify`: how changes of values follow one another.
* `Distinct.modify_congr`, `Distinct.modify_swap`, `Distinct.modify_eq_self`: a change is a matter
  of the value that is there; replacing a value by itself changes nothing.
-/
namespace ScriptBinding.Table

variable {κ ν : Type} [DecidableEq κ]

omit [DecidableEq κ] in
lemma distinct_empty : (empty : Table κ ν).Distinct := List.nodup_nil

/-- An absent key has no entry. -/
lemma ne_of_get?_eq_none {t : Table κ ν} {k : κ} (h : t.get? k = none) :
    ∀ e ∈ t.entries, e.1 ≠ k := by
  intro e he hk
  have hfind := Option.map_eq_none_iff.mp h
  exact absurd (List.find?_eq_none.mp hfind e he) (by simp [hk])

/-- Taking away an absent key changes nothing. -/
lemma erase_eq_self {t : Table κ ν} {k : κ} (h : t.get? k = none) : t.erase k = t := by
  have hne := ne_of_get?_eq_none h
  rw [erase, List.filter_eq_self.mpr fun e he => by simpa using hne e he]

/-- An absent key is put behind all others. -/
lemma insert_eq_append {t : Table κ ν} {k : κ} (h : t.get? k = none) (v : ν) :
    (t.insert k v).entries = t.entries ++ [(k, v)] := by
  rw [insert, erase_eq_self h]

/-- An absent key put in is one entry more. -/
lemma size_insert {t : Table κ ν} {k : κ} (h : t.get? k = none) (v : ν) :
    (t.insert k v).size = t.size + 1 := by
  rw [size, insert_eq_append h, List.length_append]
  rfl

/-- The table without its first entry still has distinct keys, and that key is
none of them. -/
lemma Distinct.of_cons {e : κ × ν} {es : List (κ × ν)} (h : Distinct ⟨e :: es⟩) :
    Distinct ⟨es⟩ ∧ get? ⟨es⟩ e.1 = none := by
  obtain ⟨hnot, hes⟩ := List.nodup_cons.mp h
  refine ⟨hes, ?_⟩
  rw [get?, Option.map_eq_none_iff, List.find?_eq_none]
  intro f hf hk
  exact hnot (List.mem_map.mpr ⟨f, hf, by simpa using hk⟩)

/-- A present key split off, after its value was changed. -/
lemma Distinct.perm_modify {t : Table κ ν} (ht : t.Distinct) {k : κ} {v : ν}
    (h : t.get? k = some v) (f : ν → ν) :
    (t.modify k f).entries.Perm ((k, f v) :: (t.erase k).entries) := by
  obtain ⟨es⟩ := t
  induction es with
  | nil => simp [get?] at h
  | cons e es ih =>
      obtain ⟨hes, hnone⟩ := ht.of_cons
      rw [get?_mk_cons] at h
      by_cases hk : e.1 = k
      · -- the entry stands first, and no other has its key
        rw [if_pos hk, Option.some_inj] at h
        subst hk h
        have hrest : ∀ x ∈ es, x.1 ≠ e.1 := ne_of_get?_eq_none hnone
        have hmap : (es.map fun x => if x.1 = e.1 then (x.1, f x.2) else x) = es :=
          (List.map_congr_left fun x hx => if_neg (hrest x hx)).trans (List.map_id es)
        have hfilter : es.filter (·.1 ≠ e.1) = es :=
          List.filter_eq_self.mpr fun x hx => by simpa using hrest x hx
        rw [Table.erase, List.filter_cons_of_neg (by simp), hfilter]
        simp [Table.modify, hmap]
      · rw [if_neg hk] at h
        have ih := ih hes h
        simp only [Table.modify, Table.erase, List.map_cons, if_neg hk] at ih ⊢
        rw [List.filter_cons_of_pos (by simpa using hk)]
        exact (ih.cons e).trans (List.Perm.swap _ _ _)

/-- A present key split off. -/
lemma Distinct.perm_erase {t : Table κ ν} (ht : t.Distinct) {k : κ} {v : ν}
    (h : t.get? k = some v) : t.entries.Perm ((k, v) :: (t.erase k).entries) := by
  have hmod := ht.perm_modify h id
  have hid : (t.modify k id).entries = t.entries := by simp [Table.modify]
  rwa [hid] at hmod

/-- A present key taken away is one entry less. -/
lemma Distinct.size_erase {t : Table κ ν} (ht : t.Distinct) {k : κ} {v : ν}
    (h : t.get? k = some v) : (t.erase k).size + 1 = t.size :=
  (ht.perm_erase h).length_eq.symm

/-- The view lists exactly the entries. -/
lemma Distinct.get?_eq_some_iff {t : Table κ ν} (ht : t.Distinct) {k : κ} {v : ν} :
    t.get? k = some v ↔ (k, v) ∈ t.entries := by
  constructor
  · intro h
    exact (ht.perm_erase h).mem_iff.mpr (List.mem_cons_self ..)
  · intro hmem
    have hkey : k ∈ t.keys := List.mem_map.mpr ⟨(k, v), hmem, rfl⟩
    obtain ⟨w, hw⟩ := Option.isSome_iff_exists.mp (mem_keys_iff.mp hkey)
    rcases List.mem_cons.mp ((ht.perm_erase hw).mem_iff.mp hmem) with heq | hrest
    · rw [hw, (Prod.mk.inj heq).2]
    · exact absurd (List.mem_filter.mp hrest).2 (by simp)

/-! ### Changes that follow one another -/

omit [DecidableEq κ] in
lemma ext {t u : Table κ ν} (h : t.entries = u.entries) : t = u :=
  congrArg Table.mk h

/-- A value changed twice. -/
lemma modify_modify (t : Table κ ν) (k : κ) (f g : ν → ν) :
    (t.modify k f).modify k g = t.modify k (g ∘ f) := by
  refine ext ((List.map_map ..).trans (List.map_congr_left fun e _ => ?_))
  by_cases hk : e.1 = k <;> simp [hk]

/-- Changes of the values of two keys may be made in either order. -/
lemma modify_comm (t : Table κ ν) {k j : κ} (hne : k ≠ j) (f g : ν → ν) :
    (t.modify k f).modify j g = (t.modify j g).modify k f := by
  refine ext ((List.map_map ..).trans ((List.map_congr_left fun e _ => ?_).trans
    (List.map_map ..).symm))
  by_cases hk : e.1 = k <;> by_cases hj : e.1 = j <;> simp_all

/-- A value changed before a key is taken away, or after. -/
lemma erase_modify (t : Table κ ν) (k j : κ) (f : ν → ν) :
    (t.modify k f).erase j = (t.erase j).modify k f := by
  refine ext (List.filter_map.trans ?_)
  congr 1
  refine List.filter_congr fun e _ => ?_
  by_cases hk : e.1 = k <;> simp [hk]

/-- A change is a matter of the value that is there. -/
lemma Distinct.modify_congr {t : Table κ ν} (ht : t.Distinct) {k : κ} {v : ν}
    (h : t.get? k = some v) {f g : ν → ν} (hfg : f v = g v) : t.modify k f = t.modify k g := by
  refine ext (List.map_congr_left fun e he => ?_)
  split
  · rename_i hk
    have hv : t.get? k = some e.2 := ht.get?_eq_some_iff.mpr (hk ▸ he)
    rw [h, Option.some_inj] at hv
    rw [← hv, hfg]
  · rfl

/-- Two changes may be made in either order where they commute on the value that is there. -/
lemma Distinct.modify_swap {t : Table κ ν} (ht : t.Distinct) {k : κ} {v : ν}
    (h : t.get? k = some v) (j : κ) {f g : ν → ν} (hfg : g (f v) = f (g v)) :
    (t.modify j f).modify k g = (t.modify k g).modify j f := by
  by_cases hjk : j = k
  · subst hjk
    rw [modify_modify, modify_modify]
    exact ht.modify_congr h hfg
  · exact t.modify_comm hjk f g

/-- Replacing a value by itself changes nothing. -/
lemma Distinct.modify_eq_self {t : Table κ ν} (ht : t.Distinct) {k : κ} {v : ν}
    (h : t.get? k = some v) {f : ν → ν} (hf : f v = v) : t.modify k f = t := by
  rw [ht.modify_congr h (show f v = id v from hf)]
  exact ext (by simp [Table.modify])

end ScriptBinding.Table
