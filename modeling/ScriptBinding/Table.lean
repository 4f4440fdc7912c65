/-
Tables: finite maps that remember the order in which their keys came.

* `Table.get?`: the view; every operation is described through it.
* `Table.insert`, `Table.erase`, `Table.modify`: a key put last with a value, a
  key taken away, and the value of a key changed where it stands;
  `get?_insert`, `get?_erase`, `get?_modify`.
* `Table.size_erase_lt`: taking away a present key leaves fewer keys.
* `Table.Distinct`: no key stands twice; `Distinct.insert`, `Distinct.erase` and
  `Distinct.modify` say that this is kept.
-/
namespace ScriptBinding

/-- A list of keys with their values; where a key stands twice the first
counts, and no operation writes it twice. -/
structure Table (κ : Type) (ν : Type) where
  entries : List (κ × ν)
  deriving DecidableEq, Repr

namespace Table

variable {κ ν : Type} [DecidableEq κ]

/-- The table without keys. -/
def empty : Table κ ν :=
  ⟨[]⟩

/-- The value of a key. -/
def get? (t : Table κ ν) (k : κ) : Option ν :=
  (t.entries.find? (·.1 = k)).map (·.2)

/-- Whether a key has a value. -/
def contains (t : Table κ ν) (k : κ) : Bool :=
  (t.get? k).isSome

/-- The table without a key. -/
def erase (t : Table κ ν) (k : κ) : Table κ ν :=
  ⟨t.entries.filter (·.1 ≠ k)⟩

/-- The table with a key put last. -/
def insert (t : Table κ ν) (k : κ) (v : ν) : Table κ ν :=
  ⟨(t.erase k).entries ++ [(k, v)]⟩

/-- The keys in order. -/
def keys (t : Table κ ν) : List κ :=
  t.entries.map (·.1)

/-- The number of keys. -/
def size (t : Table κ ν) : Nat :=
  t.entries.length

/-- No key stands twice. -/
def Distinct (t : Table κ ν) : Prop :=
  t.keys.Nodup

/-- The table with the value of a present key replaced where it stands; an
absent key stays absent. -/
def modify (t : Table κ ν) (k : κ) (f : ν → ν) : Table κ ν :=
  ⟨t.entries.map fun e => if e.1 = k then (e.1, f e.2) else e⟩

/-! ### The view after each operation -/

@[simp] theorem get?_empty (k : κ) : (empty : Table κ ν).get? k = none := rfl

theorem get?_mk_cons (e : κ × ν) (es : List (κ × ν)) (k : κ) :
    get? ⟨e :: es⟩ k = if e.1 = k then some e.2 else get? ⟨es⟩ k := by
  by_cases h : e.1 = k <;> simp [get?, h]

theorem get?_erase (t : Table κ ν) (k j : κ) :
    (t.erase k).get? j = if j = k then none else t.get? j := by
  obtain ⟨es⟩ := t
  induction es with
  | nil => simp [erase, get?]
  | cons e es ih =>
    simp only [erase] at ih ⊢
    by_cases h : e.1 = k
    · rw [List.filter_cons_of_neg (by simpa using h), ih, get?_mk_cons]
      by_cases hj : j = k
      · simp [hj]
      · simp [hj, show ¬ e.1 = j from fun he => hj (he ▸ h)]
    · rw [List.filter_cons_of_pos (by simpa using h), get?_mk_cons, get?_mk_cons, ih]
      by_cases hj : e.1 = j
      · simp [hj, show ¬ j = k from fun he => h (hj.trans he)]
      · simp [hj]

theorem get?_append (es fs : List (κ × ν)) (k : κ) :
    get? ⟨es ++ fs⟩ k = ((get? ⟨es⟩ k).or (get? ⟨fs⟩ k)) := by
  simp only [get?, List.find?_append]
  cases es.find? (·.1 = k) <;> simp

theorem get?_insert (t : Table κ ν) (k j : κ) (v : ν) :
    (t.insert k v).get? j = if j = k then some v else t.get? j := by
  rw [insert, get?_append]
  show ((t.erase k).get? j).or _ = _
  rw [get?_erase, get?_mk_cons]
  by_cases h : j = k
  · simp [h]
  · simp [h, show ¬ k = j from fun e => h e.symm, get?]

theorem get?_modify (t : Table κ ν) (k j : κ) (f : ν → ν) :
    (t.modify k f).get? j = if j = k then (t.get? j).map f else t.get? j := by
  obtain ⟨es⟩ := t
  induction es with
  | nil => simp [modify, get?]
  | cons e es ih =>
    simp only [modify, List.map_cons] at ih ⊢
    rw [get?_mk_cons, get?_mk_cons, ih]
    by_cases h : e.1 = k <;> by_cases hj : e.1 = j <;> by_cases hk : j = k <;> simp_all

/-- Taking away a present key leaves fewer keys. -/
theorem size_erase_lt {t : Table κ ν} {k : κ} {v : ν} (h : t.get? k = some v) :
    (t.erase k).size < t.size := by
  obtain ⟨e, he, -⟩ := Option.map_eq_some_iff.1 h
  have hk := List.find?_some he
  exact List.length_filter_lt_length_iff_exists.2
    ⟨e, List.mem_of_find?_eq_some he, by simpa using hk⟩

@[simp] theorem size_modify (t : Table κ ν) (k : κ) (f : ν → ν) :
    (t.modify k f).size = t.size := by
  simp [modify, size]

/-! ### Keys -/

theorem keys_erase (t : Table κ ν) (k : κ) : (t.erase k).keys = t.keys.filter (· ≠ k) := by
  simp [erase, keys, List.filter_map, Function.comp_def]

theorem keys_modify (t : Table κ ν) (k : κ) (f : ν → ν) : (t.modify k f).keys = t.keys := by
  simp only [modify, keys, List.map_map]
  exact List.map_congr_left fun e _ => by by_cases h : e.1 = k <;> simp [h]

/-- A key is present exactly where it has a value. -/
theorem mem_keys_iff {t : Table κ ν} {k : κ} : k ∈ t.keys ↔ (t.get? k).isSome := by
  simp [keys, get?]

theorem Distinct.erase {t : Table κ ν} (h : t.Distinct) (k : κ) : (t.erase k).Distinct := by
  rw [Distinct, keys_erase]
  exact h.filter _

theorem Distinct.modify {t : Table κ ν} (h : t.Distinct) (k : κ) (f : ν → ν) :
    (t.modify k f).Distinct := by
  rw [Distinct, keys_modify]
  exact h

theorem Distinct.insert {t : Table κ ν} (h : t.Distinct) (k : κ) (v : ν) :
    (t.insert k v).Distinct := by
  have hkeys : (t.insert k v).keys = t.keys.filter (· ≠ k) ++ [k] := by
    rw [← keys_erase]
    simp [Table.insert, keys]
  rw [Distinct, hkeys, List.nodup_append]
  exact ⟨h.filter _, by simp, fun a ha b hb => by simp_all⟩

end Table

end ScriptBinding
