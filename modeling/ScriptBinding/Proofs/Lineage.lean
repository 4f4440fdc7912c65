import Mathlib.Data.List.Basic
import Mathlib.Tactic.Common

/-
Growing lists of objects, in which an object may be copied.

* `Growth`: what a step makes of such a list.
* `Line`, `lines`: the object that an object goes back to, and what was done since to it and to
  those that it is a copy of; `addressed`: what steps do to the object at an index.
* `lines_append`, `lines_start`, `lines_copied`: the line of an object goes on with what is
  addressed to it, and that of a copy begins with the line of the original.
* `mem_acts`, `origin_prolonged`: what lines are made of are steps and objects that there are.
* `Grows`: the list after steps; `replay_lines`: each object is what its line makes of the object
  that it goes back to.
-/
namespace ScriptBinding

/-- What a step that names one of some objects makes of them. -/
inductive Growth (σ α : Type) where
  /-- It changes the object. -/
  | act (a : α)
  /-- It puts a copy of the object last. -/
  | copy
  /-- It puts another object last. -/
  | fresh (x : σ)

/-- What an object is: one that was there before, with all that was done to it since. -/
structure Line (σ α : Type) where
  origin : σ
  acts : List α := []

variable {σ α : Type}

/-- The object that a line ends with. -/
def Line.replay (change : σ → α → σ) (l : Line σ α) : σ :=
  l.acts.foldl change l.origin

/-- A line that goes on. -/
def Line.extend (l : Line σ α) (more : List α) : Line σ α :=
  { l with acts := l.acts ++ more }

namespace Growth

/-- What a step does to the object that it names. -/
def act? : Growth σ α → Option α
  | act a => some a
  | _ => none

/-- The lines of some objects, after a step that names the one at an index. -/
def prolong (ls : List (Line σ α)) (i : Nat) : Growth σ α → List (Line σ α)
  | act a => ls.modify i (·.extend [a])
  | copy => ls ++ ls[i]?.toList
  | fresh x => ls ++ [⟨x, []⟩]

end Growth

/-- Lines that go on with steps, each of which names one of them by its index. -/
def prolonged (ls : List (Line σ α)) (steps : List (Nat × Growth σ α)) : List (Line σ α) :=
  steps.foldl (fun ls step => step.2.prolong ls step.1) ls

/-- The lines of objects after steps. -/
def lines (xs : List σ) (steps : List (Nat × Growth σ α)) : List (Line σ α) :=
  prolonged (xs.map (⟨·, []⟩)) steps

/-- What steps do to the object at an index. -/
def addressed (i : Nat) (steps : List (Nat × Growth σ α)) : List α :=
  steps.filterMap fun step => if step.1 = i then step.2.act? else none

variable {xs ys : List σ} {ls : List (Line σ α)} {l : Line σ α} {i j : Nat} {g : Growth σ α}
  {steps before after : List (Nat × Growth σ α)}

/-! ### Lines -/

@[simp] lemma Line.extend_nil (l : Line σ α) : l.extend [] = l := by
  simp [extend]

lemma Line.extend_extend (l : Line σ α) (as bs : List α) :
    (l.extend as).extend bs = l.extend (as ++ bs) := by
  simp [extend]

lemma addressed_append (i : Nat) (before after : List (Nat × Growth σ α)) :
    addressed i (before ++ after) = addressed i before ++ addressed i after :=
  List.filterMap_append

/-- A step prolongs the line of the object that it does something to, and no other. -/
lemma getElem?_prolong (hl : ls[i]? = some l) (j : Nat) (g : Growth σ α) :
    (g.prolong ls j)[i]? = some (l.extend (addressed i [(j, g)])) := by
  have hi := (List.getElem?_eq_some_iff.mp hl).1
  cases g with
  | act a =>
      rw [Growth.prolong, List.getElem?_modify, hl]
      by_cases hji : j = i <;> simp [addressed, hji, Growth.act?]
  | copy | fresh =>
      rw [Growth.prolong, List.getElem?_append_left hi, hl]
      simp [addressed, Growth.act?]

lemma prolonged_append (ls : List (Line σ α)) (before after : List (Nat × Growth σ α)) :
    prolonged ls (before ++ after) = prolonged (prolonged ls before) after :=
  List.foldl_append

/-- The line of an object goes on with what is addressed to it. -/
lemma getElem?_prolonged (hl : ls[i]? = some l) (steps : List (Nat × Growth σ α)) :
    (prolonged ls steps)[i]? = some (l.extend (addressed i steps)) := by
  induction steps generalizing ls l with
  | nil => exact hl.trans (congrArg some l.extend_nil.symm)
  | cons step steps ih =>
      have hstep := ih (getElem?_prolong hl step.1 step.2)
      rw [Line.extend_extend, ← addressed_append] at hstep
      exact hstep

lemma lines_append (hl : (lines xs before)[i]? = some l) (after : List (Nat × Growth σ α)) :
    (lines xs (before ++ after))[i]? = some (l.extend (addressed i after)) := by
  rw [lines, prolonged_append]
  exact getElem?_prolonged hl after

/-- The line of an object that was there at the start is what was addressed to it. -/
lemma lines_start {x : σ} (hx : xs[i]? = some x) (steps : List (Nat × Growth σ α)) :
    (lines xs steps)[i]? = some ⟨x, addressed i steps⟩ := by
  have hl : (xs.map fun x => (⟨x, []⟩ : Line σ α))[i]? = some ⟨x, []⟩ := by
    rw [List.getElem?_map, hx, Option.map_some]
  exact getElem?_prolonged hl steps

/-- The line of a copy is that of the original so far, and then what is addressed to the copy. -/
lemma lines_copied (hl : (lines xs before)[j]? = some l) (after : List (Nat × Growth σ α)) :
    (lines xs (before ++ (j, .copy) :: after))[(lines xs before).length]?
      = some (l.extend (addressed (lines xs before).length after)) := by
  have hcopy : (lines xs (before ++ [(j, .copy)]))[(lines xs before).length]? = some l := by
    rw [lines, prolonged_append]
    show ((lines xs before) ++ (lines xs before)[j]?.toList)[(lines xs before).length]? = _
    rw [hl, List.getElem?_append_right (Nat.le_refl _), Nat.sub_self]
    rfl
  rw [← List.singleton_append, ← List.append_assoc]
  exact lines_append hcopy after

/-- What belongs to a line was there before, or is something that a step does. -/
lemma mem_acts_prolonged {a : α} (hl : l ∈ prolonged ls steps) (ha : a ∈ l.acts) :
    (∃ l' ∈ ls, a ∈ l'.acts) ∨ ∃ i, (i, Growth.act a) ∈ steps := by
  induction steps generalizing ls with
  | nil => exact .inl ⟨l, hl, ha⟩
  | cons step steps ih =>
      obtain ⟨i, g⟩ := step
      rcases ih hl with ⟨l', hl', ha'⟩ | ⟨j, hj⟩
      · obtain ⟨k, hk⟩ := List.mem_iff_getElem?.mp hl'
        cases g with
        | act b =>
            replace hk : (ls.modify i (·.extend [b]))[k]? = some l' := hk
            rw [List.getElem?_modify] at hk
            obtain ⟨l₀, hl₀, rfl⟩ := Option.map_eq_some_iff.mp hk
            have hmem := List.mem_of_getElem? hl₀
            split at ha'
            · rcases List.mem_append.mp ha' with ha' | ha'
              · exact .inl ⟨l₀, hmem, ha'⟩
              · rw [List.mem_singleton.mp ha']
                exact .inr ⟨i, .head _⟩
            · exact .inl ⟨l₀, hmem, ha'⟩
        | copy =>
            rcases List.mem_append.mp hl' with hl' | hl'
            · exact .inl ⟨l', hl', ha'⟩
            · exact .inl ⟨l', List.mem_of_getElem? (Option.mem_toList.mp hl'), ha'⟩
        | fresh x =>
            rcases List.mem_append.mp hl' with hl' | hl'
            · exact .inl ⟨l', hl', ha'⟩
            · rw [List.mem_singleton.mp hl'] at ha'
              cases ha'
      · exact .inr ⟨j, .tail _ hj⟩

/-- Everything that belongs to the line of an object is something that a step does. -/
lemma mem_acts {a : α} (hl : l ∈ lines xs steps) (ha : a ∈ l.acts) :
    ∃ i, (i, Growth.act a) ∈ steps := by
  refine (mem_acts_prolonged hl ha).resolve_left ?_
  rintro ⟨l', hl', ha'⟩
  obtain ⟨x, -, rfl⟩ := List.mem_map.mp hl'
  cases ha'

/-- A line goes back to an object that was there before, or to one that a step puts last. -/
lemma origin_prolonged (hl : l ∈ prolonged ls steps) :
    (∃ l' ∈ ls, l.origin = l'.origin) ∨ ∃ i, (i, Growth.fresh l.origin) ∈ steps := by
  induction steps generalizing ls with
  | nil => exact .inl ⟨l, hl, rfl⟩
  | cons step steps ih =>
      obtain ⟨i, g⟩ := step
      rcases ih hl with ⟨l', hl', horigin⟩ | ⟨j, hj⟩
      · obtain ⟨k, hk⟩ := List.mem_iff_getElem?.mp hl'
        cases g with
        | act a =>
            replace hk : (ls.modify i (·.extend [a]))[k]? = some l' := hk
            rw [List.getElem?_modify] at hk
            obtain ⟨l₀, hl₀, rfl⟩ := Option.map_eq_some_iff.mp hk
            refine .inl ⟨l₀, List.mem_of_getElem? hl₀, horigin.trans ?_⟩
            split <;> rfl
        | copy =>
            rcases List.mem_append.mp hl' with hl' | hl'
            · exact .inl ⟨l', hl', horigin⟩
            · exact .inl ⟨l', List.mem_of_getElem? (Option.mem_toList.mp hl'), horigin⟩
        | fresh x =>
            rcases List.mem_append.mp hl' with hl' | hl'
            · exact .inl ⟨l', hl', horigin⟩
            · rw [List.mem_singleton.mp hl'] at horigin
              exact .inr ⟨i, horigin ▸ .head _⟩
      · exact .inr ⟨j, .tail _ hj⟩

/-! ### Objects -/

/-- The objects after steps. -/
inductive Grows (change : σ → α → σ) : List σ → List (Nat × Growth σ α) → List σ → Prop where
  | nil (xs : List σ) : Grows change xs [] xs
  | act {xs ys : List σ} {i : Nat} {x : σ} {a : α} {steps : List (Nat × Growth σ α)}
      (found : xs[i]? = some x) (rest : Grows change (xs.set i (change x a)) steps ys) :
      Grows change xs ((i, .act a) :: steps) ys
  | copy {xs ys : List σ} {i : Nat} {x : σ} {steps : List (Nat × Growth σ α)}
      (found : xs[i]? = some x) (rest : Grows change (xs ++ [x]) steps ys) :
      Grows change xs ((i, .copy) :: steps) ys
  | fresh {xs ys : List σ} {i : Nat} {x : σ} {steps : List (Nat × Growth σ α)}
      (rest : Grows change (xs ++ [x]) steps ys) :
      Grows change xs ((i, .fresh x) :: steps) ys

variable {change : σ → α → σ}

lemma map_modify_replay (hl : ls[i]? = some l) (a : α) :
    (ls.modify i (·.extend [a])).map (·.replay change)
      = (ls.map (·.replay change)).set i (change (l.replay change) a) := by
  have hreplay : (l.extend [a]).replay change = change (l.replay change) a :=
    List.foldl_concat change l.origin a l.acts
  rw [← hreplay, ← List.map_set, List.modify_eq_set_getElem?, hl]
  rfl

/-- Objects that are what their lines make of what they go back to stay so. -/
lemma Grows.replay (h : Grows change xs steps ys) (hls : ls.map (·.replay change) = xs) :
    (prolonged ls steps).map (·.replay change) = ys := by
  have hline : ∀ {xs : List σ} {ls : List (Line σ α)} {i : Nat} {x : σ},
      ls.map (·.replay change) = xs → xs[i]? = some x →
      ∃ l, ls[i]? = some l ∧ l.replay change = x := by
    rintro xs ls i x rfl hx
    rw [List.getElem?_map] at hx
    exact Option.map_eq_some_iff.mp hx
  induction h generalizing ls with
  | nil => exact hls
  | act found _ ih =>
      obtain ⟨l, hl, rfl⟩ := hline hls found
      exact ih (hls ▸ map_modify_replay hl _)
  | @copy xs ys i x steps found rest ih =>
      obtain ⟨l, hl, rfl⟩ := hline hls found
      refine ih ?_
      show (ls ++ ls[i]?.toList).map _ = _
      rw [hl, List.map_append, hls]
      rfl
  | @fresh xs ys i x steps rest ih =>
      refine ih ?_
      show (ls ++ [Line.mk x []]).map _ = _
      rw [List.map_append, hls]
      rfl

/-- **Each object is what its line makes** of the object that it goes back to. -/
theorem replay_lines (h : Grows change xs steps ys) :
    (lines xs steps).map (·.replay change) = ys := by
  refine h.replay ?_
  rw [List.map_map]
  exact List.map_id xs

end ScriptBinding
