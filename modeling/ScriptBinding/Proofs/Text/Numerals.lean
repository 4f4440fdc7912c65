import Mathlib.Data.List.Induction
import Mathlib.Data.Nat.Digits.Lemmas
import ScriptBinding.Text.Hex

/-
Hexadecimal numerals are exact.

* `Spells`: the digits of a number from the most significant on, none of which is above fifteen
  and the first of which is not zero; `spells_iff`: every number has them, and has no others.
* `digits_eq`: the numeral of a positive number is written with these digits.
* `read?_concat`, `read?_map`: reading takes one digit after the other, and comes to their value
  in base sixteen.
* `read?_digits`: the numeral of a number reads back as the number.
-/
namespace ScriptBinding.Hex

/-- The digits of a number, most significant first and without a leading zero. -/
structure Spells (ds : List Nat) (n : Nat) : Prop where
  lt : ∀ d ∈ ds, d < 16
  lead : ds.head? ≠ some 0
  value : Nat.ofDigits 16 ds.reverse = n

/-- A number has one string of digits. -/
lemma spells_iff {ds : List Nat} {n : Nat} : Spells ds n ↔ ds = (Nat.digits 16 n).reverse := by
  constructor
  · rintro ⟨hlt, hlead, rfl⟩
    have hlast : ∀ h : ds.reverse ≠ [], ds.reverse.getLast h ≠ 0 := by
      intro h hzero
      apply hlead
      rw [← List.getLast?_reverse, List.getLast?_eq_some_getLast h, hzero]
    have hdigits : Nat.digits 16 (Nat.ofDigits 16 ds.reverse) = ds.reverse :=
      Nat.digits_ofDigits 16 (by omega) _ (fun d hd => hlt d (List.mem_reverse.mp hd)) hlast
    rw [hdigits, List.reverse_reverse]
  · rintro rfl
    refine ⟨fun d hd => ?_, ?_, ?_⟩
    · exact Nat.digits_lt_base (by omega) (List.mem_reverse.mp hd)
    · rw [List.head?_reverse]
      by_cases hnil : Nat.digits 16 n = []
      · rw [hnil]
        exact nofun
      · rw [List.getLast?_eq_some_getLast hnil, Ne, Option.some_inj]
        exact Nat.getLast_digit_ne_zero 16 (Nat.digits_ne_nil_iff_ne_zero.mp hnil)
    · rw [List.reverse_reverse, Nat.ofDigits_digits]

/-- The numeral of a positive number is written with its digits. -/
lemma digits_eq {n : Nat} (hn : n ≠ 0) :
    digits n = (Nat.digits 16 n).reverse.map Nat.digitChar := by
  -- the last digit is split off, and what is left is a smaller number
  induction n using Nat.strong_induction_on with
  | _ n ih =>
      by_cases hlt : n < 16
      · rw [digits, Nat.toDigits_of_lt_base hlt, Nat.digits_of_lt 16 n hn hlt]
        rfl
      · have hrest : digits (n / 16) = (Nat.digits 16 (n / 16)).reverse.map Nat.digitChar :=
          ih (n / 16) (by omega) (by omega)
        calc digits n
            = digits (n / 16) ++ [(n % 16).digitChar] :=
              Nat.toDigits_of_base_le (by omega) (by omega)
          _ = ((Nat.digits 16 (n / 16)).reverse ++ [n % 16]).map Nat.digitChar := by
              rw [hrest, List.map_append]
              rfl
          _ = (Nat.digits 16 n).reverse.map Nat.digitChar := by
              rw [Nat.digits_def' (n := n) (by omega) (by omega), List.reverse_cons]

/-- Every digit reads as its own value. -/
lemma digit?_digitChar : ∀ {d : Nat}, d < 16 → digit? d.digitChar = some d := by
  decide

/-- A numeral with one more digit. -/
lemma read?_concat {cs : List Char} (hcs : cs ≠ []) (c : Char) :
    read? (cs ++ [c]) = (read? cs).bind fun n => (digit? c).map (16 * n + ·) := by
  have hread : ∀ {cs : List Char}, cs ≠ [] →
      read? cs = cs.foldlM (fun n c => (digit? c).map (16 * n + ·)) 0 := by
    intro cs hcs
    cases cs with
    | nil => exact absurd rfl hcs
    | cons => rfl
  rw [hread (List.append_ne_nil_of_left_ne_nil hcs [c]), hread hcs, List.foldlM_append]
  simp

/-- Digits read as their value in base sixteen. -/
lemma read?_map {ds : List Nat} (hlt : ∀ d ∈ ds, d < 16) (hne : ds ≠ []) :
    read? (ds.map Nat.digitChar) = some (Nat.ofDigits 16 ds.reverse) := by
  induction ds using List.reverseRecOn with
  | nil => exact absurd rfl hne
  | append_singleton ds d ih =>
      obtain ⟨hds, hd⟩ := List.forall_mem_append.mp hlt
      have hdigit := digit?_digitChar (hd d (List.mem_singleton_self d))
      rw [List.map_append, List.map_singleton, List.reverse_concat, Nat.ofDigits_cons]
      by_cases hempty : ds = []
      · subst hempty
        simp [read?, hdigit]
      · rw [read?_concat (by simpa using hempty), ih hds hempty, hdigit, Option.bind_some,
          Option.map_some, Nat.add_comm]

/-- **A numeral reads back as its number.** -/
theorem read?_digits (n : Nat) : read? (digits n) = some n := by
  by_cases hn : n = 0
  · subst hn
    rfl
  · have hspells : Spells (Nat.digits 16 n).reverse n := spells_iff.mpr rfl
    have hne : (Nat.digits 16 n).reverse ≠ [] := by
      rw [Ne, List.reverse_eq_nil_iff]
      exact Nat.digits_ne_nil_iff_ne_zero.mpr hn
    rw [digits_eq hn, read?_map hspells.lt hne, hspells.value]

end ScriptBinding.Hex
