import ScriptBinding.Proofs.Binding.Effects
import ScriptBinding.Vm

/-
Indices into the stacks of VMs are exact.

* `Stack.magnitude`, `Stack.checkedSub?`, `Stack.slot?`: the place that an index means, computed
  with machine words of 64 bits; `slot?_eq`: no step of this overflows.
* `Stack.fetch?`: what stands there; `typeName?_eq_fetch?`, `string?_eq_fetch?`: types and strings
  are looked up so.
* `position?_eq_some_iff`, `exists_indices`: every item has two indices, one from either end.
* `Stack.Indexed`: what an index means; `RecordsText`: what a report of a wrong type records.
* `indexing_exact`: every index means this on every stack, and so do the texts that name a type.
-/
namespace ScriptBinding

/-- The text of a string. -/
def Value.text? : Value → Option String
  | .string text => some text
  | _ => none

lemma Value.text?_isSome_iff (v : Value) : v.text?.isSome ↔ v.typeName = "string" := by
  cases v <;> simp [text?, typeName]

namespace Stack

/-! ### Machine words -/

/-- The magnitude of a signed word as an unsigned one. -/
def magnitude (index : Int64) : UInt64 :=
  index.abs.toUInt64

/-- The difference of two words, unless it is negative. -/
def checkedSub? (a b : UInt64) : Option UInt64 :=
  if b ≤ a then some (a - b) else none

/-- A signed word as an unsigned one, unless it is negative. -/
def unsigned? (index : Int64) : Option UInt64 :=
  if index < 0 then none else some index.toUInt64

/-- The place that an index means on a stack of `size` values, computed with words. -/
def slot? (size : UInt64) (index : Int64) : Option UInt64 :=
  if index < 0 then checkedSub? size (magnitude index)
  else (unsigned? index).bind fun i => checkedSub? i 1

/-- What stands at an index. -/
def fetch? {α : Type} (xs : List α) (index : Int64) : Option α :=
  (slot? (.ofNat xs.length) index).bind fun i => xs[i.toNat]?

/-- The magnitude of every word is exact, that of the least one included. -/
lemma toNat_magnitude (index : Int64) : (magnitude index).toNat = index.toInt.natAbs := by
  have hlt := index.toBitVec.isLt
  show index.toBitVec.abs.toNat = index.toBitVec.toInt.natAbs
  rw [BitVec.toNat_abs, BitVec.toInt_eq_msb_cond]
  split <;> omega

lemma toNat_checkedSub? (a b : UInt64) : (checkedSub? a b).map UInt64.toNat
    = if b.toNat ≤ a.toNat then some (a.toNat - b.toNat) else none := by
  rw [checkedSub?]
  simp only [UInt64.le_iff_toNat_le]
  split
  · rename_i hle
    rw [Option.map_some, UInt64.toNat_sub_of_le _ _ (UInt64.le_iff_toNat_le.mpr hle)]
  · rfl

lemma toNat_toUInt64 {index : Int64} (h : 0 ≤ index.toInt) :
    index.toUInt64.toNat = index.toInt.natAbs := by
  have hlt := index.toBitVec.isLt
  change 0 ≤ index.toBitVec.toInt at h
  show index.toBitVec.toNat = index.toBitVec.toInt.natAbs
  rw [BitVec.toInt_eq_msb_cond] at h ⊢
  by_cases hmsb : index.toBitVec.msb = true
  · rw [if_pos hmsb] at h
    omega
  · rw [if_neg hmsb, Int.natAbs_natCast]

/-! ### Places -/

variable {size : Nat} {index : Int64}

lemma position?_of_pos (h : 0 < index.toInt) :
    position? size index = some (index.toInt.natAbs - 1) := by
  obtain ⟨k, hk⟩ := Int.eq_succ_of_zero_lt h
  rw [position?, hk]
  rfl

lemma position?_of_zero (h : index.toInt = 0) : position? size index = none := by
  rw [position?, h]

lemma position?_of_neg (h : index.toInt < 0) : position? size index
    = if index.toInt.natAbs ≤ size then some (size - index.toInt.natAbs) else none := by
  obtain ⟨k, hk⟩ := Int.eq_negSucc_of_lt_zero h
  rw [position?, hk]
  rfl

/-- **The words are exact**: no step of the computation overflows on a stack that fits. -/
lemma slot?_eq (hsize : size < 2 ^ 63) (index : Int64) :
    (slot? (.ofNat size) index).map UInt64.toNat = position? size index := by
  have hword : (UInt64.ofNat size).toNat = size :=
    UInt64.toNat_ofNat_of_lt' (Nat.lt_trans hsize (by decide))
  rw [slot?]
  simp only [Int64.lt_iff_toInt_lt, Int64.toInt_zero]
  by_cases hneg : index.toInt < 0
  · rw [if_pos hneg, toNat_checkedSub?, hword, toNat_magnitude, position?_of_neg hneg]
  · have hunsigned : unsigned? index = some index.toUInt64 := by
      rw [unsigned?, if_neg]
      rwa [Int64.lt_iff_toInt_lt, Int64.toInt_zero]
    rw [if_neg hneg, hunsigned, Option.bind_some, toNat_checkedSub?,
      toNat_toUInt64 (Int.not_lt.mp hneg), UInt64.toNat_one]
    by_cases hzero : index.toInt = 0
    · rw [position?_of_zero hzero, hzero]
      rfl
    · rw [position?_of_pos (by omega), if_pos (by omega)]

/-- An item has the index that counts from the bottom and the one that counts from the top. -/
lemma position?_eq_some_iff {k : Nat} (hk : k < size) : position? size index = some k
    ↔ index.toInt = k + 1 ∨ index.toInt = k - size := by
  rcases lt_trichotomy index.toInt 0 with hneg | hzero | hpos
  · rw [position?_of_neg hneg]
    split
    · rw [Option.some_inj]
      omega
    · simp only [reduceCtorEq, false_iff]
      omega
  · rw [position?_of_zero hzero]
    simp only [reduceCtorEq, false_iff]
    omega
  · rw [position?_of_pos hpos, Option.some_inj]
    omega

/-- An index means an item exactly if its magnitude is at least one and at most the height. -/
lemma exists_position?_iff : (∃ k < size, position? size index = some k)
    ↔ 1 ≤ index.toInt.natAbs ∧ index.toInt.natAbs ≤ size := by
  constructor
  · rintro ⟨k, hk, hposition⟩
    rcases (position?_eq_some_iff hk).mp hposition with hup | hdown <;> omega
  · rintro ⟨hone, hle⟩
    rcases lt_trichotomy index.toInt 0 with hneg | hzero | hpos
    · exact ⟨size - index.toInt.natAbs, by omega,
        (position?_eq_some_iff (by omega)).mpr (.inr (by omega))⟩
    · omega
    · exact ⟨index.toInt.natAbs - 1, by omega,
        (position?_eq_some_iff (by omega)).mpr (.inl (by omega))⟩

/-- The two indices of an item, which are as far apart as the stack is high and one more. -/
lemma exists_indices (hsize : size < 2 ^ 63) {k : Nat} (hk : k < size) :
    ∃ up down : Int64, 0 < up.toInt ∧ down.toInt < 0 ∧ up.toInt - down.toInt = size + 1
      ∧ ∀ index, position? size index = some k ↔ index = up ∨ index = down := by
  have hup : (Int64.ofInt (k + 1)).toInt = k + 1 :=
    Int64.toInt_ofInt_of_le (by omega) (by omega)
  have hdown : (Int64.ofInt (k - size)).toInt = k - size :=
    Int64.toInt_ofInt_of_le (by omega) (by omega)
  refine ⟨.ofInt (k + 1), .ofInt (k - size), by omega, by omega, by omega, fun index => ?_⟩
  rw [position?_eq_some_iff hk, ← Int64.toInt_inj, ← Int64.toInt_inj, hup, hdown]

/-! ### Looking up -/

lemma fetch?_eq {α : Type} {xs : List α} (hsize : xs.length < 2 ^ 63) (index : Int64) :
    fetch? xs index = (position? xs.length index).bind fun k => xs[k]? := by
  rw [fetch?, ← slot?_eq hsize, Option.bind_map]
  rfl

lemma fetch?_map {α β : Type} (f : α → β) (xs : List α) (index : Int64) :
    fetch? (xs.map f) index = (fetch? xs index).map f := by
  rw [fetch?, fetch?, List.length_map, Option.map_bind]
  simp only [List.getElem?_map, Function.comp_def]

variable {s : Stack}

lemma typeName?_eq_fetch? (hsize : s.types.length < 2 ^ 63) (index : Int64) :
    s.typeName? index = fetch? s.types index :=
  (fetch?_eq hsize index).symm

lemma string?_eq_fetch? {vs : List Value} (hsize : vs.length < 2 ^ 63) (index : Int64) :
    (values vs).string? index = (fetch? vs index).bind Value.text? := by
  rw [fetch?_eq hsize, string?]
  simp only [Option.bind_eq_bind, Option.bind_assoc]
  rfl

/-- A string stands where the name of the type is that of strings. -/
lemma string?_isSome_iff {vs : List Value} (hsize : vs.length < 2 ^ 63) (index : Int64) :
    ((values vs).string? index).isSome ↔ (values vs).typeName? index = some "string" := by
  have htypes : (values vs).typeName? index = (fetch? vs index).map Value.typeName := by
    rw [typeName?_eq_fetch? (by rwa [types, List.length_map]), types, fetch?_map]
  rw [string?_eq_fetch? hsize, htypes]
  cases fetch? vs index with
  | none => simp
  | some v => simpa using v.text?_isSome_iff

/-- What an index means on a stack. -/
structure Indexed (s : Stack) (index : Int64) : Prop where
  /-- The magnitude of the index is exact, and the words of 64 bits compute its place. -/
  magnitude : (magnitude index).toNat = index.toInt.natAbs
  slot : (slot? (.ofNat s.types.length) index).map UInt64.toNat = position? s.types.length index
  resolves : (s.typeName? index).isSome
    ↔ 1 ≤ index.toInt.natAbs ∧ index.toInt.natAbs ≤ s.types.length
  /-- A positive index counts from the bottom. -/
  bottom : 0 < index.toInt → s.typeName? index = s.types[index.toInt.natAbs - 1]?
  /-- A negative index counts from the top. -/
  top : index.toInt < 0 → index.toInt.natAbs ≤ s.types.length →
    s.typeName? index = s.types[s.types.length - index.toInt.natAbs]?

lemma indexed (hsize : s.types.length < 2 ^ 63) (index : Int64) : s.Indexed index := by
  have hname : s.typeName? index
      = (position? s.types.length index).bind fun k => s.types[k]? := rfl
  refine ⟨toNat_magnitude index, slot?_eq hsize index, ?_, fun hpos => ?_, fun hneg hle => ?_⟩
  · have hfound : ∀ place : Option Nat, (place.bind fun k => s.types[k]?).isSome
        ↔ ∃ k < s.types.length, place = some k := by
      intro place
      cases place <;> simp
    rw [hname, hfound, exists_position?_iff]
  · rw [hname, position?_of_pos hpos]
    rfl
  · rw [hname, position?_of_neg hneg, if_pos hle]
    rfl

end Stack

/-! ### Reports of a wrong type -/

open ProcessWide

/-- In either layer, what a report of a wrong type records is a text, unless a message is pending.
In the process-wide one it does so before the VM is involved, whose reaction may drain it. -/
structure RecordsText (hosts : List Host) (vm : Nat) (host : Host) (index : Int64)
    (expected text : String) : Prop where
  direct : ∀ {react session i s next answer}, session.states[i]? = some s →
    Binding.Session.step react hosts session i (.reportTypeError vm index expected)
      = .ok (next, answer) →
    ∃ s', next.states[i]? = some s'
      ∧ s'.errors.peek host.vm.handle = (s.errors.peek host.vm.handle).or (some text)
  processWide : ∀ {react w next answer},
    stepWith react hosts w (.reportTypeError vm index expected) = .ok (next, answer) →
    ∃ w' posting, w.access (·.post host.vm.handle text) (·.events.map .logged) (fun _ => false)
        = .ok (w', posting)
      ∧ w'.cell.state.errors.peek host.vm.handle
        = (w.cell.state.errors.peek host.vm.handle).or (some text)
      ∧ conclude react .processWide w' w.trace.length vm host text posting = .ok (next, answer)

lemma peek_post (s : Binding) (vm : Handle) (text : String) :
    (s.post vm text).1.errors.peek vm = (s.errors.peek vm).or (some text) :=
  (Registry.peek_throwText s.errors vm vm text).trans (by rw [if_pos rfl])

/-- A report of a wrong type records how the VM words it. -/
lemma recorded_typeErrorText {hosts : List Host} {vm : Nat} {host : Host}
    (hhost : hosts[vm]? = some host) (index : Int64) (expected : String) :
    RecordsText hosts vm host index expected (host.vm.typeErrorText index expected) where
  direct := by
    intro react session i s next answer hs h
    have hafter : (Binding.Session.Step.reportTypeError vm index expected).after hosts s
        = (s.post host.vm.handle (host.vm.typeErrorText index expected)).1 := by
      simp only [Binding.Session.Step.after, Binding.Session.Step.reported?, hhost, Option.map_some]
    refine ⟨_, ?_, peek_post s host.vm.handle _⟩
    rw [(Binding.Session.step_effect h hs).1, hafter]
    have hset := Binding.Session.getElem?_set_of_eq_some hs
      (s.post host.vm.handle (host.vm.typeErrorText index expected)).1
    rw [List.getElem?_append_left (List.getElem?_eq_some_iff.mp hset).1, hset]
  processWide := by
    intro react w next answer h
    simp only [stepWith, reportText, bind_eq_ok] at h
    obtain ⟨found, hfound, ⟨w', posting⟩, haccess, hconclude⟩ := h
    cases (hostAt_eq_ok hfound).symm.trans hhost
    refine ⟨w', posting, haccess, ?_, hconclude⟩
    rw [(access_eq_ok haccess).2.1]
    exact peek_post w.cell.state host.vm.handle _

namespace Stack

/-- **Indices are exact** on every stack, over the whole range of signed words: an index means the
item that it counts to from its end, which both kinds of stacks compute with words that do not
overflow; every item has one index from either end; and the texts that word a wrong type name the
type that stands there, or say that it is unknown. -/
theorem indexing_exact {s : Stack} (hsize : s.types.length < 2 ^ 63) :
    (∀ index, s.Indexed index)
      ∧ (∀ k, k < s.types.length → ∃ up down : Int64, 0 < up.toInt ∧ down.toInt < 0
          ∧ up.toInt - down.toInt = s.types.length + 1
          ∧ ∀ index, position? s.types.length index = some k ↔ index = up ∨ index = down)
      ∧ (∀ vs, s = values vs → ∀ index,
          s.typeName? index = (fetch? vs index).map Value.typeName
            ∧ s.string? index = (fetch? vs index).bind Value.text?
            ∧ ((s.string? index).isSome ↔ s.typeName? index = some "string"))
      ∧ (∀ names, s = typeNames names → ∀ index, s.typeName? index = fetch? names index)
      ∧ (∀ t : Stack, t.types = s.types → ∀ index, t.typeName? index = s.typeName? index)
      ∧ ∀ hosts vm host, hosts[vm]? = some host → host.vm.stack = s → ∀ index expected,
          host.vm.typeErrorText index expected = "wrong type (" ++ expected ++ " expected, got "
              ++ (s.typeName? index).getD "unknown" ++ ")"
            ∧ RecordsText hosts vm host index expected (host.vm.typeErrorText index expected) := by
  refine ⟨indexed hsize, fun k hk => exists_indices hsize hk, ?_, ?_, ?_, ?_⟩
  · rintro vs rfl index
    have hvs : vs.length < 2 ^ 63 := by rwa [types, List.length_map] at hsize
    refine ⟨?_, string?_eq_fetch? hvs index, string?_isSome_iff hvs index⟩
    rw [typeName?_eq_fetch? hsize, types, fetch?_map]
  · rintro names rfl index
    exact typeName?_eq_fetch? hsize index
  · intro t htypes index
    rw [typeName?, typeName?, htypes]
  · rintro hosts vm host hhost rfl index expected
    exact ⟨rfl, recorded_typeErrorText hhost index expected⟩

/-- Three values. -/
def mixed : Stack :=
  .values [.integer, .string "x", .table]

/-- The least index names no value, and its magnitude fits all the same; the string is found from
either end. -/
theorem indexing_exact_mixed :
    mixed.Indexed Int64.minValue ∧ (magnitude Int64.minValue).toNat = 2 ^ 63
      ∧ mixed.typeName? Int64.minValue = none
      ∧ mixed.typeName? (-2) = some "string" ∧ (mixed.string? (-2)).isSome
      ∧ mixed.typeName? 2 = mixed.typeName? (-2)
      ∧ RecordsText [⟨⟨.one, mixed⟩, [], none⟩] 0 ⟨⟨.one, mixed⟩, [], none⟩ Int64.minValue "string"
        "wrong type (string expected, got unknown)"
      ∧ RecordsText [⟨⟨.one, mixed⟩, [], none⟩] 0 ⟨⟨.one, mixed⟩, [], none⟩ (-1) "string"
        "wrong type (string expected, got table)" := by
  obtain ⟨hindexed, -, hvalues, -, -, hreports⟩ := indexing_exact (s := mixed) (by decide)
  have hmagnitude : (magnitude Int64.minValue).toNat = 2 ^ 63 :=
    (hindexed Int64.minValue).magnitude.trans (by decide)
  have hbottom : mixed.typeName? 2 = some "string" := (hindexed 2).bottom (by decide)
  have htop : mixed.typeName? (-2) = some "string" :=
    (hindexed (-2)).top (by decide) (by decide)
  have hleast : mixed.typeName? Int64.minValue = none := by
    decide
  have hstring := (hvalues _ rfl (-2)).2.2.mpr htop
  refine ⟨hindexed _, hmagnitude, hleast, htop, hstring, hbottom.trans htop.symm, ?_, ?_⟩
  · exact (hreports [⟨⟨.one, mixed⟩, [], none⟩] 0 _ rfl rfl Int64.minValue "string").2
  · exact (hreports [⟨⟨.one, mixed⟩, [], none⟩] 0 _ rfl rfl (-1) "string").2

end Stack

end ScriptBinding
