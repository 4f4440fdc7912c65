import Mathlib.Data.List.TFAE
import ScriptBinding.Proofs.Arising
import ScriptBinding.Proofs.Binding.Logged
import ScriptBinding.Proofs.Registry.Shown
import ScriptBinding.Proofs.Text.Numerals
import ScriptBinding.Vm

/-
The texts of a handle identify its VM.

* `Handle.Writes`: a number as `0x` and its hexadecimal digits; `writes_iff`, `ofText?_text`: the
  text of a handle is its id written so, and reads back as the handle.
* `Handle.Named`, `Handle.Told`: what an id and its handle have to do with each other, and what
  two handles have.
* `Event.vm`, `Log.Entry.Names`: the VM that an event is about, and the VMs that an entry of the
  log names; `names_entry_iff`: they are the same.
* `Binding.Step.vm?`, `Binding.logAbout`: the VM that an operation is about, and what the
  operations about a VM logged; `filter_names_run`: that is what the log names it in.
* `text_identifies`: so neither handles, nor entries of the log, nor listings confuse two VMs.
-/
namespace ScriptBinding

namespace Handle

/-- A text is a number written as `0x` and its digits in base sixteen, in lower case and without a
leading zero. -/
def Writes (s : String) (n : Nat) : Prop :=
  ∃ ds, Hex.Spells ds n ∧ s = "0x" ++ String.ofList (ds.map Nat.digitChar)

/-- What an id and its handle have to do with each other. -/
structure Named (id : UInt64) (h : Handle) : Prop where
  found : ofId? id = some h
  raw : h.id = id
  /-- The text is the id in hexadecimal, and the digits read back as the id. -/
  text (s : String) : s = h.text ↔ Writes s id.toNat
  digits : Hex.read? (h.text.toList.drop 2) = some id.toNat
  read : ofText? h.text = some h
  label : h.label = "VmHandle(" ++ h.text ++ ")"

/-- What two handles have to do with each other. -/
structure Told (a b : Handle) : Prop where
  same : [a.text = b.text, a.label = b.label, a = b, a.id = b.id].TFAE
  kinds : a.text ≠ b.label
  order : order a b = compare a.id.toNat b.id.toNat
  le : a ≤ b ↔ a.id.toNat ≤ b.id.toNat

variable {id : UInt64} {h a b : Handle}

/-! ### Ids and addresses -/

lemma id_inj : a.id = b.id ↔ a = b := by
  constructor
  · intro hid
    obtain ⟨i, hi⟩ := a
    obtain ⟨j, hj⟩ := b
    obtain rfl : i = j := hid
    rfl
  · rintro rfl
    rfl

lemma ofId?_eq_none_iff : ofId? id = none ↔ id = 0 := by
  rw [ofId?]
  split <;> simp [*]

lemma ofId?_id (h : Handle) : ofId? h.id = some h := by
  rw [ofId?, dif_neg h.id_ne_zero]

/-- A handle is the same by address as by id. -/
lemma ofAddress?_eq (address : Address) : ofAddress? address = ofId? address.bits := by
  rw [ofAddress?]
  split
  · rename_i hnull
    rw [hnull]
    rfl
  · rfl

/-! ### Texts -/

lemma toNat_id_ne_zero (h : Handle) : h.id.toNat ≠ 0 := by
  intro hzero
  exact h.id_ne_zero (UInt64.toNat_inj.mp hzero)

lemma toList_text (h : Handle) : h.text.toList = '0' :: 'x' :: Hex.digits h.id.toNat := by
  rw [text, String.toList_append, String.toList_ofList, String.toList_ofList]
  rfl

/-- The text of a handle is its id written in hexadecimal, and nothing else is. -/
lemma writes_iff {s : String} : s = h.text ↔ Writes s h.id.toNat := by
  rw [text, Hex.digits_eq (toNat_id_ne_zero h)]
  constructor
  · rintro rfl
    exact ⟨_, Hex.spells_iff.mpr rfl, rfl⟩
  · rintro ⟨ds, hspells, rfl⟩
    rw [Hex.spells_iff.mp hspells]

/-- The text of a handle reads back as the handle. -/
lemma ofText?_text (h : Handle) : ofText? h.text = some h := by
  simp only [ofText?, toList_text, Hex.read?_digits]
  show (if h.id.toNat < UInt64.size then ofId? (UInt64.ofNat h.id.toNat) else none) = some h
  rw [if_pos h.id.toNat_lt_size, UInt64.ofNat_toNat, ofId?_id]

lemma text_inj : a.text = b.text ↔ a = b := by
  constructor
  · intro htext
    have hread := congrArg ofText? htext
    rw [ofText?_text, ofText?_text] at hread
    exact Option.some.inj hread
  · rintro rfl
    rfl

lemma label_eq (h : Handle) : h.label = "VmHandle(" ++ h.text ++ ")" :=
  rfl

lemma label_inj : a.label = b.label ↔ a = b := by
  rw [label_eq, label_eq, String.append_left_inj, String.append_right_inj, text_inj]

/-- The two texts of handles are never mistaken for each other: they begin differently. -/
lemma text_ne_label (a b : Handle) : a.text ≠ b.label := by
  intro heq
  have hchars := congrArg String.toList heq
  rw [toList_text, label_eq, String.toList_append, String.toList_append] at hchars
  have hhead : '0' = 'V' := congrArg (·.headD 'V') hchars
  exact absurd hhead (by decide)

lemma named (hid : id ≠ 0) : Named id ⟨id, hid⟩ where
  found := ofId?_id ⟨id, hid⟩
  raw := rfl
  text _ := writes_iff
  digits := by
    rw [toList_text]
    exact Hex.read?_digits _
  read := ofText?_text _
  label := rfl

lemma told (a b : Handle) : Told a b where
  same := List.tfae_of_forall (a = b) _ (by simp [text_inj, label_inj, id_inj])
  kinds := text_ne_label a b
  order := UInt64.compare_eq_toNat_compare_toNat a.id b.id
  le := UInt64.le_iff_toNat_le

/-- Sorting handles is sorting their ids. -/
lemma sort_ids (hs : List Handle) :
    (sort hs).map (·.id.toNat) = (hs.map (·.id.toNat)).mergeSort := by
  refine List.map_mergeSort fun a _ b _ => ?_
  rw [decide_eq_decide]
  exact (told a b).le

end Handle

instance : LawfulKey Handle where
  label_injective _ _ := Handle.label_inj.mp
  le_trans _ _ _ hab hbc :=
    decide_eq_true (UInt64.le_trans (of_decide_eq_true hab) (of_decide_eq_true hbc))
  le_total a b := by
    rw [Bool.or_eq_true]
    exact (UInt64.le_total a.id b.id).imp decide_eq_true decide_eq_true
  le_antisymm _ _ hab hba :=
    Handle.id_inj.mp (UInt64.le_antisymm (of_decide_eq_true hab) (of_decide_eq_true hba))

/-! ### Log entries -/

/-- The VM that an event is about. -/
def Event.vm : Event → Handle
  | .registry e => e.key
  | .defaultSet vm | .raising _ vm _ => vm

/-- Whether an entry of the log names a VM, by either text. -/
def Log.Entry.Names (e : Log.Entry) (vm : Handle) : Prop :=
  ("vm", vm.text) ∈ e.fields ∨ ("vm", vm.label) ∈ e.fields

instance (e : Log.Entry) (vm : Handle) : Decidable (e.Names vm) :=
  inferInstanceAs (Decidable (_ ∨ _))

lemma Layer.target_injective : Function.Injective Layer.target := by
  intro a b h
  cases a <;> cases b <;> first | rfl | exact absurd h (by decide)

namespace Event

/-- Only events of a registry are told under its name. -/
lemma target_eq_iff {e : Event} :
    e.entry.target = Registry.Event.target ↔ ∃ inner, e = registry inner := by
  cases e with
  | registry inner => cases inner <;> exact ⟨fun _ => ⟨_, rfl⟩, fun _ => rfl⟩
  | defaultSet vm => exact ⟨fun h => absurd h (show "sqbind_core::default_vm" ≠ _ by decide), nofun⟩
  | raising layer vm m =>
      refine ⟨fun h => absurd h ?_, nofun⟩
      show layer.target ≠ _
      cases layer <;> decide

/-- **An entry of the log tells which event it is of.** -/
theorem entry_injective : Function.Injective entry := by
  intro e e' h
  by_cases hregistry : e.entry.target = Registry.Event.target
  · obtain ⟨inner, rfl⟩ := target_eq_iff.mp hregistry
    obtain ⟨inner', rfl⟩ := target_eq_iff.mp (h ▸ hregistry)
    exact congrArg registry (Registry.Event.entry_injective h)
  · have hregistry' : ¬ e'.entry.target = Registry.Event.target := h ▸ hregistry
    cases e with
    | registry inner => exact absurd (target_eq_iff.mpr ⟨inner, rfl⟩) hregistry
    | defaultSet vm =>
        cases e' with
        | registry inner => exact absurd (target_eq_iff.mpr ⟨inner, rfl⟩) hregistry'
        | defaultSet vm' => simpa [entry, Log.entry, Handle.text_inj] using h
        | raising layer vm' m => simp [entry, Log.entry] at h
    | raising layer vm m =>
        cases e' with
        | registry inner => exact absurd (target_eq_iff.mpr ⟨inner, rfl⟩) hregistry'
        | defaultSet vm' => simp [entry, Log.entry] at h
        | raising layer' vm' m' =>
            obtain rfl : layer = layer' := Layer.target_injective (congrArg Log.Entry.target h)
            simpa [entry, Log.entry, Handle.text_inj] using h

/-- An entry names the VM that its event is about, and no other. -/
lemma names_entry_iff (e : Event) (vm : Handle) : e.entry.Names vm ↔ e.vm = vm := by
  have hfields : (∃ t, (t = e.vm.text ∨ t = e.vm.label)
      ∧ ∀ s, ("vm", s) ∈ e.entry.fields ↔ s = t) := by
    cases e with
    | registry e =>
        refine ⟨e.key.label, .inr rfl, fun s => ?_⟩
        cases e <;> simp [entry, Registry.Event.entry, Registry.Event.key, Log.entry, Key.label]
    | defaultSet vm | raising _ vm _ =>
        refine ⟨vm.text, .inl rfl, fun s => ?_⟩
        simp [entry, Log.entry]
  obtain ⟨t, ht, hfields⟩ := hfields
  rw [Log.Entry.Names, hfields, hfields]
  rcases ht with rfl | rfl
  · have hlabel : vm.label ≠ e.vm.text := (Handle.text_ne_label e.vm vm).symm
    rw [or_iff_left hlabel, Handle.text_inj, eq_comm]
  · rw [or_iff_right (Handle.text_ne_label vm e.vm), Handle.label_inj, eq_comm]

end Event

namespace Binding

/-- The VM that an operation on a state is about: the one that it makes the default, or on whose
errors it is. -/
def Step.vm? (default : Option Handle) : Step → Option Handle
  | .setDefault vm => some vm
  | .configure c => c.defaultVm
  | step => (step.registry? default).bind (·.key?)

/-- An operation logs events about its VM, and about no other. -/
lemma vm_of_mem_events {s : Binding} {step : Step} {e : Event}
    (he : e ∈ (s.step step).2.events) : step.vm? s.defaultVm.vm = some e.vm := by
  have hregistry : ∀ inner, e = .registry inner →
      (step.registry? s.defaultVm.vm).bind (·.key?) = some inner.key := by
    rintro inner rfl
    have hinner : inner ∈ (s.step step).2.events.filterMap Event.registry? :=
      List.mem_filterMap.mpr ⟨_, he, rfl⟩
    rw [registry_events] at hinner
    split at hinner
    · rename_i op hop
      rw [hop]
      exact Registry.key_of_mem_events hinner
    · cases hinner
  cases step with
  | setDefault vm =>
      rw [List.mem_singleton.mp he]
      rfl
  | configure c =>
      have hset : e ∈ (s.configure c).2 := he
      rw [configure] at hset
      cases hvm : c.defaultVm with
      | none =>
          rw [hvm] at hset
          cases hset
      | some vm =>
          rw [hvm] at hset
          rw [List.mem_singleton.mp hset]
          exact hvm
  | throw | throwText | isPending | clear | message | errors =>
      obtain ⟨inner, -, rfl⟩ := List.mem_map.mp he
      exact hregistry inner rfl
  | close vm =>
      have hclosed : e ∈ (s.errors.close vm).2.events.map .registry := by
        rwa [← List.map_id ((s.errors.close vm).2.events.map _)]
      obtain ⟨inner, -, rfl⟩ := List.mem_map.mp hclosed
      exact hregistry inner rfl
  | _ => cases he

/-- A report logs events about the VM that it is on. -/
lemma vm_of_mem_posted {s : Binding} {vm : Handle} {text : String} {e : Event}
    (he : e ∈ (s.post vm text).2.events) : e.vm = vm := by
  have hthrown : e ∈ (s.step (.throwText vm text)).2.events := he
  exact (Option.some.inj (vm_of_mem_events hthrown)).symm

/-- What the operations of a history logged that are about a VM. -/
def logAbout (vm : Handle) (s : Binding) : List Step → List Log.Entry
  | [] => []
  | step :: steps =>
    (if step.vm? s.defaultVm.vm = some vm then (s.step step).2.events.map Event.entry else [])
      ++ logAbout vm (s.step step).1 steps

/-- What an operation logged names its VM throughout, and no other. -/
lemma filter_names_step (s : Binding) (step : Step) (vm : Handle) :
    ((s.step step).2.events.map Event.entry).filter (·.Names vm)
      = if step.vm? s.defaultVm.vm = some vm then (s.step step).2.events.map Event.entry
        else [] := by
  have hnames : ∀ e ∈ (s.step step).2.events,
      e.entry.Names vm ↔ step.vm? s.defaultVm.vm = some vm := by
    intro e he
    rw [Event.names_entry_iff, vm_of_mem_events he, Option.some_inj]
  split
  · rename_i hvm
    refine List.filter_eq_self.mpr fun entry hentry => ?_
    obtain ⟨e, he, rfl⟩ := List.mem_map.mp hentry
    exact decide_eq_true ((hnames e he).mpr hvm)
  · rename_i hother
    refine List.filter_eq_nil_iff.mpr fun entry hentry => ?_
    obtain ⟨e, he, rfl⟩ := List.mem_map.mp hentry
    rw [decide_eq_true_eq, hnames e he]
    exact hother

/-- **The entries of a log that name a VM** are those of the operations that are about it. -/
theorem filter_names_run (s : Binding) (steps : List Step) (vm : Handle) :
    ((s.run steps).2.flatMap fun reply => reply.events.map Event.entry).filter (·.Names vm)
      = s.logAbout vm steps := by
  induction steps generalizing s with
  | nil => rfl
  | cons step steps ih =>
      simp only [run, List.flatMap_cons, List.filter_append, logAbout, filter_names_step, ih]

end Binding

/-- **The texts of a handle identify its VM.** Every id but zero has a handle, whose text is the id
in hexadecimal and reads back as that handle, and an address has the handle of its number. Two
handles have one text, or one label, exactly if they are equal, which they are exactly if their ids
are; and they stand in the order of their ids. So an entry of the log tells which event it is of
and names the VM that it is about and no other; the entries that name a VM are those of the
operations about it; and what is shown of a registry tells for which VMs messages are pending, and
which. -/
theorem text_identifies :
    (∀ id : UInt64, id ≠ 0 → ∃ h, Handle.Named id h)
      ∧ (∀ id, Handle.ofId? id = none ↔ id = 0)
      ∧ (∀ address, Handle.ofAddress? address = Handle.ofId? address.bits)
      ∧ (∀ a b, Handle.Told a b)
      ∧ (∀ hs, (Handle.sort hs).map (·.id.toNat) = (hs.map (·.id.toNat)).mergeSort)
      ∧ Function.Injective Event.entry
      ∧ (∀ (e : Event) vm, e.entry.Names vm ↔ e.vm = vm)
      ∧ (∀ (s : Binding) steps vm,
          ((s.run steps).2.flatMap fun reply => reply.events.map Event.entry).filter (·.Names vm)
            = s.logAbout vm steps)
      ∧ (∀ (s : Binding) vm text, ∀ e ∈ (s.post vm text).2.events, e.vm = vm)
      ∧ ∀ r : Registry Handle, r.Arises → r.Legible
        ∧ ∀ r' : Registry Handle, r'.Arises →
          (r.shown = r'.shown ↔ ∀ vm, r.peek vm = r'.peek vm) := by
  refine ⟨?_, fun id => Handle.ofId?_eq_none_iff, Handle.ofAddress?_eq, Handle.told,
    Handle.sort_ids, Event.entry_injective, Event.names_entry_iff, Binding.filter_names_run, ?_, ?_⟩
  · intro id hid
    exact ⟨⟨id, hid⟩, Handle.named hid⟩
  · intro s vm text e he
    exact Binding.vm_of_mem_posted he
  · intro r hr
    refine ⟨Registry.legible hr.distinct, ?_⟩
    intro r' hr'
    exact Registry.shown_eq_iff hr.distinct hr'.distinct

/-- The VM `0x9`. -/
def Handle.nine : Handle :=
  ⟨9, by decide⟩

/-- The VM `0x10`, whose text comes before that of the other in the order of texts. -/
def Handle.sixteen : Handle :=
  ⟨16, by decide⟩

/-- A history in which the messages look like the texts of VMs. -/
def disguised : List (Registry.Step Handle) :=
  [.throw .sixteen (.text "0x9"), .throw .nine (.text "VmHandle(0x10)"),
    .throw .sixteen (.text "0x9")]

/-- The greatest id, two ids with a power of sixteen between them, and messages that are no texts
of VMs though they look like it. -/
theorem text_identifies_disguised :
    (∃ h, Handle.ofId? 0xffffffffffffffff = some h ∧ h.text = "0xffffffffffffffff")
      ∧ Handle.nine ≤ Handle.sixteen
      ∧ (((Binding.initial.run (disguised.map .errors)).2.flatMap
          fun reply => reply.events.map Event.entry).filter (·.Names .nine)).length = 1
      ∧ ("VmHandle(0x10)", "0x9") ∈ ((Registry.empty .strict).run disguised).1.shown
      ∧ ("VmHandle(0x9)", "0x9") ∉ ((Registry.empty .strict).run disguised).1.shown := by
  obtain ⟨hnamed, -, -, htold, -, -, -, hlog, -, hregistry⟩ := text_identifies
  obtain ⟨h, hh⟩ := hnamed 0xffffffffffffffff (by decide)
  have htext : Handle.Writes "0xffffffffffffffff" (0xffffffffffffffff : UInt64).toNat :=
    ⟨List.replicate 16 15, ⟨by decide, by decide, by decide⟩, by decide⟩
  obtain ⟨hlegible, -⟩ := hregistry _ (.history .strict disguised)
  have hnine : Key.label Handle.nine = "VmHandle(0x9)" := by decide
  have hsixteen : Key.label Handle.sixteen = "VmHandle(0x10)" := by decide
  refine ⟨⟨h, hh.found, ((hh.text _).mpr htext).symm⟩, ?_, ?_, ?_, ?_⟩
  · rw [(htold _ _).le]
    decide
  · rw [hlog]
    decide
  · rw [← hsixteen, hlegible.message]
    decide
  · rw [← hnine, hlegible.message]
    decide

end ScriptBinding
