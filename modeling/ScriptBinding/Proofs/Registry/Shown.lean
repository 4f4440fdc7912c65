import Mathlib.Data.List.Nodup
import ScriptBinding.Proofs.Registry.Attempts
import ScriptBinding.Proofs.Table.Entries
import ScriptBinding.Registry.Listing

/-
What is shown of a registry confuses no two keys, where keys have different texts.

* `LawfulKey`: keys that are told apart by their texts, and listed in a linear order.
* `Registry.contexts`, `Registry.shown`: the listings of a registry, as texts.
* `Registry.Legible`: what listings tell of a registry; `legible`: those of a registry whose keys
  are distinct tell it.
* `shown_eq_iff`: two listings are equal exactly if the same is pending.
* `Registry.Event.key`, `key_of_mem_events`: the key that an event is about; an operation logs
  events about its own key.
* `Registry.Event.entry_injective`: an entry of the log tells which event it is of.
-/
namespace ScriptBinding

/-- Keys that are told apart by their texts, and listed in a linear order. -/
class LawfulKey (κ : Type) [Key κ] : Prop where
  label_injective : Function.Injective (Key.label : κ → String)
  le_trans (a b c : κ) : Key.le a b = true → Key.le b c = true → Key.le a c = true
  le_total (a b : κ) : (Key.le a b || Key.le b a) = true
  le_antisymm (a b : κ) : Key.le a b = true → Key.le b a = true → a = b

namespace Registry

/-! ### Listings -/

section Listing

variable {κ : Type} [Key κ]

/-- The keys with a message pending, as they are shown. -/
def contexts (r : Registry κ) : List String :=
  (sortKeys r.keys).map Key.label

/-- The pending messages, as they are shown. -/
def shown (r : Registry κ) : List (String × String) :=
  r.listing.map fun e => (Key.label e.1, e.2)

/-- Keys are listed in the order of the pending messages. -/
lemma shown_map_fst (r : Registry κ) : r.shown.map (·.1) = r.contexts := by
  have hkeys : r.listing.map (·.1) = sortKeys r.keys :=
    List.map_mergeSort fun _ _ _ _ => rfl
  rw [shown, contexts, ← hkeys, List.map_map, List.map_map]
  rfl

variable [DecidableEq κ]

/-- What listings tell of a registry. -/
structure Legible (r : Registry κ) : Prop where
  /-- Keys are shown in order, each of them once. -/
  sorted : (sortKeys r.keys).Pairwise fun a b => Key.le a b = true
  once : r.contexts.Nodup
  /-- A key is shown exactly if a message is pending for it, and next to that message. -/
  context (k : κ) : Key.label k ∈ r.contexts ↔ (r.peek k).isSome
  message (k : κ) (m : String) : (Key.label k, m) ∈ r.shown ↔ r.peek k = some m
  aligned : r.shown.map (·.1) = r.contexts

variable {r r' : Registry κ} {k : κ} {m : String}

lemma mem_listing_iff (hr : r.pending.Distinct) : (k, m) ∈ r.listing ↔ r.peek k = some m := by
  rw [listing, List.mem_mergeSort]
  exact hr.get?_eq_some_iff.symm

omit [DecidableEq κ] in
lemma nodup_listing (hr : r.pending.Distinct) : r.listing.Nodup :=
  (List.mergeSort_perm _ _).nodup_iff.mpr (List.Nodup.of_map _ hr)

variable [LawfulKey κ]

omit [DecidableEq κ] in
lemma label_inj {j k : κ} : Key.label j = Key.label k ↔ j = k :=
  LawfulKey.label_injective.eq_iff

lemma mem_contexts_iff : Key.label k ∈ r.contexts ↔ (r.peek k).isSome := by
  rw [contexts, List.mem_map_of_injective LawfulKey.label_injective, sortKeys, List.mem_mergeSort]
  exact Table.mem_keys_iff

lemma mem_shown_iff (hr : r.pending.Distinct) :
    (Key.label k, m) ∈ r.shown ↔ r.peek k = some m := by
  have hpair : Function.Injective fun e : κ × String => (Key.label e.1, e.2) := by
    rintro ⟨j, s⟩ ⟨k, t⟩ heq
    obtain ⟨hlabel, htext⟩ := Prod.mk.inj heq
    exact Prod.ext (label_inj.mp hlabel) htext
  rw [← mem_listing_iff hr]
  exact List.mem_map_of_injective hpair (a := (k, m))

/-- The listings of a registry whose keys are distinct tell what is pending. -/
theorem legible (hr : r.pending.Distinct) : r.Legible where
  sorted := List.pairwise_mergeSort LawfulKey.le_trans LawfulKey.le_total _
  once := by
    have hkeys : (sortKeys r.keys).Nodup := (List.mergeSort_perm _ _).nodup_iff.mpr hr
    exact hkeys.map LawfulKey.label_injective
  context _ := mem_contexts_iff
  message _ _ := mem_shown_iff hr
  aligned := shown_map_fst r

omit [DecidableEq κ] in
lemma sorted_listing (r : Registry κ) :
    r.listing.Pairwise fun a b => Key.le a.1 b.1 = true :=
  List.pairwise_mergeSort (fun a b c => LawfulKey.le_trans a.1 b.1 c.1)
    (fun a b => LawfulKey.le_total a.1 b.1) _

/-- In which order messages were recorded does not show. -/
lemma listing_congr (hr : r.pending.Distinct) (hr' : r'.pending.Distinct)
    (hpeek : ∀ k, r.peek k = r'.peek k) : r.listing = r'.listing := by
  have hmem : ∀ e, e ∈ r.listing ↔ e ∈ r'.listing := by
    rintro ⟨k, m⟩
    rw [mem_listing_iff hr, mem_listing_iff hr', hpeek]
  have hperm : r.listing.Perm r'.listing :=
    (List.perm_ext_iff_of_nodup (nodup_listing hr) (nodup_listing hr')).mpr hmem
  refine List.Perm.eq_of_pairwise ?_ (sorted_listing r) (sorted_listing r') hperm
  -- entries that stand on a par have one key, and so one message
  rintro ⟨j, s⟩ ⟨k, t⟩ hj hk hjk hkj
  obtain rfl : j = k := LawfulKey.le_antisymm j k hjk hkj
  have hs := (mem_listing_iff hr).mp hj
  have ht := (mem_listing_iff hr).mp ((hmem _).mpr hk)
  rw [hs, Option.some_inj] at ht
  rw [ht]

/-- **A listing is a picture of what is pending**: two are equal exactly if the same is. -/
theorem shown_eq_iff (hr : r.pending.Distinct) (hr' : r'.pending.Distinct) :
    r.shown = r'.shown ↔ ∀ k, r.peek k = r'.peek k := by
  constructor
  · intro hshown k
    refine Option.ext fun m => ?_
    rw [← mem_shown_iff hr, hshown, mem_shown_iff hr']
  · intro hpeek
    rw [shown, shown, listing_congr hr hr' hpeek]

end Listing

/-! ### Log entries -/

section Log

variable {κ : Type}

/-- The key that an event is about. -/
def Event.key : Event κ → κ
  | .recorded k _ | .dropped k | .rejected k _ _ | .closed k _ => k

/-- **An entry of the log tells which event it is of**, its key included. -/
theorem Event.entry_injective [Key κ] [LawfulKey κ] :
    Function.Injective (entry : Event κ → Log.Entry) := by
  intro e e' h
  cases e <;> cases e' <;> simp [entry, Log.entry, label_inj] at h ⊢ <;> exact h

variable [DecidableEq κ] {r : Registry κ} {step : Step κ} {e : Event κ}

/-- An attempt logs events about its key, and about no other. -/
lemma key_of_attempted {k : κ} {m : Message} {done : Registry κ × Reply (Event κ) (Answer κ)}
    (h : Attempted r step k m done) (he : e ∈ done.2.events) : e.key = k := by
  cases h with
  | unseen | recorded =>
      rw [List.mem_singleton.mp he]
      rfl
  | failing => cases he
  | refused s existing =>
      cases step with
      | throw =>
          rw [List.mem_singleton.mp he]
          rfl
      | _ => cases he

/-- So does every operation. -/
lemma key_of_mem_events (he : e ∈ (r.step step).2.events) : step.key? = some e.key := by
  cases step with
  | throw k m | tryThrow k m => rw [key_of_attempted (attempted rfl) he, Step.key?]
  | close k =>
      have hclosed : e ∈ (r.peek k).toList.map (.closed k) := by
        rwa [← List.map_id ((r.peek k).toList.map _)]
      obtain ⟨m, -, rfl⟩ := List.mem_map.mp hclosed
      rfl
  | _ => cases he

end Log

end Registry

end ScriptBinding
