import Mathlib.Data.List.Forall2
import Mathlib.Data.List.Nodup
import ScriptBinding.Proofs.Registry.Views
import ScriptBinding.Registry.Listing

/-
A registry depends on its keys through equality only.

* `Table.rename`, `Registry.rename`: keys replaced by others, where they stand; an injective
  renaming commutes with every operation, `step_rename`, and with every history, `turns_rename`.
* `Registry.Renamed`: what is pending is the image of what was pending, and nothing else is.
* `Answer.Renamed`, `Log.Entry.AgreesBut`: the same answer, and the same log entry, but for keys.
* `Turn.Renamed`: the same operation on other keys, with the same outcome, conversions and events.
* `keys_immaterial`: a history on renamed keys goes on side by side with the original one.
-/
namespace ScriptBinding

/-- Answers and events seen through functions twice. -/
lemma Reply.map_map {ε φ ψ α β γ : Type} (e : ε → φ) (a : α → β) (e' : φ → ψ) (a' : β → γ)
    (r : Reply ε α) : (r.map e a).map e' a' = r.map (e' ∘ e) (a' ∘ a) := by
  obtain ⟨outcome, conversions, events⟩ := r
  cases outcome <;> simp [Reply.map, Outcome.map]

lemma Outcome.map_eq_returned {α β : Type} {f : α → β} {x : Outcome α} {b : β} :
    x.map f = .returned b ↔ ∃ a, x = .returned a ∧ f a = b := by
  cases x <;> simp [Outcome.map]

lemma Outcome.map_eq_aborted {α β : Type} {f : α → β} {x : Outcome α} {why : String} :
    x.map f = .aborted why ↔ x = .aborted why := by
  cases x <;> simp [Outcome.map]

namespace Table

variable {κ κ' ν : Type}

/-- The table with its keys replaced. -/
def rename (f : κ → κ') (t : Table κ ν) : Table κ' ν :=
  ⟨t.entries.map fun e => (f e.1, e.2)⟩

lemma keys_rename (f : κ → κ') (t : Table κ ν) : (t.rename f).keys = t.keys.map f := by
  simp [rename, keys]

variable [DecidableEq κ] [DecidableEq κ'] {f : κ → κ'} (hf : Function.Injective f)

include hf

lemma get?_rename (t : Table κ ν) (k : κ) : (t.rename f).get? (f k) = t.get? k := by
  obtain ⟨es⟩ := t
  induction es with
  | nil => rfl
  | cons e es ih =>
      simp only [rename, List.map_cons] at ih ⊢
      rw [get?_mk_cons, get?_mk_cons, ih]
      exact if_congr hf.eq_iff rfl rfl

omit [DecidableEq κ] hf in
/-- A key that is no image has no value. -/
lemma get?_rename_eq_none (t : Table κ ν) {k' : κ'} (hk' : ∀ k, f k ≠ k') :
    (t.rename f).get? k' = none := by
  have hnot : k' ∉ (t.rename f).keys := by
    rw [keys_rename, List.mem_map]
    rintro ⟨k, -, hk⟩
    exact hk' k hk
  rwa [mem_keys_iff, Option.not_isSome_iff_eq_none] at hnot

lemma erase_rename (t : Table κ ν) (k : κ) : (t.rename f).erase (f k) = (t.erase k).rename f := by
  rw [erase, rename, List.filter_map, erase, rename]
  simp [Function.comp_def, hf.eq_iff]

lemma insert_rename (t : Table κ ν) (k : κ) (v : ν) :
    (t.rename f).insert (f k) v = (t.insert k v).rename f := by
  rw [insert, erase_rename hf, insert, rename, rename, List.map_append]
  rfl

end Table

/-- Two log entries that differ at most in the text of one field. -/
structure Log.Entry.AgreesBut (field : String) (a b : Log.Entry) : Prop where
  level : b.level = a.level
  target : b.target = a.target
  fields : List.Forall₂ (fun x y => y.1 = x.1 ∧ (x.1 ≠ field → y.2 = x.2)) a.fields b.fields

namespace Registry

variable {κ κ' : Type}

/-- The registry with its keys replaced. -/
def rename (f : κ → κ') (r : Registry κ) : Registry κ' :=
  ⟨r.pending.rename f, r.mode⟩

/-- The event on another key. -/
def Event.rename (f : κ → κ') : Event κ → Event κ'
  | .recorded k m => .recorded (f k) m
  | .dropped k => .dropped (f k)
  | .rejected k existing refused => .rejected (f k) existing refused
  | .closed k m => .closed (f k) m

/-- The operation on another key. -/
def Step.rename (f : κ → κ') : Step κ → Step κ'
  | .throw k m => .throw (f k) m
  | .tryThrow k m => .tryThrow (f k) m
  | .isPending k => .isPending (f k)
  | .clear k => .clear (f k)
  | .message k => .message (f k)
  | .take k => .take (f k)
  | .peek k => .peek (f k)
  | .close k => .close (f k)
  | .size => .size
  | .isEmpty => .isEmpty
  | .keys => .keys
  | .mode => .mode
  | .setMode m => .setMode m
  | .inspect => .inspect

/-- The answer of a registry with its keys replaced. -/
def Answer.rename (f : κ → κ') : Answer κ → Answer κ'
  | .done => .done
  | .refused e => .refused e
  | .flag b => .flag b
  | .text s => .text s
  | .found m => .found m
  | .count n => .count n
  | .keys ks => .keys (ks.map f)
  | .mode m => .mode m
  | .whole r => .whole (r.rename f)

/-- The operation on a registry with its keys replaced. -/
def Turn.rename (f : κ → κ') (t : Turn κ) : Turn κ' :=
  ⟨t.before.rename f, t.step.rename f⟩

/-- The log entries of an event on another key. -/
lemma Event.entry_rename [Key κ] [Key κ'] (f : κ → κ') (e : Event κ) :
    e.entry.AgreesBut "vm" (e.rename f).entry := by
  cases e <;> refine ⟨rfl, rfl, ?_⟩ <;> simp [Event.rename, Event.entry, Log.entry]

lemma size_rename (f : κ → κ') (r : Registry κ) : (r.rename f).size = r.size :=
  List.length_map _

lemma isEmpty_rename (f : κ → κ') (r : Registry κ) : (r.rename f).isEmpty = r.isEmpty :=
  List.isEmpty_map

section Injective

variable [DecidableEq κ] [DecidableEq κ'] {f : κ → κ'} (hf : Function.Injective f)

include hf

/-! ### One operation -/

lemma peek_rename (r : Registry κ) (k : κ) : (r.rename f).peek (f k) = r.peek k :=
  Table.get?_rename hf r.pending k

lemma record_rename (r : Registry κ) (k : κ) (s : String) :
    (r.rename f).record (f k) s = (r.record k s).rename f := by
  rw [record, record, rename, rename, Table.insert_rename hf]

lemma remove_rename (r : Registry κ) (k : κ) :
    (r.rename f).remove (f k) = (r.remove k).rename f := by
  rw [remove, remove, rename, rename, Table.erase_rename hf]

lemma throwText_rename (r : Registry κ) (k : κ) (s : String) :
    (r.rename f).throwText (f k) s
      = ((r.throwText k s).1.rename f, (r.throwText k s).2.map (Event.rename f) id) := by
  rw [throwText, throwText, peek_rename hf]
  cases r.peek k with
  | none => exact congrArg (·, _) (record_rename hf r k s)
  | some existing =>
      have hmode : (r.rename f).mode = r.mode := rfl
      rw [hmode]
      cases r.mode <;> rfl

lemma throw_rename (r : Registry κ) (k : κ) (m : Message) :
    (r.rename f).throw (f k) m
      = ((r.throw k m).1.rename f, (r.throw k m).2.map (Event.rename f) id) := by
  have hmode : (r.rename f).mode = r.mode := rfl
  have hpending : (r.rename f).isPending (f k) = r.isPending k := by
    rw [isPending, isPending, peek_rename hf]
  rw [throw.eq_def, throw.eq_def, hmode, hpending]
  split
  · rfl
  · cases m with
    | failing why => rfl
    | text s =>
        simp only [throwText_rename hf]
        rfl

lemma tryThrow_rename (r : Registry κ) (k : κ) (m : Message) :
    (r.rename f).tryThrow (f k) m
      = ((r.tryThrow k m).1.rename f, (r.tryThrow k m).2.map (Event.rename f) id) := by
  cases m with
  | failing why => rfl
  | text s =>
      rw [tryThrow, tryThrow, peek_rename hf]
      cases r.peek k with
      | none => exact congrArg (·, _) (record_rename hf r k s)
      | some existing => rfl

/-- Every operation does and answers the same on renamed keys. -/
theorem step_rename (r : Registry κ) (step : Step κ) :
    (r.rename f).step (step.rename f)
      = ((r.step step).1.rename f, (r.step step).2.map (Event.rename f) (Answer.rename f)) := by
  cases step with
  | throw k m =>
      simp only [Step.rename, step, throw_rename hf, Prod.map, Reply.map_map]
      rfl
  | tryThrow k m =>
      have hrefusal : Answer.ofRefusal ∘ id = Answer.rename f ∘ Answer.ofRefusal := by
        funext e
        cases e <;> rfl
      simp only [Step.rename, step, tryThrow_rename hf, Prod.map, Reply.map_map, hrefusal]
      rfl
  | isPending k | peek k =>
      simp only [Step.rename, step, isPending, peek_rename hf]
      rfl
  | clear k | message k | take k =>
      simp only [Step.rename, step, message, take, Prod.map, remove_rename hf, peek_rename hf]
      rfl
  | close k =>
      simp only [Step.rename, step, close, Prod.map, remove_rename hf, peek_rename hf]
      cases r.peek k <;> rfl
  | size =>
      simp only [Step.rename, step, size_rename]
      rfl
  | isEmpty =>
      simp only [Step.rename, step, isEmpty_rename]
      rfl
  | keys =>
      simp only [Step.rename, step, keys, rename, Table.keys_rename]
      rfl
  | mode | setMode | inspect => rfl

/-- **So does every history**, operation by operation. -/
theorem turns_rename (r : Registry κ) (steps : List (Step κ)) :
    (r.rename f).turns (steps.map (Step.rename f)) = (r.turns steps).map (Turn.rename f) := by
  induction steps generalizing r with
  | nil => rfl
  | cons step steps ih =>
      rw [List.map_cons, turns, turns, List.map_cons, step_rename hf, ih]
      rfl

lemma run_rename (r : Registry κ) (steps : List (Step κ)) :
    ((r.rename f).run (steps.map (Step.rename f))).1 = (r.run steps).1.rename f := by
  induction steps generalizing r with
  | nil => rfl
  | cons step steps ih => rw [List.map_cons, run_cons, run_cons, step_rename hf, ih]

end Injective

/-! ### What does not hang on the keys -/

/-- A registry whose pending messages are those of another one, for the images of its keys. -/
structure Renamed [DecidableEq κ] [DecidableEq κ'] (f : κ → κ') (r : Registry κ)
    (r' : Registry κ') : Prop where
  mode : r'.mode = r.mode
  image (k : κ) : r'.peek (f k) = r.peek k
  outside (k' : κ') (hk' : ∀ k, f k ≠ k') : r'.peek k' = none
  /-- Both list their keys once, and the keys of the one are the images of those of the other. -/
  listed : r.keys.Nodup ∧ r'.keys.Nodup ∧ ∀ k', k' ∈ r'.keys ↔ ∃ k ∈ r.keys, f k = k'

/-- The same answer, but for keys.  In which order keys are listed is left open. -/
inductive Answer.Renamed [DecidableEq κ] [DecidableEq κ'] (f : κ → κ') :
    Answer κ → Answer κ' → Prop
  | keys {ks : List κ} {ks' : List κ'} (once : ks.Nodup) (once' : ks'.Nodup)
      (image : ∀ k', k' ∈ ks' ↔ ∃ k ∈ ks, f k = k') : Renamed f (.keys ks) (.keys ks')
  | whole {r : Registry κ} {r' : Registry κ'} (image : r.Renamed f r') :
      Renamed f (.whole r) (.whole r')
  | same {a : Answer κ} (notKeys : ∀ ks, a ≠ .keys ks) (notWhole : ∀ r, a ≠ .whole r) :
      Renamed f a (a.rename f)

/-- The same operation on another key, on a registry and with a reply that are the same but for
keys. -/
structure Turn.Renamed [DecidableEq κ] [DecidableEq κ'] (f : κ → κ') (t : Turn κ)
    (t' : Turn κ') : Prop where
  step : t'.step = t.step.rename f
  before : t.before.Renamed f t'.before
  after : t.after.Renamed f t'.after
  returned (a : Answer κ) : t.reply.outcome = .returned a →
    ∃ a', t'.reply.outcome = .returned a' ∧ a.Renamed f a'
  aborted (why : String) : t.reply.outcome = .aborted why ↔ t'.reply.outcome = .aborted why
  conversions : t'.reply.conversions = t.reply.conversions
  events : t'.reply.events = t.reply.events.map (Event.rename f)
  /-- Whatever the texts of keys are, the log differs in them only. -/
  entries [Key κ] [Key κ'] : List.Forall₂ (Log.Entry.AgreesBut "vm")
    (t.reply.events.map Event.entry) (t'.reply.events.map Event.entry)

section Injective

variable [DecidableEq κ] [DecidableEq κ'] {f : κ → κ'}

/-- An answer lists the keys of the registry, shows it as a whole, or has to do with neither. -/
lemma answer_cases {r : Registry κ} {step : Step κ} {a : Answer κ}
    (h : (r.step step).2.outcome = .returned a) :
    a = .keys r.keys ∨ a = .whole r ∨ (∀ ks, a ≠ .keys ks) ∧ ∀ r', a ≠ .whole r' := by
  cases step with
  | throw k m =>
      obtain ⟨b, -, rfl⟩ := Outcome.map_eq_returned.mp h
      exact .inr (.inr ⟨nofun, nofun⟩)
  | tryThrow k m =>
      obtain ⟨e, -, rfl⟩ := Outcome.map_eq_returned.mp h
      cases e <;> exact .inr (.inr ⟨nofun, nofun⟩)
  | keys =>
      cases h
      exact .inl rfl
  | inspect =>
      cases h
      exact .inr (.inl rfl)
  | _ =>
      cases h
      exact .inr (.inr ⟨nofun, nofun⟩)

/-- No key stands twice in any registry of a history. -/
lemma distinct_turns {r : Registry κ} (hdistinct : r.pending.Distinct) (steps : List (Step κ)) :
    ∀ t ∈ r.turns steps, t.before.pending.Distinct := by
  induction steps generalizing r with
  | nil => exact List.forall_mem_nil _
  | cons step steps ih =>
      exact List.forall_mem_cons.mpr ⟨hdistinct, ih (distinct_step hdistinct step)⟩

variable (hf : Function.Injective f)

include hf

lemma renamed_rename {r : Registry κ} (hdistinct : r.pending.Distinct) :
    r.Renamed f (r.rename f) where
  mode := rfl
  image := peek_rename hf r
  outside _ hk' := r.pending.get?_rename_eq_none hk'
  listed := by
    have hkeys : (r.rename f).keys = r.keys.map f := r.pending.keys_rename f
    rw [hkeys]
    exact ⟨hdistinct, List.Nodup.map hf hdistinct, fun k' => List.mem_map⟩

/-- An operation on renamed keys, where no key stands twice. -/
lemma Turn.renamed {t : Turn κ} (hdistinct : t.before.pending.Distinct) :
    t.Renamed f (t.rename f) := by
  have hstep : (t.rename f).before.step (t.rename f).step
      = (t.after.rename f, t.reply.map (Event.rename f) (Answer.rename f)) :=
    step_rename hf t.before t.step
  have hafter : (t.rename f).after = t.after.rename f := congrArg Prod.fst hstep
  have hreply : (t.rename f).reply = t.reply.map (Event.rename f) (Answer.rename f) :=
    congrArg Prod.snd hstep
  exact
    { step := rfl
      before := renamed_rename hf hdistinct
      after := by
        rw [hafter]
        exact renamed_rename hf (distinct_step hdistinct t.step)
      returned := by
        intro a ha
        rw [hreply]
        refine ⟨a.rename f, Outcome.map_eq_returned.mpr ⟨a, ha, rfl⟩, ?_⟩
        rcases answer_cases ha with rfl | rfl | ⟨hkeys, hwhole⟩
        · exact .keys hdistinct (List.Nodup.map hf hdistinct) fun k' => List.mem_map
        · exact .whole (renamed_rename hf hdistinct)
        · exact .same hkeys hwhole
      aborted := by
        intro why
        rw [hreply]
        exact Outcome.map_eq_aborted.symm
      conversions := by rw [hreply]; rfl
      events := by rw [hreply]; rfl
      entries := by
        intro _ _
        rw [hreply]
        show List.Forall₂ _ _ ((t.reply.events.map (Event.rename f)).map Event.entry)
        rw [List.map_map, List.forall₂_map_left_iff, List.forall₂_map_right_iff,
          List.forall₂_same]
        exact fun e _ => e.entry_rename f }

/-- **Keys matter through equality only**: a history of operations on other keys, which an
injective function gives, goes on side by side with the original one.  Corresponding operations
have the same answers, aborts and conversions, and log the same but for the texts of keys; what is
pending after them is the image of what is pending in the original. -/
theorem keys_immaterial (mode : Mode) (steps : List (Step κ)) :
    List.Forall₂ (Turn.Renamed f) ((empty mode).turns steps)
        ((empty mode).turns (steps.map (Step.rename f)))
      ∧ (((empty mode).run steps).1).Renamed f
        ((empty mode).run (steps.map (Step.rename f))).1 := by
  have hempty : (empty mode : Registry κ').turns (steps.map (Step.rename f))
      = ((empty mode).turns steps).map (Turn.rename f) := turns_rename hf (empty mode) steps
  have hlast : ((empty mode : Registry κ').run (steps.map (Step.rename f))).1
      = ((empty mode).run steps).1.rename f := run_rename hf (empty mode) steps
  constructor
  · rw [hempty, List.forall₂_map_right_iff, List.forall₂_same]
    exact fun t ht => Turn.renamed hf (distinct_turns Table.distinct_empty steps t ht)
  · rw [hlast]
    exact renamed_rename hf (distinct_run Table.distinct_empty steps)

end Injective

/-- Two keys named by numbers. -/
def numbered (b : Bool) : Nat :=
  if b then 7 else 3

/-- Both keys are used, a message is refused, and one cannot be converted. -/
def flagged : List (Step Bool) :=
  [.throw true (.text "first"), .tryThrow false (.text ""), .throw true (.failing "no text"),
    .setMode .strict, .throw true (.text "late"), .close true, .keys]

theorem keys_immaterial_numbered :
    Function.Injective numbered
      ∧ List.Forall₂ (Turn.Renamed numbered) ((empty .firstWins).turns flagged)
        ((empty .firstWins).turns (flagged.map (Step.rename numbered)))
      ∧ (((empty .firstWins).run (flagged.map (Step.rename numbered))).2.map (·.outcome))
        = [.returned (.flag true), .returned .done, .returned (.flag false), .returned .done,
          .returned (.flag false), .returned (.found (some "first")), .returned (.keys [3])] := by
  have hinjective : Function.Injective numbered := by
    intro a b hab
    cases a <;> cases b <;> simp_all [numbered]
  exact ⟨hinjective, (keys_immaterial hinjective .firstWins flagged).1, rfl⟩

end Registry

end ScriptBinding
