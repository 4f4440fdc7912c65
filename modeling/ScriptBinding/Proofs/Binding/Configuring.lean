import Mathlib.Data.List.Induction
import Mathlib.Tactic.Common
import ScriptBinding.Binding.Step
import ScriptBinding.Proofs.ProcessWide.Inversion

/-
Configuring a state is setting one thing after the other.

* `Config.Call.setting`, `Config.latest`: what a builder call sets, and the last call for it;
  `build_eq`: a configuration is made of these, and of the defaults where there are none.
* `Config.Call.setter`: the operation on a state that does what a call does.
* `configure_apply`, `run_setters`: a call more before configuring is a setter more after it.
* `Configured`: what configuring does to a state; `configure_folds_calls`: so it does to every one.
-/
namespace ScriptBinding

namespace Config

/-- What can be set. -/
inductive Setting where
  | errorHandling
  | throwMode
  | defaultVm
  deriving DecidableEq

namespace Call

/-- What a call sets. -/
def setting : Call → Setting
  | .errorHandling _ => .errorHandling
  | .throwMode _ => .throwMode
  | .defaultVm _ => .defaultVm

/-- The policy that a call sets. -/
def enabled? : Call → Option Bool
  | .errorHandling enabled => some enabled
  | _ => none

/-- The mode that a call sets. -/
def mode? : Call → Option Registry.Mode
  | .throwMode mode => some mode
  | _ => none

/-- The VM that a call names. -/
def vm? : Call → Option Handle
  | .defaultVm vm => some vm
  | _ => none

/-- The operation on a state that sets what a call sets. -/
def setter : Call → Binding.Step
  | .errorHandling enabled => .enable enabled
  | .throwMode mode => .errors (.setMode mode)
  | .defaultVm vm => .setDefault vm

end Call

/-- The last of some calls that sets a thing. -/
def latest (calls : List Call) (what : Setting) : Option Call :=
  (calls.filter fun call => call.setting = what).getLast?

/-- The VM that the last of some calls to name one names. -/
def named (calls : List Call) : Option Handle :=
  (latest calls .defaultVm).bind Call.vm?

variable {calls : List Call} {a b : Call}

lemma latest_concat (calls : List Call) (call : Call) (what : Setting) :
    latest (calls ++ [call]) what
      = if call.setting = what then some call else latest calls what := by
  rw [latest, List.filter_append]
  by_cases hcall : call.setting = what <;> simp [latest, hcall]

/-- **A configuration is made of the last call for each setting**, or of the default. -/
theorem build_eq (calls : List Call) : build calls = {
    errorHandling := ((latest calls .errorHandling).bind Call.enabled?).getD true
    throwMode := ((latest calls .throwMode).bind Call.mode?).getD .firstWins
    defaultVm := named calls } := by
  induction calls using List.reverseRecOn with
  | nil => rfl
  | append_singleton calls call ih =>
      have hbuild : build (calls ++ [call]) = (build calls).apply call := List.foldl_append
      rw [hbuild, ih]
      simp only [named, latest_concat]
      cases call <;> rfl

/-- Calls that set different things can be exchanged. -/
lemma latest_swap (hne : a.setting ≠ b.setting) (before after : List Call) (what : Setting) :
    latest (before ++ a :: b :: after) what = latest (before ++ b :: a :: after) what := by
  have hpair : [a, b].filter (fun call => call.setting = what)
      = [b, a].filter fun call => call.setting = what := by
    by_cases ha : a.setting = what
    · have hb : b.setting ≠ what := fun hb => hne (ha.trans hb.symm)
      simp [ha, hb]
    · simp [ha, List.filter_cons]
  have hsplit : ∀ x y : Call, before ++ x :: y :: after = before ++ [x, y] ++ after := by simp
  simp only [latest, hsplit, List.filter_append, hpair]

lemma named_concat (calls : List Call) (call : Call) :
    named (calls ++ [call]) = call.vm?.or (named calls) := by
  rw [named, latest_concat]
  cases call <;> rfl

lemma named_eq_none_iff : named calls = none ↔ ∀ vm, .defaultVm vm ∉ calls := by
  induction calls using List.reverseRecOn with
  | nil => exact ⟨fun _ _ => List.not_mem_nil, fun _ => rfl⟩
  | append_singleton calls call ih =>
      rw [named_concat]
      cases call with
      | defaultVm vm =>
          have hmem : Call.defaultVm vm ∈ calls ++ [.defaultVm vm] :=
            List.mem_append_right calls (List.mem_singleton_self _)
          exact ⟨nofun, fun h => absurd hmem (h vm)⟩
      | _ => simpa [Call.vm?] using ih

end Config

namespace Binding

open Config

/-- What configuring does to a state. -/
structure Configured (s : Binding) (calls : List Call) (s' : Binding)
    (reply : Reply Event Answer) : Prop where
  /-- The calls are made one after the other, on the defaults. -/
  fold : s' = (s.run (.enable true :: .errors (.setMode .firstWins) :: calls.map Call.setter)).1
  pending : s'.errors.pending = s.errors.pending
  /-- The default VM is the one named last; where none is named, it is kept. -/
  defaultVm : s'.defaultVm.vm = (named calls).or s.defaultVm.vm
  /-- The log is told of the VM named last, and of nothing else. -/
  told : reply = { outcome := .returned (.registry .done)
                   events := (named calls).toList.map .defaultSet }
  logged : reply.events.map Event.entry = (named calls).toList.map fun vm =>
    Log.entry .trace "sqbind_core::default_vm" "default VM set" [("vm", vm.text)]

/-- **One call more** before configuring is one setter more after it. -/
lemma configure_apply (s : Binding) (c : Config) (call : Call) :
    ((s.configure c).1.step call.setter).1 = (s.configure (c.apply call)).1 := by
  obtain ⟨enabled, mode, vm⟩ := c
  cases call <;> cases vm <;> rfl

/-- Setters after configuring are calls before it. -/
lemma run_setters (s : Binding) (c : Config) (calls : List Call) :
    ((s.configure c).1.run (calls.map Call.setter)).1 = (s.configure (calls.foldl apply c)).1 := by
  induction calls generalizing c with
  | nil => rfl
  | cons call calls ih =>
      calc ((s.configure c).1.run ((call :: calls).map Call.setter)).1
          = (((s.configure c).1.step call.setter).1.run (calls.map Call.setter)).1 := rfl
        _ = ((s.configure (c.apply call)).1.run (calls.map Call.setter)).1 := by
          rw [configure_apply]
        _ = (s.configure ((call :: calls).foldl apply c)).1 := ih (c.apply call)

/-- What the log is told of a configuration. -/
lemma configure_events (s : Binding) (c : Config) :
    (s.configure c).2 = c.defaultVm.toList.map .defaultSet := by
  rw [configure]
  cases c.defaultVm <;> rfl

lemma configure_defaultVm (s : Binding) (c : Config) :
    (s.configure c).1.defaultVm.vm = c.defaultVm.or s.defaultVm.vm := by
  rw [configure]
  cases c.defaultVm <;> rfl

lemma configure_pending (s : Binding) (c : Config) :
    (s.configure c).1.errors.pending = s.errors.pending := by
  rw [configure]
  cases c.defaultVm <;> rfl

lemma named_eq (calls : List Call) : (build calls).defaultVm = named calls := by
  rw [build_eq]

lemma configured (s : Binding) (calls : List Call) :
    Configured s calls (s.step (.configure (build calls))).1
      (s.step (.configure (build calls))).2 where
  fold := (run_setters s {} calls).symm
  pending := configure_pending s (build calls)
  defaultVm := by
    rw [← named_eq]
    exact configure_defaultVm s (build calls)
  told := by
    rw [← named_eq, ← configure_events s]
    rfl
  logged := by
    rw [← named_eq]
    show (s.configure (build calls)).2.map Event.entry = _
    rw [configure_events, List.map_map]
    rfl

/-- Of two configurations, the second one counts, but for a default VM that only the first one
names. -/
lemma configure_configure (s : Binding) (c₁ c₂ : Config) :
    ((s.configure c₁).1.configure c₂).1
      = (s.configure { c₂ with defaultVm := c₂.defaultVm.or c₁.defaultVm }).1 := by
  obtain ⟨_, _, vm₁⟩ := c₁
  obtain ⟨_, _, vm₂⟩ := c₂
  cases vm₁ <;> cases vm₂ <;> rfl

/-- The default VM is kept, whatever it is, exactly if no call names one. -/
lemma keeps_default_iff (calls : List Call) :
    (∀ s : Binding, (s.step (.configure (build calls))).1.defaultVm.vm = s.defaultVm.vm)
      ↔ ∀ vm, .defaultVm vm ∉ calls := by
  rw [← named_eq_none_iff]
  constructor
  · intro hkept
    have hinitial := (configured .initial calls).defaultVm.symm.trans (hkept .initial)
    exact (Option.or_eq_none_iff.mp hinitial).1
  · intro hnone s
    rw [(configured s calls).defaultVm, hnone, Option.none_or]

/-- **Configuring is a fold of setters**, whatever the builder calls are, and on every state.  The
policy and the mode are always set, to a default where no call says otherwise; the default VM only
where a call names one.  So calls of different kinds can be exchanged, the last one of each kind is
all that matters, a state with a configuration is a new one that is configured, and of two
configurations one after the other the second counts, but for a default VM that it does not name. -/
theorem configure_folds_calls (s : Binding) (calls : List Call) :
    Configured s calls (s.step (.configure (build calls))).1
        (s.step (.configure (build calls))).2
      ∧ ((∀ s : Binding, (s.step (.configure (build calls))).1.defaultVm.vm = s.defaultVm.vm)
          ↔ ∀ vm, .defaultVm vm ∉ calls)
      ∧ (∀ before a b after, a.setting ≠ b.setting → calls = before ++ a :: b :: after →
          build calls = build (before ++ b :: a :: after))
      ∧ (∀ others, (∀ what, latest others what = latest calls what) → build others = build calls)
      ∧ (∀ c, ofConfig c
          = ((initial.step (.configure c)).1, (initial.step (.configure c)).2.events))
      ∧ ∀ c₁ c₂, (s.run [.configure c₁, .configure c₂]).1
          = (s.step (.configure { c₂ with defaultVm := c₂.defaultVm.or c₁.defaultVm })).1 := by
  have hlatest : ∀ others, (∀ what, latest others what = latest calls what) →
      build others = build calls := by
    intro others hsame
    simp only [build_eq, named, hsame]
  refine ⟨configured s calls, keeps_default_iff calls, ?_, hlatest, fun _ => rfl,
    configure_configure s⟩
  rintro before a b after hne rfl
  exact (hlatest _ (latest_swap (Ne.symm hne) before after)).symm

/-- Calls with repetitions. -/
def repeatedCalls : List Call :=
  [.defaultVm .one, .errorHandling true, .defaultVm .two, .errorHandling false]

/-- A strict state with a message and a default VM gets the last of each setting, and the default
mode; the log is told of one VM. -/
theorem configure_folds_calls_repeated :
    ∃ s' reply, Configured ⟨⟨⟨[(.one, "kept")]⟩, .strict⟩, {}, ⟨some .one⟩⟩ repeatedCalls s' reply
      ∧ s' = ⟨⟨⟨[(.one, "kept")]⟩, .firstWins⟩, ⟨false⟩, ⟨some .two⟩⟩
      ∧ reply.events = [.defaultSet .two]
      ∧ build [.errorHandling false, .defaultVm .two] = build repeatedCalls
      ∧ build [.defaultVm .one, .defaultVm .two, .errorHandling true, .errorHandling false]
        = build repeatedCalls := by
  obtain ⟨hconfigured, -, hswap, hlatest, -⟩ :=
    configure_folds_calls ⟨⟨⟨[(.one, "kept")]⟩, .strict⟩, {}, ⟨some .one⟩⟩ repeatedCalls
  refine ⟨_, _, hconfigured, rfl, rfl, hlatest _ fun what => ?_, ?_⟩
  · cases what <;> rfl
  · exact (hswap [.defaultVm .one] (.errorHandling true) (.defaultVm .two) [.errorHandling false]
      nofun rfl).symm

end Binding

end ScriptBinding
