import ScriptBinding.Proofs.Lineage
import ScriptBinding.Proofs.Registry.FirstWins
import ScriptBinding.Registry.Session

/-
Copies of registries are faithful, and go their own way.

* `Session.growths`: what the steps make of the list of registries.
* `Session.Faithful`: every registry is its line, run on its own, and answers as that run does;
  `faithful_run`: so it is in every history.
* `Session.Apart`: a step leaves the other registries alone, and a copy is what was copied.
-/
namespace ScriptBinding.Registry.Session

variable {κ : Type}

/-- What a step makes of the list of registries. -/
def Step.growth : Step κ → Growth (Registry κ) (Registry.Step κ)
  | .perform op => .act op
  | .fork => .copy

/-- What steps make of the list of registries, each with the index that it names. -/
def growths (steps : List (Nat × Step κ)) : List (Nat × Growth (Registry κ) (Registry.Step κ)) :=
  steps.map fun x => (x.1, x.2.growth)

lemma growths_append (before after : List (Nat × Step κ)) :
    growths (before ++ after) = growths before ++ growths after :=
  List.map_append

variable [DecidableEq κ]

/-- A history in which every registry is its line, run on its own. -/
structure Faithful (session last : Session κ) (steps : List (Nat × Step κ))
    (replies : List (Reply (Event κ) (Answer κ))) : Prop where
  /-- The registries after the history. -/
  contents : last = (lines session (growths steps)).map fun l => (l.origin.run l.acts).1
  /-- The line of a registry that was there at the start is what was asked of it. -/
  original : ∀ i r, session[i]? = some r →
    (lines session (growths steps))[i]? = some (Line.mk r (addressed i (growths steps)))
  /-- The line of a copy is what was asked of the original before, and then of the copy. -/
  copied : ∀ before j after, steps = before ++ (j, .fork) :: after → ∃ n l,
    replies[before.length]? = some (.quiet (.index n))
    ∧ (lines session (growths before))[j]? = some l
    ∧ (lines session (growths steps))[n]? = some (l.extend (addressed n (growths after)))
  /-- An operation replies as it does when the line is run. -/
  replies : ∀ before i op after, steps = before ++ (i, .perform op) :: after → ∃ l reply,
    (lines session (growths before))[i]? = some l
    ∧ (lines session (growths steps))[i]? = some (l.extend (op :: addressed i (growths after)))
    ∧ (l.origin.run (l.extend (op :: addressed i (growths after))).acts).2[l.acts.length]?
      = some reply
    ∧ replies[before.length]? = some (reply.map id .performed)

/-- What a step does to the other registries, and what a copy is. -/
structure Apart (session next : Session κ) (i : Nat) (step : Step κ) : Prop where
  others : ∀ j r, j ≠ i → session[j]? = some r → next[j]? = some r
  copy : step = .fork → next[session.length]? = session[i]?

variable {session last next : Session κ} {i : Nat} {step : Step κ} {r : Registry κ}
  {reply : Reply (Event κ) (Answer κ)} {steps before after : List (Nat × Step κ)}
  {replies : List (Reply (Event κ) (Answer κ))}

/-! ### One step -/

/-- What a step does to the list of registries, and what it replies. -/
lemma step?_cases (h : session.step? i step = some (next, reply)) :
    ∃ r, session[i]? = some r
      ∧ ((∃ op, step = .perform op ∧ next = session.set i (r.step op).1
          ∧ reply = (r.step op).2.map id .performed)
        ∨ (step = .fork ∧ next = session ++ [r] ∧ reply = .quiet (.index session.length))) := by
  rw [step?] at h
  obtain ⟨r, hr, h⟩ := Option.bind_eq_some_iff.mp h
  refine ⟨r, hr, ?_⟩
  cases step with
  | perform op =>
      cases h
      exact .inl ⟨op, rfl, rfl, rfl⟩
  | fork =>
      cases h
      exact .inr ⟨rfl, rfl, rfl⟩

/-- A step leaves the other registries alone. -/
lemma apart_step? (h : session.step? i step = some (next, reply)) : Apart session next i step := by
  obtain ⟨r, hr, ⟨op, rfl, rfl, -⟩ | ⟨rfl, rfl, -⟩⟩ := step?_cases h
  · refine ⟨fun j t hji ht => ?_, nofun⟩
    rw [List.getElem?_set_ne (Ne.symm hji), ht]
  · refine ⟨fun j t _ ht => ?_, fun _ => ?_⟩
    · rw [List.getElem?_append_left (List.getElem?_eq_some_iff.mp ht).1, ht]
    · rw [List.getElem?_append_right (Nat.le_refl _), Nat.sub_self, hr]
      rfl

/-! ### Histories -/

lemma run?_cons_eq_some (h : session.run? ((i, step) :: steps) = some (last, replies)) :
    ∃ next reply rest, session.step? i step = some (next, reply)
      ∧ next.run? steps = some (last, rest) ∧ replies = reply :: rest := by
  rw [run?] at h
  obtain ⟨⟨next, reply⟩, hstep, h⟩ := Option.bind_eq_some_iff.mp h
  obtain ⟨⟨last', rest⟩, hrest, h⟩ := Option.bind_eq_some_iff.mp h
  cases h
  exact ⟨next, reply, rest, hstep, hrest, rfl⟩

/-- A history up to one of its steps. -/
lemma run?_split (h : session.run? (before ++ (i, step) :: after) = some (last, replies)) :
    ∃ mid next earlier reply, session.run? before = some (mid, earlier)
      ∧ mid.step? i step = some (next, reply) ∧ replies[before.length]? = some reply := by
  induction before generalizing session replies with
  | nil =>
      obtain ⟨next, reply, rest, hstep, -, rfl⟩ := run?_cons_eq_some h
      exact ⟨session, next, [], reply, rfl, hstep, rfl⟩
  | cons x before ih =>
      obtain ⟨next₁, reply₁, rest₁, hstep₁, hrest₁, rfl⟩ := run?_cons_eq_some h
      obtain ⟨mid, next, earlier, reply, hbefore, hstep, hreply⟩ := ih hrest₁
      exact ⟨mid, next, reply₁ :: earlier, reply, Option.bind_eq_some_iff.mpr ⟨_, hstep₁,
        Option.bind_eq_some_iff.mpr ⟨_, hbefore, rfl⟩⟩, hstep, hreply⟩

lemma grows_run? (h : session.run? steps = some (last, replies)) :
    Grows (fun r op => (r.step op).1) session (growths steps) last := by
  induction steps generalizing session replies with
  | nil =>
      cases h
      exact .nil _
  | cons x steps ih =>
      obtain ⟨i, step⟩ := x
      obtain ⟨next, reply, rest, hstep, hrest, -⟩ := run?_cons_eq_some h
      obtain ⟨r, hr, ⟨op, rfl, rfl, -⟩ | ⟨rfl, rfl, -⟩⟩ := step?_cases hstep
      · exact .act hr (ih hrest)
      · exact .copy hr (ih hrest)

/-- A registry after operations, one after the other. -/
lemma foldl_step (r : Registry κ) (ops : List (Registry.Step κ)) :
    ops.foldl (fun r op => (r.step op).1) r = (r.run ops).1 := by
  induction ops generalizing r with
  | nil => rfl
  | cons op ops ih => exact ih _

/-- The registries after a history are their lines, run on their own. -/
lemma lines_run? (h : session.run? steps = some (last, replies)) :
    (lines session (growths steps)).map (fun l => (l.origin.run l.acts).1) = last := by
  refine Eq.trans ?_ (replay_lines (grows_run? h))
  exact List.map_congr_left fun l _ => (foldl_step l.origin l.acts).symm

lemma getElem?_lines_run? (h : session.run? steps = some (last, replies))
    (hr : last[i]? = some r) :
    ∃ l, (lines session (growths steps))[i]? = some l ∧ (l.origin.run l.acts).1 = r := by
  rw [← lines_run? h, List.getElem?_map] at hr
  exact Option.map_eq_some_iff.mp hr

/-- **Copies of registries are faithful**: in every history each registry, and what it replies,
is that of the run of its line, on its own. -/
theorem faithful_run (h : session.run? steps = some (last, replies)) :
    Faithful session last steps replies where
  contents := (lines_run? h).symm
  original i r hr := lines_start hr (growths steps)
  copied := by
    rintro before j after rfl
    obtain ⟨mid, next, earlier, reply, hbefore, hstep, hreply⟩ := run?_split h
    obtain ⟨r, hr, ⟨op, hop, -⟩ | ⟨-, -, rfl⟩⟩ := step?_cases hstep
    · cases hop
    · obtain ⟨l, hl, -⟩ := getElem?_lines_run? hbefore hr
      have hlength : mid.length = (lines session (growths before)).length := by
        rw [← lines_run? hbefore, List.length_map]
      rw [hlength] at hreply
      rw [growths_append]
      exact ⟨_, l, hreply, hl, lines_copied hl _⟩
  replies := by
    rintro before i op after rfl
    obtain ⟨mid, next, earlier, reply, hbefore, hstep, hreply⟩ := run?_split h
    obtain ⟨r, hr, ⟨op', hop, -, rfl⟩ | ⟨hop, -⟩⟩ := step?_cases hstep
    · cases hop
      obtain ⟨l, hl, rfl⟩ := getElem?_lines_run? hbefore hr
      refine ⟨l, _, hl, ?_, ?_, hreply⟩
      · rw [growths_append]
        refine (lines_append hl _).trans ?_
        simp [growths, addressed, Step.growth, Growth.act?]
      · rw [Line.extend, run_append, run_cons,
          List.getElem?_append_right (by rw [run_length]), run_length, Nat.sub_self]
        rfl
    · cases hop

end ScriptBinding.Registry.Session
