import Mathlib.Logic.Function.Basic
import ScriptBinding.Proofs.Shared.History

/-
All handles to an object see one value.

* `WriteLog`, `lastWritten`: a log of writes, and what it leaves in an object.
* `Heap.Follows`: the objects of a heap hold what a log of writes left in them
  since an earlier heap, and an object is not written to before it is there; one
  lemma for each operation.
* `Store.writes`: the log of a history, each write resolved to the object that
  its slot's handle points at; `step_follows`, `run_follows`: every history keeps
  to its log.
* `Store.Reads`: what is read through the handles of a store.
* `reads_last_written`: every history leaves a store that reads its log.
-/
namespace ScriptBinding.Shared

/-! ### Logs of writes -/

/-- Writes, each with its object and the value. -/
abbrev WriteLog :=
  List (ObjectId × Int64)

/-- The last value that a log of writes has for an object, or the one before the log. -/
def lastWritten (before : Int64) (log : WriteLog) (i : ObjectId) : Int64 :=
  log.foldl (fun value write => if write.1 = i then write.2 else value) before

lemma lastWritten_append (before : Int64) (log more : WriteLog) (i : ObjectId) :
    lastWritten before (log ++ more) i = lastWritten (lastWritten before log i) more i := by
  rw [lastWritten, List.foldl_append]
  rfl

lemma lastWritten_of_ne {log : WriteLog} {i : ObjectId}
    (hne : ∀ write ∈ log, write.1 ≠ i) (before : Int64) : lastWritten before log i = before := by
  induction log with
  | nil => rfl
  | cons write log ih =>
      rw [List.forall_mem_cons] at hne
      rw [lastWritten, List.foldl_cons, if_neg hne.1]
      exact ih hne.2

/-- One more write changes the value of its object, and of no other. -/
lemma lastWritten_concat (before : Int64) (log : WriteLog) (i : ObjectId)
    (value : Int64) :
    lastWritten before (log ++ [(i, value)])
      = Function.update (lastWritten before log) i value := by
  funext j
  rw [lastWritten_append, Function.update_apply]
  exact if_congr eq_comm rfl rfl

/-! ### Heaps -/

/-- A node's object with another value. -/
def setValue (value : Int64) (o : Object Node) : Object Node :=
  { o with content := { o.content with value := value } }

namespace Heap

/-- A heap that holds what a log of writes left in the objects of an earlier one, and in those that
were made since then and start at zero.  No name was logged that is still to be given. -/
structure Follows (h : Heap Node) (log : WriteLog) (h' : Heap Node) : Prop where
  next_le : h.next ≤ h'.next
  lt_next : ∀ write ∈ log, write.1 < h'.next
  value : ∀ i o', h'.get? i = some o' →
    (∃ o, h.get? i = some o ∧ o'.content.value = lastWritten o.content.value log i)
      ∨ h.next ≤ i ∧ o'.content.value = lastWritten 0 log i

variable {h h' h'' : Heap Node} {log more : WriteLog} {i : ObjectId}
  {o : Object Node}

/-- Every object that is left was there, with the value that it has. -/
lemma Follows.of_kept (hnext : h'.next = h.next)
    (hkept : ∀ i o', h'.get? i = some o' →
      ∃ o, h.get? i = some o ∧ o'.content.value = o.content.value) : h.Follows [] h' where
  next_le := Nat.le_of_eq hnext.symm
  lt_next := nofun
  value i o' ho' := .inl (hkept i o' ho')

namespace Follows

lemma refl (h : Heap Node) : h.Follows [] h :=
  .of_kept rfl fun _ o' ho' => ⟨o', ho', rfl⟩

lemma trans (hf : h.Follows log h') (hg : h'.Follows more h'') : h.Follows (log ++ more) h'' where
  next_le := Nat.le_trans hf.next_le hg.next_le
  lt_next write hwrite := by
    rcases List.mem_append.mp hwrite with hlog | hmore
    · exact Nat.lt_of_lt_of_le (hf.lt_next write hlog) hg.next_le
    · exact hg.lt_next write hmore
  value i o'' ho'' := by
    simp only [lastWritten_append]
    rcases hg.value i o'' ho'' with ⟨o', ho', hvalue⟩ | ⟨hnew, hvalue⟩
    · rw [hvalue]
      rcases hf.value i o' ho' with ⟨o, ho, hearlier⟩ | ⟨hnew, hearlier⟩
      · exact .inl ⟨o, ho, by rw [hearlier]⟩
      · exact .inr ⟨hnew, by rw [hearlier]⟩
    · -- the earlier log knows only names that were given before
      have hne : ∀ write ∈ log, write.1 ≠ i := fun write hwrite =>
        Nat.ne_of_lt (Nat.lt_of_lt_of_le (hf.lt_next write hwrite) hnew)
      rw [lastWritten_of_ne hne]
      exact .inr ⟨Nat.le_trans hf.next_le hnew, hvalue⟩

/-- An object that was not there is one that the earlier log does not know. -/
lemma notMem_of_new (hf : h.Follows log h') (hg : h'.Follows more h'') (hnone : h'.get? i = none)
    (hlive : (h''.get? i).isSome) : ∀ write ∈ log, write.1 ≠ i := by
  obtain ⟨o'', ho''⟩ := Option.isSome_iff_exists.mp hlive
  rcases hg.value i o'' ho'' with ⟨o', ho', -⟩ | ⟨hnew, -⟩
  · rw [hnone] at ho'
    cases ho'
  · intro write hwrite
    exact Nat.ne_of_lt (Nat.lt_of_lt_of_le (hf.lt_next write hwrite) hnew)

/-! ### Operations that write nothing -/

/-- An object changed in everything but its value. -/
lemma modify (h : Heap Node) (i : ObjectId) {f : Object Node → Object Node}
    (hf : ∀ o, (f o).content.value = o.content.value) : h.Follows [] (h.modify i f) := by
  refine .of_kept rfl fun j o' ho' => ?_
  rw [get?_modify] at ho'
  split at ho'
  · obtain ⟨o, ho, rfl⟩ := Option.map_eq_some_iff.mp ho'
    exact ⟨o, ho, hf o⟩
  · exact ⟨o', ho', rfl⟩

lemma retain (h : Heap Node) (r : Ref) : h.Follows [] (h.retain r) := by
  cases r with
  | none => exact refl h
  | some i => exact modify h i fun _ => rfl

lemma erase (h : Heap Node) (i : ObjectId) : h.Follows [] (h.erase i) := by
  refine .of_kept rfl fun j o' ho' => ?_
  rw [get?_erase] at ho'
  split at ho'
  · cases ho'
  · exact ⟨o', ho', rfl⟩

lemma alloc (h : Heap Node) (label : String) (kids : List Ref) :
    h.Follows [] (h.alloc (.fresh label) kids).1 where
  next_le := Nat.le_succ h.next
  lt_next := nofun
  value i o' ho' := by
    rw [get?_alloc] at ho'
    split at ho'
    · rename_i hi
      cases ho'
      exact .inr ⟨Nat.le_of_eq hi.symm, rfl⟩
    · exact .inl ⟨o', ho', rfl⟩

/-- Whatever a cascade drops, what it leaves has the value that it had. -/
lemma releaseAll (h : Heap Node) (work : List Ref) : h.Follows [] (h.releaseAll work).1 := by
  induction h, work using Heap.releaseAll.induct with
  | case1 h =>
      rw [releaseAll_nil]
      exact refl h
  | case2 h work ih =>
      rw [releaseAll_none]
      exact ih
  | case3 h i work hget ih =>
      rw [releaseAll_gone work hget]
      exact ih
  | case4 h i work o hget hlast _ _ _ ih =>
      rw [releaseAll_last work hget hlast]
      exact (erase h i).trans ih
  | case5 h i work o hget hmore ih =>
      have hcounted : h.Follows [] (h.modify i fun o => { o with owners := o.owners - 1 }) :=
        modify h i fun _ => rfl
      rw [releaseAll_more work hget hmore]
      exact hcounted.trans ih

lemma release (h : Heap Node) (r : Ref) : h.Follows [] (h.release r).1 :=
  releaseAll h [r]

lemma assign (h : Heap Node) (target source : Ref) :
    h.Follows [] (h.assign target source).1 := by
  rw [Heap.assign]
  split
  · exact refl h
  · exact (retain h source).trans (release _ target)

lemma chain (h : Heap Node) (label : Nat → String) (count : Nat) :
    ∀ first, h.Follows [] (h.chain (fun k => .fresh (label k)) first count).1 := by
  induction count with
  | zero => exact fun _ => refl h
  | succ count ih => exact fun first => (ih (first + 1)).trans (alloc _ (label first) _)

lemma convert (h : Heap Node) (i : ObjectId) {c : Conversion Node}
    (hfresh : ∀ content, c = .fresh content → ∃ label, content = .fresh label) :
    h.Follows [] (h.convert i c).1 := by
  cases c with
  | same => exact refl h
  | fresh content =>
      obtain ⟨label, rfl⟩ := hfresh content rfl
      exact (release h (some i)).trans (alloc _ label [])
  | other j => exact (retain h (some j)).trans (release _ (some i))

lemma upcast (h : Heap Node) (r : Ref) {c : Conversion Node}
    (hfresh : ∀ content, c = .fresh content → ∃ label, content = .fresh label) :
    h.Follows [] (h.upcast r c).1 := by
  cases r with
  | none => exact refl h
  | some i =>
      have hconverted := (retain h (some i)).trans (convert _ i hfresh)
      simp only [Heap.upcast]
      split
      · exact hconverted
      · exact hconverted.trans (release _ _)

/-- A value written is the one that is there from then on. -/
lemma write (hlt : i < h.next) (value : Int64) :
    h.Follows [(i, value)] (h.modify i (setValue value)) where
  next_le := Nat.le_refl _
  lt_next w hw := by
    rw [List.mem_singleton.mp hw]
    exact hlt
  value j o' ho' := by
    rw [get?_modify] at ho'
    refine .inl ?_
    split at ho'
    · rename_i hji
      obtain ⟨q, hq, rfl⟩ := Option.map_eq_some_iff.mp ho'
      exact ⟨q, hq, (if_pos hji.symm).symm⟩
    · rename_i hji
      exact ⟨o', ho', (if_neg (Ne.symm hji)).symm⟩

end Follows

end Heap

namespace Store

variable {s s' : Store}

/-! ### The log of a history -/

/-- The object that a step writes to, and the value: it is the one that the slot's handle points at
when the step is made. -/
def written? (s : Store) : Step → Option (ObjectId × Int64)
  | .write slot value => (s.slots.get? slot).bind fun target => target.ref.map fun i => (i, value)
  | _ => none

/-- The writes of a history. -/
def writes (s : Store) : List Step → WriteLog
  | [] => []
  | step :: steps =>
    (s.written? step).toList ++
      match s.step? step with
      | none => []
      | some (s', _) => s'.writes steps

/-- The writes of a history in two parts. -/
lemma writes_append {steps : List Step} {replies : List StepReply}
    (h : s.run? steps = some (s', replies)) (more : List Step) :
    s.writes (steps ++ more) = s.writes steps ++ s'.writes more := by
  induction steps generalizing s replies with
  | nil =>
      cases h
      rfl
  | cons step steps ih =>
      obtain ⟨s₁, reply, rest, hstep, hrest, rfl⟩ := run?_cons h
      simp only [List.cons_append, writes, hstep, ih hrest, List.append_assoc]

/-- A fresh node that a conversion makes was not written to. -/
lemma conversion?_fresh {r : Ref} {via : Via} {content : Node}
    (h : s.conversion? r via = some (.fresh content)) : ∃ label, content = .fresh label := by
  cases via with
  | same => cases h
  | fresh label =>
      cases h
      exact ⟨label, rfl⟩
  | other name =>
      simp only [conversion?, bind_eq_some] at h
      obtain ⟨q, -, h⟩ := h
      cases r with
      | none => cases h
      | some i =>
          obtain ⟨k, -, hk⟩ := Option.map_eq_some_iff.mp h
          cases hk

/-- What is done with the object of a slot keeps to a log, or the handle is empty and nothing is
done. -/
lemma follows_reading {slot : Slot} {use : ObjectId → Object Node → Store × StepReply}
    {p : Store × StepReply} (log : Ref → WriteLog) (hnone : log none = [])
    (h : s.reading slot use = some p)
    (huse : ∀ i o, s.heap.get? i = some o → s.heap.Follows (log (some i)) (use i o).1.heap) :
    s.heap.Follows (log slot.ref) p.1.heap := by
  rcases reading_cases h with ⟨href, rfl⟩ | ⟨i, o, href, ho, rfl⟩
  · rw [href, hnone]
    exact .refl _
  · rw [href]
    exact huse i o ho

/-- **Every step keeps to its log**: what it does not write to has the value that it had. -/
theorem step_follows (hw : s.WellFormed 0) {step : Step} {reply : StepReply}
    (h : s.step? step = some (s', reply)) :
    s.heap.Follows (s.written? step).toList s'.heap := by
  cases step with
  | create kind label dest =>
      cases h
      exact (Heap.Follows.alloc s.heap label []).trans (.release _ _)
  | empty kind dest =>
      cases h
      exact .release _ _
  | chain length label dest =>
      cases h
      exact (Heap.Follows.chain s.heap _ length 0).trans (.release _ _)
  | init slot label =>
      simp only [step?, bind_eq_some] at h
      obtain ⟨target, -, h⟩ := h
      cases h
      exact (Heap.Follows.release s.heap target.ref).trans (.alloc _ label [])
  | clone source dest =>
      simp only [step?, bind_eq_some] at h
      obtain ⟨slot, -, h⟩ := h
      cases h
      exact (Heap.Follows.retain s.heap slot.ref).trans (.release _ _)
  | assign slot source =>
      simp only [step?, bind_eq_some] at h
      obtain ⟨target, -, shared, -, h⟩ := h
      split at h <;> cases h
      exact .assign _ _ _
  | reset slot =>
      simp only [step?, bind_eq_some] at h
      obtain ⟨target, -, h⟩ := h
      cases h
      exact .release _ _
  | remove slot =>
      simp only [step?, bind_eq_some] at h
      obtain ⟨_, -, h⟩ := h
      cases h
      exact .release _ _
  | get | status | inspect =>
      simp only [step?, bind_eq_some] at h
      obtain ⟨_, -, h⟩ := h
      cases h
      exact .refl _
  | compare slot other =>
      simp only [step?, bind_eq_some] at h
      obtain ⟨_, -, _, -, h⟩ := h
      cases h
      exact .refl _
  | pointsAt slot place =>
      simp only [step?, bind_eq_some] at h
      obtain ⟨_, -, h⟩ := h
      cases place with
      | null | elsewhere =>
          cases h
          exact .refl _
      | node other =>
          simp only [bind_eq_some] at h
          obtain ⟨_, -, h⟩ := h
          cases h
          exact .refl _
  | deref slot | read slot =>
      simp only [step?, bind_eq_some] at h
      obtain ⟨_, -, h⟩ := h
      exact follows_reading (fun _ => []) rfl h fun _ _ _ => .refl _
  | write slot value =>
      simp only [step?, bind_eq_some] at h
      obtain ⟨target, htarget, h⟩ := h
      have hwritten : s.written? (.write slot value) = target.ref.map fun i => (i, value) := by
        rw [written?, htarget]
        rfl
      rw [hwritten]
      refine follows_reading (fun r => (r.map fun i => (i, value)).toList) rfl h ?_
      intro i o ho
      exact .write (hw.exact.lt_next ho) value
  | push slot source =>
      simp only [step?, bind_eq_some] at h
      obtain ⟨_, -, kid, -, h⟩ := h
      refine follows_reading (fun _ => []) rfl h fun i o _ => ?_
      exact (Heap.Follows.retain s.heap kid).trans (.modify _ i fun _ => rfl)
  | pop slot =>
      simp only [step?, bind_eq_some] at h
      obtain ⟨_, -, h⟩ := h
      refine follows_reading (fun _ => []) rfl h fun i o _ => ?_
      split
      · exact .refl _
      · have hpopped : s.heap.Follows []
            (s.heap.modify i fun o => { o with kids := o.kids.dropLast }) :=
          .modify _ i fun _ => rfl
        exact hpopped.trans (.release _ _)
  | kid slot index dest =>
      simp only [step?, bind_eq_some] at h
      obtain ⟨_, -, h⟩ := h
      refine follows_reading (fun _ => []) rfl h fun i o _ => ?_
      split
      · exact .refl _
      · exact (Heap.Follows.retain s.heap _).trans (.release _ _)
  | advance slot =>
      simp only [step?, bind_eq_some] at h
      obtain ⟨target, -, h⟩ := h
      split at h
      · cases h
      · exact follows_reading (fun _ => []) rfl h fun _ _ _ => .assign _ _ _
  | upcast source dest via =>
      simp only [step?, bind_eq_some] at h
      obtain ⟨slot, -, c, hc, h⟩ := h
      have hupcast := Heap.Follows.upcast s.heap slot.ref (c := c) fun content hcontent =>
        conversion?_fresh (hcontent ▸ hc)
      split at h <;> cases h
      · exact hupcast
      · exact hupcast.trans (.release _ _)
  | hold source owner =>
      simp only [step?, bind_eq_some] at h
      obtain ⟨r, -, h⟩ := h
      cases r with
      | none =>
          cases h
          exact .refl _
      | some i =>
          cases h
          exact (Heap.Follows.retain s.heap (some i)).trans (.release _ _)
  | letGo owner | adopt owner dest =>
      simp only [step?, bind_eq_some] at h
      obtain ⟨_, -, h⟩ := h
      cases h
      exact .release _ _

/-- Every history keeps to its log. -/
theorem run_follows (hw : s.WellFormed 0) {steps : List Step} {replies : List StepReply}
    (h : s.run? steps = some (s', replies)) : s.heap.Follows (s.writes steps) s'.heap := by
  induction steps generalizing s replies with
  | nil =>
      cases h
      exact .refl _
  | cons step steps ih =>
      obtain ⟨s₁, reply, rest, hstep, hrest, rfl⟩ := run?_cons h
      simp only [writes, hstep]
      exact (step_follows hw hstep).trans (ih ((step_passes hstep).wellFormed hw) hrest)

/-! ### What is read -/

/-- What is read through the handles of a store, each object having a value. -/
structure Reads (s : Store) (value : ObjectId → Int64) : Prop where
  /-- Every handle, in a slot or in a kid list, leads to an object with its value. -/
  handle : ∀ i, some i ∈ s.handles → (s.heap.get? i).map (·.content.value) = some (value i)
  /-- Reading a slot answers the value, and changes nothing. -/
  read : ∀ name kind i, s.slots.get? name = some ⟨kind, some i⟩ →
    s.step? (.read name) = some (s, .quiet (.number (value i)))
  /-- An empty slot cannot be read, nor written through, and nothing changes. -/
  empty : ∀ name kind, s.slots.get? name = some ⟨kind, none⟩ →
    ∀ step, step = .read name ∨ (∃ v, step = .write name v) →
      s.step? step = some (s, { outcome := .aborted (emptyText kind.typeName) })

lemma WellFormed.reads (hw : s.WellFormed 0) {value : ObjectId → Int64}
    (hvalue : ∀ i o, s.heap.get? i = some o → o.content.value = value i) : s.Reads value where
  handle i hi := by
    obtain ⟨o, ho⟩ := hw.balanced.live i hi
    rw [ho, Option.map_some, hvalue i o ho]
  read name kind i hget := by
    obtain ⟨o, ho⟩ := hw.get?_of_slot hget rfl
    simp only [step?, hget, Option.bind_eq_bind, Option.bind_some, reading, ho, Option.map_some,
      hvalue i o ho]
  empty name kind hget step hstep := by
    rcases hstep with rfl | ⟨v, rfl⟩ <;>
      simp only [step?, hget, Option.bind_eq_bind, Option.bind_some, reading]

/-- Every history leaves what it wrote. -/
lemma run_reads {steps : List Step} {replies : List StepReply}
    (hrun : ({} : Store).run? steps = some (s, replies)) :
    s.Reads (lastWritten 0 (({} : Store).writes steps)) := by
  refine (run_wellFormed hrun).reads fun i o ho => ?_
  rcases (run_follows .empty hrun).value i o ho with ⟨q, hq, -⟩ | ⟨-, hvalue⟩
  · cases hq
  · exact hvalue

/-- Writing through a slot sets the value of its object. -/
lemma step_write {name : String} {kind : Kind} {i : ObjectId} {o : Object Node}
    (hget : s.slots.get? name = some ⟨kind, some i⟩) (ho : s.heap.get? i = some o) (v : Int64) :
    s.step? (.write name v)
      = some ({ s with heap := s.heap.modify i (setValue v) }, .quiet .done) := by
  simp only [step?, hget, Option.bind_eq_bind, Option.bind_some, reading, ho, Option.map_some]
  rfl

/-- A value set moves no handle. -/
lemma handles_setValue (s : Store) (i : ObjectId) (v : Int64) :
    handles { s with heap := s.heap.modify i (setValue v) } = s.handles := by
  simp only [handles, Heap.kidRefs, Heap.modify, Table.modify, List.flatMap_map]
  congr
  funext e
  split <;> rfl

/-- **All handles to an object see one value, and only they do**, in every history.  A handle reads
what was last written through any handle to its object since the object is there, and zero if
nothing was.  What is written through a slot is read through the handles that are equal to it, and
the others read what they did; so slots are equal exactly if whatever is written through the one is
read through the other. -/
theorem reads_last_written {steps : List Step} {replies : List StepReply}
    (hrun : ({} : Store).run? steps = some (s, replies)) :
    s.Reads (lastWritten 0 (({} : Store).writes steps))
      ∧ (∀ before after s₀ replies₀ i, before ++ after = steps →
          ({} : Store).run? before = some (s₀, replies₀) → s₀.heap.get? i = none →
          (s.heap.get? i).isSome → ∀ write ∈ ({} : Store).writes before, write.1 ≠ i)
      ∧ (∀ name kind i v, s.slots.get? name = some ⟨kind, some i⟩ →
          ∃ s', s.step? (.write name v) = some (s', .quiet .done) ∧ s'.slots = s.slots
            ∧ s'.handles = s.handles
            ∧ s'.Reads (Function.update (lastWritten 0 (({} : Store).writes steps)) i v))
      ∧ ∀ a b kind kind' i j, s.slots.get? a = some ⟨kind, some i⟩ →
          s.slots.get? b = some ⟨kind', some j⟩ →
          s.step? (.compare a b) = some (s, .quiet (.equal (i = j)))
            ∧ (i = j ↔ ∀ v s' reply, s.step? (.write a v) = some (s', reply) →
                s'.step? (.read b) = some (s', .quiet (.number v))) := by
  have hw := run_wellFormed hrun
  have hwrite : ∀ name kind i v, s.slots.get? name = some ⟨kind, some i⟩ →
      ∃ s', s.step? (.write name v) = some (s', .quiet .done) ∧ s'.slots = s.slots
        ∧ s'.handles = s.handles
        ∧ s'.Reads (Function.update (lastWritten 0 (({} : Store).writes steps)) i v) := by
    intro name kind i v hget
    obtain ⟨o, ho⟩ := hw.get?_of_slot hget rfl
    have hstep := step_write hget ho v
    have hmore : s.run? [.write name v] = some (_, [.quiet .done]) := run?_of_step hstep rfl
    have hreads := run_reads (run?_trans hrun hmore)
    have hwritten : s.writes [.write name v] = [(i, v)] := by
      simp only [writes, hstep, written?, hget, Option.bind_some, Option.map_some,
        Option.toList_some, List.append_nil]
    rw [writes_append hrun, hwritten, lastWritten_concat] at hreads
    exact ⟨_, hstep, rfl, handles_setValue s i v, hreads⟩
  refine ⟨run_reads hrun, ?_, hwrite, ?_⟩
  · rintro before after s₀ replies₀ i rfl hbefore hnone hlive
    obtain ⟨s₁, first, rest, hfirst, hafter⟩ := run?_append hrun
    cases hbefore.symm.trans hfirst
    exact (run_follows .empty hbefore).notMem_of_new
      (run_follows (run_wellFormed hbefore) hafter) hnone hlive
  · intro a b kind kind' i j ha hb
    constructor
    · rw [hw.balanced.compare a b _ _ ha hb]
      simp
    constructor
    · rintro rfl v s' reply hstep
      obtain ⟨s₁, hdone, hslots, -, hreads⟩ := hwrite a kind i v ha
      cases hstep.symm.trans hdone
      rw [hreads.read b kind' i (hslots ▸ hb), Function.update_self]
    · intro hall
      by_contra hne
      -- the other slot would read every value at once
      have hread : ∀ v, v = lastWritten 0 (({} : Store).writes steps) j := by
        intro v
        obtain ⟨s', hdone, hslots, -, hreads⟩ := hwrite a kind i v ha
        have hsame := (hall v s' _ hdone).symm.trans (hreads.read b kind' j (hslots ▸ hb))
        rw [Function.update_of_ne (Ne.symm hne)] at hsame
        simpa [Reply.quiet] using hsame
      exact absurd ((hread 0).trans (hread 1).symm) (by decide)

/-- A node is written to through handles of both types, which then go: only its parent has a handle
to it, from which a slot gets one.  A chain that was written to is gone. -/
def familySteps : List Step :=
  [.create .concrete "root" "a", .create .concrete "leaf" "b", .push "a" "b", .write "b" 5,
    .upcast "b" "c" .same, .write "c" 7, .chain 2 "link" "d", .write "d" 9, .reset "d", .reset "b",
    .remove "c", .kid "a" 0 "e", .clone "a" "b"]

/-- A node that two slots share, and its kid that a third one has. -/
def family : Store :=
  ⟨⟨⟨[(0, ⟨⟨"root", 0⟩, [some 1], 2⟩), (1, ⟨⟨"leaf", 7⟩, [], 2⟩)]⟩, 4⟩,
    ⟨[("a", ⟨.concrete, some 0⟩), ("d", ⟨.concrete, none⟩), ("e", ⟨.concrete, some 1⟩),
      ("b", ⟨.concrete, some 0⟩)]⟩, .empty⟩

/-- The handle from the parent reads what was written last.  What is written through one slot of
the parent is read through the other, and not through that of the kid. -/
theorem reads_last_written_family :
    (∃ replies, ({} : Store).run? familySteps = some (family, replies))
      ∧ family.step? (.read "e") = some (family, .quiet (.number 7))
      ∧ family.step? (.read "d")
          = some (family, { outcome := .aborted (emptyText "driver::shared::Node") })
      ∧ family.step? (.compare "a" "b") = some (family, .quiet (.equal true))
      ∧ ∃ s', family.step? (.write "a" 3) = some (s', .quiet .done)
        ∧ s'.step? (.read "b") = some (s', .quiet (.number 3))
        ∧ s'.step? (.read "e") = some (s', .quiet (.number 7)) := by
  obtain ⟨replies, hrun⟩ : ∃ replies, ({} : Store).run? familySteps = some (family, replies) :=
    ⟨_, by cbv⟩
  have hlog : ({} : Store).writes familySteps = [(1, 5), (1, 7), (3, 9)] := by
    cbv
  obtain ⟨hreads, -, hwrite, hcompare⟩ := reads_last_written hrun
  obtain ⟨s', hstep, hslots, -, hreads'⟩ := hwrite "a" .concrete 0 3 rfl
  rw [hlog] at hreads hreads'
  refine ⟨⟨replies, hrun⟩, hreads.read "e" .concrete 1 rfl, ?_, ?_, s', hstep, ?_, ?_⟩
  · exact hreads.empty "d" .concrete rfl _ (.inl rfl)
  · exact (hcompare "a" "b" .concrete .concrete 0 0 rfl rfl).1
  · exact hreads'.read "b" .concrete 0 (hslots ▸ rfl)
  · exact hreads'.read "e" .concrete 1 (hslots ▸ rfl)

end Store

end ScriptBinding.Shared
