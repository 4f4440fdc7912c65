import ScriptBinding.ProcessWide.Run

/-
Sessions with binding states at hand, beside the process.

* `Binding.Session`: a growing list of states, and the process in which
  the reactions of VM objects run.
* `Binding.Session.Step`: an operation on one state; reports go through it
  and not through the process-wide state.
* `Binding.Session.reportText`: a report, which is over where its text is dropped.
* `Binding.Session.step`, `Binding.Session.run`: one step on the state at an index,
  and a list of them.
* `reportText_eq_conclude`: a report through a state does what a report through the
  process does, which posts first and raises later.
-/
namespace ScriptBinding.Binding

open ProcessWide

/-- States, the oldest first and named by their index, and the process. -/
structure Session where
  states : List Binding
  world : World
  deriving DecidableEq

namespace Session

/-- What can be asked of one state of a session. -/
inductive Step where
  | plain (step : Binding.Step)
  | report (vm : Nat) (message : Message)
  | reportTypeError (vm : Nat) (index : Int64) (expected : String)
  | typeErrorText (vm : Nat) (index : Int64) (expected : String)
  | lastError (vm : Nat)
  /-- A copy of the state, put last. -/
  | fork
  /-- A new state, put last. -/
  | create
  deriving DecidableEq

/-- The answer to a step of a session. -/
inductive Answer where
  | answered (answer : ProcessWide.Answer)
  | index (n : Nat)

/-- A session with one state, made from settings where some are given. -/
def start (config : Option Config) : Session :=
  match config with
  | none => ⟨[.initial], .fresh⟩
  | some c =>
    let (s, events) := Binding.ofConfig c
    ⟨[s], World.fresh.observe (events.map .logged)⟩

/-- The session with the state at an index replaced. -/
def replace (session : Session) (i : Nat) (s : Binding) : Session :=
  { session with states := session.states.set i s }

/-- The session with more observed. -/
def observe (session : Session) (marks : List Mark) : Session :=
  { session with world := session.world.observe marks }

/-- The state at an index. -/
def stateAt (session : Session) (i : Nat) : Except Halt Binding :=
  match session.states[i]? with
  | some s => .ok s
  | none => .error .missing

/-- The session, and its answer to a report that began when `start` marks had been
observed. -/
def answerReport (session : Session) (start vm : Nat) (recorded : Outcome Bool)
    (nested : List (Outcome ProcessWide.Answer)) : Session × Outcome Answer :=
  (session, .returned (.answered (reportAnswer session.world start vm recorded nested)))

/-- A report of a text through a state. It is over where the text is dropped; where it is
recorded, and forwarding is on, it is raised as well. -/
def reportText (react : Reaction) (session : Session) (i : Nat) (s : Binding)
    (start vm : Nat) (host : Host) (text : String) :
    Except Halt (Session × Outcome Answer) := do
  let (errors, reply) := s.errors.throwText host.vm.handle text
  let session := (session.replace i { s with errors := errors }).observe
    ((reply.events.map .registry).map .logged)
  if reply.outcome ≠ .returned true then
    return session.answerReport start vm (.returned false) []
  if s.policy.enabled then
    let world := session.world.observe [.logged (.raising .direct host.vm.handle text)]
    let (world, nested, abort) ← raise react world vm host text
    let session := { session with world := world }
    match abort with
    | some why => return session.answerReport start vm (.aborted why) nested
    | none => return session.answerReport start vm (.returned true) nested
  return session.answerReport start vm (.returned true) []

/-- The two ways to report agree: a report through a state comes to what posting the
text in it, and concluding the report then, comes to. -/
theorem reportText_eq_conclude (react : Reaction) (session : Session) (i : Nat) (s : Binding)
    (start vm : Nat) (host : Host) (text : String) :
    session.reportText react i s start vm host text = (do
      let (s, posting) := s.post host.vm.handle text
      let session := (session.replace i s).observe (posting.events.map .logged)
      let (world, answer) ← conclude react .direct session.world start vm host text posting
      return ({ session with world := world }, answer.map .answered)) := by
  obtain ⟨errors, ⟨enabled⟩, defaultVm⟩ := s
  rw [reportText, post]
  rcases errors.throwText host.vm.handle text with ⟨errors, outcome, conversions, events⟩
  cases outcome with
  | aborted why => rfl
  | returned recorded =>
      cases recorded with
      | false => rfl
      | true =>
          cases enabled with
          | false => rfl
          | true =>
              dsimp only [conclude]
              cases raise react _ vm host text with
              | error halt => rfl
              | ok raised =>
                  obtain ⟨world, nested, _ | why⟩ := raised <;> rfl

/-- One step on the state at an index. -/
def step (react : Reaction) (hosts : List Host) (session : Session) (i : Nat) (step : Step) :
    Except Halt (Session × Outcome Answer) := do
  let s ← session.stateAt i
  match step with
  | .plain step =>
    let (s, reply) := s.step step
    return ((session.replace i s).observe (Mark.ofReply reply),
      reply.outcome.map fun a => .answered (.plain a))
  | .report vm message =>
    let host ← hostAt hosts vm
    let start := session.world.trace.length
    let session := session.observe [.converted]
    match message.convert with
    | .aborted why => return session.answerReport start vm (.aborted why) []
    | .returned text => session.reportText react i s start vm host text
  | .reportTypeError vm index expected =>
    let host ← hostAt hosts vm
    session.reportText react i s session.world.trace.length vm host
      (host.vm.typeErrorText index expected)
  | .typeErrorText vm index expected =>
    let host ← hostAt hosts vm
    return (session, .returned (.answered (.text (host.vm.typeErrorText index expected))))
  | .lastError vm =>
    let _ ← hostAt hosts vm
    return (session, .returned (.answered (.lastError (session.world.errorsOf vm).lastText)))
  | .fork =>
    return ({ session with states := session.states ++ [s] },
      .returned (.index session.states.length))
  | .create =>
    return ({ session with states := session.states ++ [.initial] },
      .returned (.index session.states.length))

/-- A list of steps, each on the state at an index. -/
def run (react : Reaction) (hosts : List Host) (session : Session) :
    List (Nat × Step) → Except Halt (Session × List (Outcome Answer))
  | [] => return (session, [])
  | (i, step) :: steps => do
    let (session, answer) ← session.step react hosts i step
    let (session, answers) ← session.run react hosts steps
    return (session, answer :: answers)

end Session

end ScriptBinding.Binding
