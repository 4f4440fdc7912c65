import ScriptBinding.ProcessWide.Step

/-
Executions of the process.

* `ProcessWide.raise`: a message raised in a VM object, whose reaction may use the
  process again.
* `ProcessWide.conclude`: the end of a report, which raises its message if that was
  decided when it was recorded.
* `ProcessWide.stepWith`: one step, for a given way to run reactions.
* `ProcessWide.step`, `ProcessWide.run`: steps with reactions nested up to a depth.
-/
namespace ScriptBinding.ProcessWide

/-- A way to run the steps of a reaction. -/
abbrev Reaction :=
  World → List Step → Except Halt (World × List (Outcome Answer))

/-- Raises a message in the VM object at an index: the VM takes the message,
runs its reaction, and then perhaps aborts with a text. -/
def raise (react : Reaction) (w : World) (vm : Nat) (host : Host) (message : String) :
    Except Halt (World × List (Outcome Answer) × Option String) := do
  let (w, nested) ← react (w.observe [.raised vm message]) host.onRaise
  return (w, nested, host.abort)

/-- The answer to a report that began when `start` marks had been observed. -/
def reportAnswer (w : World) (start vm : Nat) (recorded : Outcome Bool)
    (nested : List (Outcome Answer)) : Answer :=
  .report recorded ((w.since start).filterMap (Mark.raisedIn? vm)) nested (w.errorsOf vm).lastText

/-- The end of a report, after its message was posted: raises the message if
that was decided then, and tells the log for a layer. Nothing that happens from
here on changes whether the report was recorded. -/
def conclude (react : Reaction) (layer : Layer) (w : World) (start vm : Nat) (host : Host)
    (text : String) (posting : Binding.Posting) : Except Halt (World × Outcome Answer) :=
  if posting.forward then do
    let w := w.observe [.logged (.raising layer host.vm.handle text)]
    let (w, nested, abort) ← raise react w vm host text
    let recorded : Outcome Bool := match abort with
      | some why => .aborted why
      | none => .returned posting.recorded
    return (w, .returned (reportAnswer w start vm recorded nested))
  else
    return (w, .returned (reportAnswer w start vm (.returned posting.recorded) []))

/-- The VM object at an index. -/
def hostAt (hosts : List Host) (vm : Nat) : Except Halt Host :=
  match hosts[vm]? with
  | some host => .ok host
  | none => .error .missing

/-- A report of a text through the process-wide state: the message is recorded,
and the policy read, under the guard, which is free again before the VM is
involved. -/
def reportText (react : Reaction) (w : World) (start vm : Nat) (host : Host) (text : String) :
    Except Halt (World × Outcome Answer) := do
  let (w, posting) ← w.access (·.post host.vm.handle text)
    (·.events.map .logged) (fun _ => false)
  conclude react .processWide w start vm host text posting

/-- The steps of a block, and the abort of its own that it perhaps ends with. -/
def attemptBlock (steps : List Binding.Step) (ending : Option String) (s : Binding) :
    Binding × Reply Event Answer :=
  let (s, reply) := s.attempt steps
  let outcome : Outcome (List Binding.Answer) := match reply.outcome, ending with
    | .returned _, some why => .aborted why
    | outcome, _ => outcome
  (s, { reply with outcome := outcome.map .block })

/-- One step on the process-wide state, for a given way to run reactions. -/
def stepWith (react : Reaction) (hosts : List Host) (w : World) :
    Step → Except Halt (World × Outcome Answer)
  | .plain step => do
    let (w, reply) ← w.access (·.step step) Mark.ofReply (·.outcome.isAborted)
    return (w, reply.outcome.map .plain)
  | .block steps ending => do
    let (w, reply) ← w.access (attemptBlock steps ending) Mark.ofReply (·.outcome.isAborted)
    return (w, reply.outcome)
  | .report vm message => do
    let host ← hostAt hosts vm
    let start := w.trace.length
    let w := w.observe [.converted]
    match message.convert with
    | .aborted why => return (w, .returned (reportAnswer w start vm (.aborted why) []))
    | .returned text => reportText react w start vm host text
  | .reportTypeError vm index expected => do
    let host ← hostAt hosts vm
    reportText react w w.trace.length vm host (host.vm.typeErrorText index expected)
  | .typeErrorText vm index expected => do
    let host ← hostAt hosts vm
    return (w, .returned (.text (host.vm.typeErrorText index expected)))
  | .lastError vm => do
    let _ ← hostAt hosts vm
    return (w, .returned (.lastError (w.errorsOf vm).lastText))

/-- A list of steps, given how to take one. -/
def runWith (step : World → Step → Except Halt (World × Outcome Answer)) (w : World) :
    List Step → Except Halt (World × List (Outcome Answer))
  | [] => return (w, [])
  | s :: steps => do
    let (w, answer) ← step w s
    let (w, answers) ← runWith step w steps
    return (w, answer :: answers)

/-- One step, with reactions nested up to a depth. -/
def step (hosts : List Host) : Nat → World → Step → Except Halt (World × Outcome Answer)
  | 0 => stepWith (fun _ _ => .error .exhausted) hosts
  | depth + 1 => stepWith (runWith (step hosts depth)) hosts

/-- The depth of nesting that executions are given. -/
def maxDepth : Nat :=
  1000

/-- A list of steps, with reactions nested up to a depth. -/
def run (hosts : List Host) (depth : Nat) : World → List Step →
    Except Halt (World × List (Outcome Answer)) :=
  runWith (step hosts depth)

end ScriptBinding.ProcessWide
