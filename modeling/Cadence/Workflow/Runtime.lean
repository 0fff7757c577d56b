import Cadence.Failure.Kinds
import Cadence.Task
import Cadence.Workflow.Condition
import Cadence.Workflow.Delay
import Cadence.Workflow.Event
import Cadence.Workflow.Registry

/-!
# Running workflows

The nodes of a workflow are run in order. Triggers and conditions look at the run's trigger, delays
wait, and actions are dispatched, up to a cap. A run ends early only by a fault, or by a condition that
does not hold and says that the run stops then. Each step is shown in the log and told to a hook, which
does not hold up the run by failing, as long as its failure can be shown in the log, too.
-/

namespace Cadence.Workflow

inductive NodeType where
  | trigger | condition | delay | action
deriving DecidableEq, Repr

def NodeType.ofName? (name : String) : Option NodeType :=
  if name = "trigger" then some trigger
  else if name = "condition" then some condition
  else if name = "delay" then some delay
  else if name = "action" then some action
  else none

structure Surroundings (σ : Type) where
  clock : σ → Instant
  /-- Runs the action of a node. -/
  dispatch : Node → RunContext → Task σ Json
  sleep : Binary64 → Task σ Unit
  hook : Event → Task σ Unit

/-- How far a run has come: the state, and all the run has done so far. -/
structure Progress (σ : Type) where
  world : σ
  events : List Event := []
  sleeps : List Binary64 := []
  actions : Nat := 0

/-- The value of a setting; null if it is missing. -/
def setting (node : Node) (name : String) : Json := (Members.get? node.config name).getD .null

/-- What a node asks of an action, whose name has to have a text. -/
def actionCall (node : Node) : Outcome ActionCall := do
  return ⟨node.id, ← (setting node "action").shownGiven, node.config⟩

/-- Runs the action of a node by a handler. -/
def Handler.onNode {σ : Type} (handler : Handler σ) (node : Node) (context : RunContext) : Task σ Json := do
  handler (← actionCall node) context

namespace Runtime

variable {σ α : Type}

def onWorld (t : Task σ α) : Task (Progress σ) α :=
  Task.focus (·.world) (fun p world => { p with world := world }) t

def now (env : Surroundings σ) : Task (Progress σ) Instant := do return env.clock (← get).world

/-- Tells about an event, after its payload was shown in the log. A fault of the hook is shown there, too,
and dropped, unless it is an order to stop. -/
def emit (env : Surroundings σ) (e : Event) : Task (Progress σ) Unit := do
  let _ ← (Json.obj e.payload).shown
  modify fun p => { p with events := p.events ++ [e] }
  match ← (onWorld (env.hook e)).attempt with
  | .ok () => return ()
  | .error fault =>
    if fault.isCancellation then throw fault
    let _ ← fault.text

/-- Compares the expected event with the run's; another event only leaves a warning. -/
def runTrigger (env : Surroundings σ) (r : RunRequest) (node : Node) : Task (Progress σ) Unit := do
  let expected := Text.strip (← (setting node "event").shownGiven)
  if expected ≠ "" ∧ expected ≠ r.triggerType then
    emit env (.about node.id .warn .triggerSkipped
      [("expected", .str expected), ("actual", .str r.triggerType)])
  else
    emit env (.about node.id .info .triggerMatched [("triggerType", .str r.triggerType)])

/-- Evaluates a condition, and tells whether the run stops by it. -/
def runCondition (env : Surroundings σ) (r : RunRequest) (node : Node) :
    Task (Progress σ) Bool := do
  let passed ← evaluateCondition node.config (.obj r.triggerPayload)
  emit env (.about node.id (if passed then .info else .warn) .conditionEvaluated
    [("passed", .bool passed)])
  let stops := !passed && (setting node "stopOnFalse").isGiven
  if stops then emit env (.about node.id .warn .stoppedByCondition [])
  return stops

/-- Waits as long as a delay asks for, within bounds. -/
def runDelay (env : Surroundings σ) (node : Node) : Task (Progress σ) Unit := do
  let requested ← delayMs (setting node "ms")
  let applied := appliedMs requested
  if (Numeral.whole 0).isLess applied then
    let seconds := applied.divNat 1000
    modify fun p => { p with sleeps := p.sleeps ++ [seconds] }
    onWorld (env.sleep seconds)
  emit env (.about node.id .info .delayCompleted
    [("requestedMs", .ofNumeral requested), ("appliedMs", .ofNumeral applied)])

/-- Runs an action, if the cap allows for one more. -/
def runAction (env : Surroundings σ) (r : RunRequest) (node : Node) : Task (Progress σ) Unit := do
  modify fun p => { p with actions := p.actions + 1 }
  if r.maxActions < (← get).actions then
    throw (.failure (.executionCapExceeded (.nat r.maxActions) (some node.id) (← now env)))
  match ← onWorld (env.dispatch node r.context) with
  | .obj result => emit env (.about node.id .info .actionExecuted result)
  | v => throw (.notAnObject v.typeName)

/-- Runs a node, and tells whether the run stops there. -/
def runNode (env : Surroundings σ) (r : RunRequest) (node : Node) : Task (Progress σ) Bool := do
  emit env (.about node.id .info .nodeEnter [("nodeType", .str node.type)])
  match NodeType.ofName? node.type with
  | some .trigger => do runTrigger env r node; return false
  | some .condition => runCondition env r node
  | some .delay => do runDelay env node; return false
  | some .action => do runAction env r node; return false
  | none => throw (.failure (.unsupportedNodeType node.type (some node.id) (← now env)))

/-- Runs nodes in order; the result is the node at which the run stopped, if it did. -/
def runNodes (env : Surroundings σ) (r : RunRequest) : List Node → Task (Progress σ) (Option String)
  | [] => return none
  | node :: rest => do
    if ← runNode env r node then return some node.id
    runNodes env r rest

def run (env : Surroundings σ) (r : RunRequest) : Task (Progress σ) RunResult := do
  let stoppedAt ← runNodes env r r.workflow.nodes
  return ⟨r.executionId, if stoppedAt.isSome then .stopped else .completed, (← get).actions, stoppedAt⟩

end Runtime

end Cadence.Workflow
