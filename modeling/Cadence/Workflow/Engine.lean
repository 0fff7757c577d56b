import Cadence.Storage.RunLog
import Cadence.Workflow.Runtime

/-!
# The engine

The engine runs workflows within a time limit and records every run: that it started, each of its
events, and how it ended. A run that fails is recorded with the reason, as far as recording is possible,
and the reason is passed on unchanged. An order to stop is passed on at once and leaves the record as it
is.
-/

namespace Cadence.Workflow

structure Recorder (σ : Type) where
  start : Storage.RunStart → Task σ Unit
  /-- An event of a run, by its level, its type and its payload. -/
  record : String → EventLevel → String → Members → Task σ Nat
  finish : String → Storage.RunEnd → Task σ Unit

structure Engine (σ : Type) where
  clock : σ → Instant
  /-- Runs the action of a node. -/
  dispatch : Node → RunContext → Task σ Json
  sleep : Binary64 → Task σ Unit
  recorder : Recorder σ
  freshId : Task σ String
  /-- The fields of the logging context are set to these. -/
  putLogContext : Members → σ → σ
  addLogContext : Members → σ → σ
  /-- The cap of a run that does not bring its own. -/
  defaultMaxActions : Nat := 20
  /-- The seconds that a run may take; none, or zero, is no limit. -/
  timeLimit : Option Numeral := none

/-- How waiting can turn out: it is over at once, or not before the time limit. -/
inductive Waiting where
  | instant | endless
deriving DecidableEq, Repr

def Waiting.task {σ : Type} : Waiting → Task σ Unit
  | instant => return ()
  | endless => throw .elapsed

/-- A run as a caller asks for it: the values have not been checked yet, and null stands for what is
left out. -/
structure Submission where
  workflow : Definition
  tenantId : Json
  clientId : Json
  triggerType : Json
  triggerPayload : Json := .null
  executionId : Json := .null
  maxActions : Json := .null

namespace Engine

variable {σ : Type}

/-- The surroundings of a run: each event is recorded, and then told to the hook. -/
def surroundings (e : Engine σ) (r : RunRequest) (hook : Event → Task σ Unit) : Surroundings σ where
  clock := e.clock
  dispatch := e.dispatch
  sleep := e.sleep
  hook event := do
    let _ ← e.recorder.record r.executionId event.level event.kind.label event.payload
    hook event

def isExpired (e : Engine σ) : Bool :=
  match e.timeLimit with
  | some limit => limit.isLess (.whole 0)
  | none => false

def attemptRun (e : Engine σ) (r : RunRequest) (hook : Event → Task σ Unit) (s : σ) :
    Outcome RunResult × Progress σ :=
  if e.isExpired then (.error .elapsed, { world := s })
  else (Runtime.run (e.surroundings r hook) r).runOn { world := s }

def executedActions {σ : Type} (p : Progress σ) : Nat :=
  (p.events.filter (·.kind = .actionExecuted)).length

/-- Records that a run failed. A failure to record it is dropped. -/
def recordFailure (e : Engine σ) (executionId code message : String) (executed : Nat) :
    Task σ Unit := do
  let recording : Task σ Unit := do
    let _ ← e.recorder.record executionId .error EventKind.failed.label
      [("errorCode", .str code), ("message", .str message)]
    e.recorder.finish executionId {
      status := .failed
      actionsExecuted := executed
      errorCode := some code
      errorMessage := some message }
  match ← recording.attempt with
  | .ok () | .error (.failure _) => return ()
  | .error fault => throw fault

def entryNames : List String := ["logger", "level", "message"]

/-- The first name that an entry about a failure has in any case. A clash with its fields shows first. -/
def clashingField? {β : Type} (context : Members β) : Option String :=
  let names := context.map (·.1)
  (names.find? Fault.entryFields.contains).orElse fun _ => names.find? entryNames.contains

/-- Records a failure of a run and passes it on. A failure whose context cannot be logged is not
recorded. -/
def fail {α : Type} (e : Engine σ) (executionId : String) (f : Failure) (executed : Nat) :
    Task σ α := do
  if let some name := clashingField? f.context then throw (.reservedField name)
  e.recordFailure executionId f.code f.message executed
  throw (.failure f)

def timeLimitJson (e : Engine σ) : Json :=
  match e.timeLimit with
  | some limit => .ofNumeral limit
  | none => .null

/-- Records how a run ended, and passes the end on. -/
def conclude (e : Engine σ) (executionId : String) (executed : Nat) :
    Outcome RunResult → Task σ RunResult
  | .ok result => do
    e.recorder.finish executionId
      { status := result.status, actionsExecuted := result.actionsExecuted }
    return result
  | .error .elapsed | .error (.timeout _) => do
    let now := e.clock (← get)
    e.fail executionId (.executionTimeout (.str executionId) e.timeLimitJson now) executed
  | .error (.failure f) => e.fail executionId f executed
  | .error fault => do
    if !fault.isCancellation then
      let message ← fault.text
      e.recordFailure executionId "internal_error" message executed
    throw fault

def runAndRecord (e : Engine σ) (r : RunRequest) (hook : Event → Task σ Unit) :
    Task σ RunResult := do
  let (outcome, progress) := e.attemptRun r hook (← get)
  set progress.world
  e.conclude r.executionId (executedActions progress) outcome

/-- Executes a request: the run is recorded from its start to its end. -/
def execute (e : Engine σ) (r : RunRequest) (hook : Event → Task σ Unit) : Task σ RunResult := do
  modify (e.addLogContext [("execution_id", .str r.executionId), ("tenant_id", .str r.tenantId),
    ("client_id", .str r.clientId)])
  let run : Task σ RunResult := do
    e.recorder.start ⟨r.executionId, r.tenantId, r.clientId, r.triggerType, r.workflow.id⟩
    e.runAndRecord r hook
  let outcome ← run.attempt
  modify (e.putLogContext [])
  outcome

/-- The request that a submission makes. A run without an id gets a fresh one. -/
def request (e : Engine σ) (s : Submission) : Task σ RunRequest := do
  let executionId ← if s.executionId.isGiven then pure s.executionId else Json.str <$> e.freshId
  let data : Members := [
    ("tenant_id", s.tenantId),
    ("client_id", s.clientId),
    ("trigger_type", s.triggerType),
    ("trigger_payload", if s.triggerPayload.isGiven then s.triggerPayload else .obj []),
    ("execution_id", executionId),
    ("max_actions",
      match s.maxActions with
      | .null => .nat e.defaultMaxActions
      | v => v)]
  (RunRequest.readWith (.valid s.workflow) data).toOutcome RunRequest.schema

def submit (e : Engine σ) (s : Submission) (hook : Event → Task σ Unit) : Task σ RunResult := do
  e.execute (← e.request s) hook

end Engine

end Cadence.Workflow
