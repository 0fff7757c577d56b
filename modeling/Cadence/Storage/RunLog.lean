import Cadence.Storage.Cell
import Cadence.Storage.Tables

/-!
# The log of runs

Every run has a row, and the events of a run are numbered from one. The counter of a run starts anew
when the run is recorded, and is forgotten when the run is finished. A number is used up even if its
event cannot be stored.
-/

namespace Cadence.Storage

open Workflow

/-- What is told about a run when it starts. -/
structure RunStart where
  executionId : String
  tenantId : String
  clientId : String
  triggerType : String
  workflowId : Option String := none

structure RunEnd where
  status : RunStatus
  actionsExecuted : Int := 0
  errorCode : Option String := none
  errorMessage : Option String := none

/-- A run with its events, as it is reported. -/
structure RunRecord where
  row : RunRow
  events : List EventRow

/-- The number of the next event of a run, and the counters after it. -/
def nextSequence (executionId : String) (sequences : List (String × Nat)) : Nat × List (String × Nat) :=
  let next := ((sequences.find? fun s => s.1 = executionId).map (·.2)).getD 0 + 1
  (next, (executionId, next) :: sequences.filter fun s => s.1 ≠ executionId)

def runRefused (verb operation executionId : String) (now : Instant) : Fault :=
  refused ("Failed to " ++ verb ++ " execution " ++ executionId) operation "workflow_executions" now

namespace RunLog

/-- Records that a run starts. The id must not have been used. -/
def start (s : RunStart) (now : Instant) : Task Database Unit := do
  let t ← tablesOr (runRefused "create" "start_run" s.executionId now)
  if t.runs.any (·.id = s.executionId) then
    throw (.failure (.executionConflict (.str s.executionId) now))
  let row : RunRow := {
    id := s.executionId
    tenantId := s.tenantId
    clientId := s.clientId
    workflowId := s.workflowId
    triggerType := s.triggerType
    startedAt := now }
  putTables { t with runs := t.runs ++ [row] }
  modify fun db => { db with
    sequences := (s.executionId, 0) :: db.sequences.filter fun c => c.1 ≠ s.executionId }

/-- Records an event of a run and returns its number. The node is the one that the payload names. -/
def record (executionId : String) (level : EventLevel) (eventType : String) (payload : Members)
    (now : Instant) : Task Database Nat := do
  let (sequence, sequences) := nextSequence executionId (← get).sequences
  modify fun db => { db with sequences := sequences }
  let fault := refused ("Failed to record event " ++ eventType ++ " for " ++ executionId)
    "record_event" "execution_events" now
  let t ← tablesOr fault
  let nodeId ←
    match Cell.ofJson ((Members.get? payload "nodeId").getD .null) with
    | .text s => pure (some s)
    | .empty => pure none
    | .tooWide => throw .integerTooWide
    | .unsupported => throw fault
  let row : EventRow := ⟨executionId, sequence, level, eventType, nodeId, payload, now⟩
  putTables { t with events := t.events ++ [row] }
  return sequence

def ended (e : RunEnd) (now : Instant) (row : RunRow) : RunRow :=
  { row with
    status := e.status
    actionsExecuted := e.actionsExecuted
    errorCode := e.errorCode
    errorMessage := e.errorMessage
    completedAt := some now }

/-- Records that a run has ended. Its counter is forgotten in any case. -/
def finish (executionId : String) (e : RunEnd) (now : Instant) : Task Database Unit := do
  modify fun db => { db with sequences := db.sequences.filter fun c => c.1 ≠ executionId }
  let t ← tablesOr (runRefused "finalize" "finalize_run" executionId now)
  if !t.runs.any (·.id = executionId) then
    throw (.failure (.executionNotFound (.str executionId) now))
  putTables { t with
    runs := t.runs.map fun row => if row.id = executionId then ended e now row else row }

/-- The events of a run in the order of their numbers; events of one number keep their order. -/
def eventsOf (executionId : String) (rows : List EventRow) : List EventRow :=
  (rows.filter (·.executionId = executionId)).mergeSort fun a b => a.sequence ≤ b.sequence

def load (executionId : String) (now : Instant) : Task Database RunRecord := do
  let t ← tablesOr (runRefused "load" "get_execution" executionId now)
  match t.runs.find? (·.id = executionId) with
  | none => throw (.failure (.executionNotFound (.str executionId) now))
  | some row => return ⟨row, eventsOf executionId t.events⟩

end RunLog

def EventRow.toJson (e : EventRow) : Json :=
  .obj [("sequence", .nat e.sequence), ("level", .str e.level.label), ("event_type", .str e.eventType),
    ("node_id", Json.ofText? e.nodeId), ("payload", .obj e.payload),
    ("timestamp", .str e.recordedAt.toNaive.text)]

def RunRecord.toJson (r : RunRecord) : Json :=
  .obj [("execution_id", .str r.row.id), ("tenant_id", .str r.row.tenantId),
    ("client_id", .str r.row.clientId), ("workflow_id", Json.ofText? r.row.workflowId),
    ("trigger_type", .str r.row.triggerType), ("status", .str r.row.status.label),
    ("actions_executed", .int r.row.actionsExecuted), ("error_code", Json.ofText? r.row.errorCode),
    ("error_message", Json.ofText? r.row.errorMessage),
    ("started_at", .str r.row.startedAt.toNaive.text),
    ("completed_at", Json.ofText? (r.row.completedAt.map (·.toNaive.text))),
    ("events", .arr (r.events.map EventRow.toJson))]

end Cadence.Storage
