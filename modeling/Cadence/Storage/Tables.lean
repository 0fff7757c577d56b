import Cadence.Failure.Kinds
import Cadence.Integration.Records
import Cadence.Task
import Cadence.Workflow.Event
import Cadence.Workflow.Request

/-!
# The tables of the database

Rows are only ever appended, so the id of a row is its position in its table, counted from one. Points
in time are stored as universal time without a zone.
-/

namespace Cadence.Storage

open Integration Workflow

structure RunRow where
  id : String
  tenantId : String
  clientId : String
  workflowId : Option String
  triggerType : String
  status : RunStatus := .running
  actionsExecuted : Int := 0
  errorCode : Option String := none
  errorMessage : Option String := none
  startedAt : Instant
  completedAt : Option Instant := none

structure EventRow where
  executionId : String
  sequence : Nat
  level : EventLevel
  eventType : String
  nodeId : Option String
  payload : Members
  recordedAt : Instant

/-- All tables, oldest rows first. -/
structure Tables where
  credentials : List Credential := []
  verifications : List Verification := []
  runs : List RunRow := []
  events : List EventRow := []

/-- The database: its tables, unless they were dropped, and the counters of events of the runs that
are going on, which are kept outside of the tables. -/
structure Database where
  tables : Option Tables := some {}
  sequences : List (String × Nat) := []

def refused (message operation table : String) (now : Instant) : Fault :=
  .failure (.storage message (some operation) (some table) {} now)

/-- The tables, or the fault if there are none. -/
def tablesOr (fault : Fault) : Task Database Tables := do
  match (← get).tables with
  | some t => return t
  | none => throw fault

def putTables (t : Tables) : Task Database Unit := modify fun db => { db with tables := some t }

def Database.dropTables (db : Database) : Database := { db with tables := none }

/-- The database with tables; tables that are there keep their rows. -/
def Database.createTables (db : Database) : Database :=
  { db with tables := some (db.tables.getD {}) }

end Cadence.Storage
