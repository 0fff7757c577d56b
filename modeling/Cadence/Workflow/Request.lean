import Cadence.Workflow.Definition

/-!
# Runs of workflows

What a run is given, what it asks of the actions, and what it yields.
-/

namespace Cadence.Workflow

/-- All that one run of a workflow is given. -/
structure RunRequest where
  workflow : Definition
  tenantId : String
  clientId : String
  triggerType : String
  triggerPayload : Members := []
  executionId : String
  maxActions : Nat

/-- What an action node asks an action to do. -/
structure ActionCall where
  nodeId : String
  action : String := ""
  config : Members := []

/-- What all actions of one run know about it. -/
structure RunContext where
  executionId : String
  tenantId : String
  clientId : String
  triggerPayload : Members := []

inductive RunStatus where
  | running | completed | stopped | failed
deriving DecidableEq, Repr

structure RunResult where
  executionId : String
  status : RunStatus
  actionsExecuted : Int
  stoppedAtNode : Option String := none

def RunStatus.label : RunStatus → String
  | running => "running"
  | completed => "completed"
  | stopped => "stopped"
  | failed => "failed"

def RunStatus.all : List RunStatus := [.running, .completed, .stopped, .failed]

namespace RunRequest

def schema : String := "RuntimeInput"

def readWith (workflow : Checked Definition) (data : Members) : Checked RunRequest :=
  mk <$> workflow
    <*> Schema.required data "tenant_id" Schema.text
    <*> Schema.required data "client_id" Schema.text
    <*> Schema.required data "trigger_type" Schema.text
    <*> Schema.optional data "trigger_payload" [] Schema.dictionary
    <*> Schema.required data "execution_id" Schema.text
    <*> (Schema.required data "max_actions" (Schema.integerFrom 0)).map Int.toNat

def read (v : Json) : Checked RunRequest :=
  (Schema.record schema v).andThen fun data =>
    readWith (Schema.required data "workflow" Definition.read) data

def toJson (r : RunRequest) : Json :=
  .obj [("workflow", r.workflow.toJson), ("tenant_id", .str r.tenantId),
    ("client_id", .str r.clientId), ("trigger_type", .str r.triggerType),
    ("trigger_payload", .obj r.triggerPayload), ("execution_id", .str r.executionId),
    ("max_actions", .nat r.maxActions)]

def context (r : RunRequest) : RunContext :=
  ⟨r.executionId, r.tenantId, r.clientId, r.triggerPayload⟩

end RunRequest

namespace ActionCall

def read (v : Json) : Checked ActionCall :=
  (Schema.record "ActionInput" v).andThen fun data =>
    mk <$> Schema.required data "node_id" Schema.text
      <*> Schema.optional data "action" "" Schema.text
      <*> Schema.optional data "config" [] Schema.dictionary

def toJson (c : ActionCall) : Json :=
  .obj [("node_id", .str c.nodeId), ("action", .str c.action), ("config", .obj c.config)]

end ActionCall

namespace RunContext

def read (v : Json) : Checked RunContext :=
  (Schema.record "ActionContext" v).andThen fun data =>
    mk <$> Schema.required data "execution_id" Schema.text
      <*> Schema.required data "tenant_id" Schema.text
      <*> Schema.required data "client_id" Schema.text
      <*> Schema.optional data "trigger_payload" [] Schema.dictionary

def toJson (c : RunContext) : Json :=
  .obj [("execution_id", .str c.executionId), ("tenant_id", .str c.tenantId),
    ("client_id", .str c.clientId), ("trigger_payload", .obj c.triggerPayload)]

end RunContext

namespace RunResult

def read (v : Json) : Checked RunResult :=
  (Schema.record "ExecutionResult" v).andThen fun data =>
    mk <$> Schema.required data "execution_id" Schema.text
      <*> Schema.required data "status" (Schema.choice RunStatus.all RunStatus.label)
      <*> Schema.required data "actions_executed" Schema.integer
      <*> Schema.optional data "stopped_at_node" none (Schema.nullable Schema.text)

def toJson (r : RunResult) : Json :=
  .obj [("execution_id", .str r.executionId), ("status", .str r.status.label),
    ("actions_executed", .int r.actionsExecuted),
    ("stopped_at_node", Json.ofText? r.stoppedAtNode)]

end RunResult

end Cadence.Workflow
