import Cadence.Json.Basic

/-!
# Events of a run

A run tells about each of its steps by an event, with a payload that names the node.
-/

namespace Cadence.Workflow

inductive EventLevel where
  | info | warn | error
deriving DecidableEq, Repr

inductive EventKind where
  | nodeEnter
  | triggerMatched
  | triggerSkipped
  | conditionEvaluated
  | stoppedByCondition
  | delayCompleted
  | actionExecuted
  | failed
deriving DecidableEq, Repr

structure Event where
  level : EventLevel
  kind : EventKind
  payload : Members

def EventLevel.label : EventLevel → String
  | info => "info"
  | warn => "warn"
  | error => "error"

def EventLevel.all : List EventLevel := [.info, .warn, .error]

def EventKind.label : EventKind → String
  | nodeEnter => "node.enter"
  | triggerMatched => "node.trigger.matched"
  | triggerSkipped => "node.trigger.skipped"
  | conditionEvaluated => "node.condition.evaluated"
  | stoppedByCondition => "execution.stopped_by_condition"
  | delayCompleted => "node.delay.completed"
  | actionExecuted => "node.action.executed"
  | failed => "execution.failed"

def Event.about (nodeId : String) (level : EventLevel) (kind : EventKind) (more : Members) : Event :=
  ⟨level, kind, Members.setAll [("nodeId", .str nodeId)] more⟩

end Cadence.Workflow
