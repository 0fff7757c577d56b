import Cadence.Failure.Kinds
import Cadence.Json.Shown
import Cadence.Payload.Path
import Cadence.Task
import Cadence.Workflow.Request

/-!
# Texts of an action's settings

Actions take their texts from the settings of the node and, for the recipient, from the payload of the
trigger.
-/

namespace Cadence.Action

open Workflow

/-- The trimmed text of a setting, empty if it is not given. -/
def settingText (call : ActionCall) (name : String) : Outcome String :=
  Json.firstText [(Members.get? call.config name).getD .null]

/-- The trimmed text of a setting, or of the payload's value at a path. -/
def settingOrPayload (call : ActionCall) (context : RunContext) (name path : String) :
    Outcome String := do
  let found ← Payload.readPath (.obj context.triggerPayload) path
  Json.firstText [(Members.get? call.config name).getD .null, found.getD .null]

def lacking (call : ActionCall) (action reason : String) (now : Instant) : Fault :=
  .failure (.invalidActionPayload call.nodeId action (some reason) now)

end Cadence.Action
