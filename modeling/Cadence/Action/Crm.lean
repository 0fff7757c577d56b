import Cadence.Action.Text
import Cadence.Workflow.Registry
import Cadence.World

/-!
# The action that updates a lead's status
-/

namespace Cadence.Action.Crm

open Workflow

def name : String := "crm.update_status"

def updateStatus {α : Type} : Handler (World α) := fun call _ => do
  let status ← settingText call "status"
  if status = "" then throw (lacking call name "missing status" (← get).now)
  return .obj [("action", .str call.action), ("updated", .bool true), ("status", .str status)]

end Cadence.Action.Crm
