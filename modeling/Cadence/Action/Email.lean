import Cadence.Action.Text
import Cadence.Workflow.Registry
import Cadence.World

/-!
# The action that sends an email

The delivery itself is up to a mail service; the action checks the request and acknowledges it.
-/

namespace Cadence.Action.Email

open Workflow

def name : String := "email.send"

/-- Acknowledges an email with a template to the recipient of the settings or the lead. -/
def send {α : Type} (dryRun : Bool) : Handler (World α) := fun call context => do
  let recipient ← settingOrPayload call context "to" "lead.email"
  let template ← settingText call "template"
  if recipient = "" ∨ template = "" then
    throw (lacking call name "recipient and template are required" (← get).now)
  return .obj [("action", .str call.action), ("delivered", .bool true), ("dryRun", .bool dryRun)]

end Cadence.Action.Email
