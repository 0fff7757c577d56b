import Cadence.Action.Crm
import Cadence.Action.Email
import Cadence.Action.WhatsApp

/-!
# The actions of every application
-/

namespace Cadence.Action

open Workflow

def defaults {α : Type} (s : WhatsApp.Services) : Registry (World α) where
  entries := [
    ⟨WhatsApp.name, WhatsApp.sendTemplate s⟩,
    ⟨Email.name, Email.send s.dryRun⟩,
    ⟨Crm.name, Crm.updateStatus⟩]
  descriptions := [
    (WhatsApp.name, "Send a WhatsApp template message to the lead"),
    (Email.name, "Send a templated email to the lead"),
    (Crm.name, "Update the lead's CRM status")]

end Cadence.Action
