import Cadence.Action.Text
import Cadence.Workflow.Registry
import Cadence.World

/-!
# The action that sends a template message

A dry run reads no credential and sends nothing. Otherwise the client's access token is opened and
one request is sent; a request that fails, or is refused, is a failure of the action.
-/

namespace Cadence.Action.WhatsApp

open Workflow

def name : String := "whatsapp.send_template"

def provider : String := "whatsapp"

def resultProvider : String := "meta"

def accessTokenType : String := "access_token"

structure Services where
  cipher : Secret.Cipher
  client : Provider.Client
  dryRun : Bool := true

def accessToken {α : Type} (s : Services) (call : ActionCall) (context : RunContext) :
    Task (World α) String := do
  let key : Storage.CredentialKey := ⟨context.tenantId, context.clientId, provider, accessTokenType⟩
  match ← World.store (Storage.CredentialStore.current key) with
  | some row => World.decrypt s.cipher row.encryptedSecret
  | none =>
    let failure := (Failure.credentialMissing provider accessTokenType {} (← get).now).addContext
      [("node_id", .known (.str call.nodeId)), ("client_id", .known (.str context.clientId))]
    throw (.failure failure)

/-- Sends one request; the outcome tells whether it reached an answer. -/
def request {α : Type} (s : Services) (token phoneNumberId : String) (m : Provider.Message) :
    Task (World α) (Outcome Provider.Response) :=
  (World.overLine (s.client.send token phoneNumberId m)).attempt

def sendTemplate {α : Type} (s : Services) : Handler (World α) := fun call context => do
  let now := (← get).now
  let recipient ← settingOrPayload call context "to" "lead.phone"
  let template ← settingText call "template"
  if recipient = "" ∨ template = "" then
    throw (lacking call name "recipient and template are required" now)
  if s.dryRun then
    return .obj [("action", .str call.action), ("delivered", .bool true), ("dryRun", .bool true)]
  let token ← accessToken s call context
  let phoneNumberId ← settingText call "phoneNumberId"
  if phoneNumberId = "" then throw (lacking call name "missing phoneNumberId" now)
  let language ← settingText call "language"
  match ← request s token phoneNumberId ⟨recipient, template, some language⟩ with
  | .error (.transport _ message) =>
    throw (.failure (.sendFailed provider .null (some call.nodeId) (some message) {} now))
  | .error fault => throw fault
  | .ok response =>
    if response.isOk then
      return .obj [("action", .str call.action), ("delivered", .bool true),
        ("provider", .str resultProvider), ("response", .obj response.body)]
    throw (.failure (.sendFailed provider (.int response.status) (some call.nodeId) none {} now))

end Cadence.Action.WhatsApp
