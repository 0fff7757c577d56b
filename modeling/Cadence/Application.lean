import Cadence.Action.Defaults
import Cadence.Integration.Service
import Cadence.Settings.Basic
import Cadence.Workflow.Engine

/-!
# An application

All services, set up by the settings. The registry of actions can change while the application runs, so
it is kept beside the state that the actions work on.
-/

namespace Cadence

open Workflow

structure Application (α : Type) where
  settings : Settings
  cipher : Secret.Cipher
  registry : Registry (World α)
  integration : Integration.Service

namespace Application

variable {α : Type}

def clientOf (s : Settings) : Provider.Client := .create s.apiBaseUrl s.apiVersion s.defaultLanguage

def build (s : Settings) (now : Instant) : Outcome (Application α) := do
  let cipher ← Secret.Cipher.ofKeyMaterial (some s.encryptionKey) now
  let client := clientOf s
  return {
    settings := s
    cipher
    registry := Action.defaults { cipher, client, dryRun := s.executionDryRun }
    integration := {
      cipher
      client
      allowLive := s.verifyAllowLive
      maxAgeDays := .whole s.verificationMaxAgeDays
      defaultLanguage := s.defaultLanguage } }

def recorder : Recorder (World α) where
  start s := World.store (Storage.RunLog.start s)
  record executionId level eventType payload :=
    World.store (Storage.RunLog.record executionId level eventType payload)
  finish executionId e := World.store (Storage.RunLog.finish executionId e)

/-- The engine of an application, with a way of waiting. -/
def engine (app : Application α) (sleep : Binary64 → Task (World α) Unit) : Engine (World α) where
  clock := (·.now)
  dispatch := (app.registry.dispatch (·.now)).onNode
  sleep := sleep
  recorder := recorder
  freshId := World.drawIdentifier
  putLogContext fields w := { w with logContext := fields }
  addLogContext fields w := { w with logContext := Members.setAll w.logContext fields }
  defaultMaxActions := app.settings.defaultMaxActions
  timeLimit := some (.binary app.settings.executionTimeout)

def loadRun (executionId : String) : Task (World α) Storage.RunRecord :=
  World.store (Storage.RunLog.load executionId)

end Application

end Cadence
