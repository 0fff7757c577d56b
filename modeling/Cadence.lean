import Cadence.Failure.Kinds
import Cadence.Integration.Contract
import Cadence.Json.Reader
import Cadence.Json.Writer
import Cadence.Workflow.Condition
import Cadence.Workflow.Delay
import Cadence.Secret.Cipher
import Cadence.Log.Redaction
import Cadence.Provider.Client
import Cadence.Storage.DatabaseError
import Cadence.Integration.Records
import Cadence.Workflow.Request
import Cadence.Workflow.Event
import Cadence.Workflow.Registry
import Cadence.Workflow.Engine
import Cadence.World
import Cadence.Action.Defaults
import Cadence.Settings.Session
import Cadence.Application
import Cadence.Storage.Unchecked
import Cadence.Log.Setup
import Cadence.Http.Server
import Cadence.Proofs.ActionCap
import Cadence.Proofs.ActionCount
import Cadence.Proofs.RunComposition
import Cadence.Proofs.RecordedRuns
import Cadence.Proofs.RunEnding
import Cadence.Proofs.DefaultActions
import Cadence.Proofs.RunHistory
import Cadence.Proofs.SealedSecrets
import Cadence.Proofs.ClientHistory
import Cadence.Proofs.VerificationRecords
import Cadence.Proofs.RequestAddress
import Cadence.Proofs.SecretDelivery
import Cadence.Proofs.ClientIsolation
import Cadence.Proofs.Readiness
import Cadence.Proofs.DryRuns
import Cadence.Proofs.HiddenRuns
import Cadence.Proofs.RunShape
import Cadence.Proofs.WatchedRuns
import Cadence.Proofs.LineUse
import Cadence.Proofs.SilentApplication
import Cadence.Proofs.TemplateSends
import Cadence.Proofs.MaskedSecrets
import Cadence.Proofs.MaskedTexts
import Cadence.Proofs.InterleavedRuns
import Cadence.Proofs.RefusedExecutions
import Cadence.Proofs.HiddenTokens
import Cadence.Proofs.LogEntries
import Cadence.Proofs.FiledEvents
import Cadence.Proofs.CutRuns
import Cadence.Proofs.EchoedBodies
import Cadence.Proofs.BrokenConnections
import Cadence.Proofs.VerificationFindings
import Cadence.Proofs.TemplateEndings
import Cadence.Proofs.OpenedTokens
import Cadence.Proofs.CanonicalTokens
import Cadence.Proofs.DelayNodes
import Cadence.Proofs.ResolvedPaths
import Cadence.Proofs.SameValues
import Cadence.Proofs.EqualityConditions
import Cadence.Proofs.HandledRecords
import Cadence.Proofs.NormalNames
import Cadence.Proofs.RegistryHistory
import Cadence.Proofs.CalendarDays
import Cadence.Proofs.IsoTexts
import Cadence.Proofs.ContractEndings
import Cadence.Proofs.ToldInstants
import Cadence.Proofs.AppendedRows
import Cadence.Proofs.SavedCredentials
import Cadence.Proofs.RecordOrder
import Cadence.Proofs.PhoneSegments
import Cadence.Proofs.AnsweredFaults
import Cadence.Proofs.AddressedPositions
import Cadence.Proofs.PresenceConditions
import Cadence.Proofs.SettingsSessions
import Cadence.Proofs.AcceptedSettings
import Cadence.Proofs.JoinedPaths
