import Cadence.Calendar.Stamp
import Cadence.Json.Display

/-!
# Engine failures

A failure is what the engine reports when an operation cannot be done: a machine-readable code, a
message, how bad it is, whose fault it is, and whatever is known about the place. Failures of one
kind share their label, their HTTP status and their place in the hierarchy of kinds.
-/

namespace Cadence

inductive Severity where
  | low | medium | high | critical
deriving DecidableEq, Repr

inductive Category where
  | configuration | integration | security | storage | execution | notFound
deriving DecidableEq, Repr

inductive FailureKind where
  | engine
  | configuration
  | workflowConfiguration
  | invalidActionPayload
  | missingAction
  | unsupportedAction
  | unsupportedNodeType
  | executionCapExceeded
  | actionRegistry
  | credentialMissing
  | sendFailed
  | cipher
  | emptySecret
  | invalidCiphertextFormat
  | authenticationFailed
  | executionTimeout
  | executionNotFound
  | executionConflict
  | storage
deriving DecidableEq, Repr

def Severity.label : Severity → String
  | low => "low"
  | medium => "medium"
  | high => "high"
  | critical => "critical"

def Category.label : Category → String
  | configuration => "configuration"
  | integration => "integration"
  | security => "security"
  | storage => "storage"
  | execution => "execution"
  | notFound => "not_found"

namespace FailureKind

def label : FailureKind → String
  | engine => "WorkflowEngineError"
  | configuration => "ConfigurationError"
  | workflowConfiguration => "WorkflowConfigurationError"
  | invalidActionPayload => "InvalidActionPayloadError"
  | missingAction => "MissingActionError"
  | unsupportedAction => "UnsupportedActionError"
  | unsupportedNodeType => "UnsupportedNodeTypeError"
  | executionCapExceeded => "ExecutionCapExceededError"
  | actionRegistry => "ActionRegistryError"
  | credentialMissing => "CredentialMissingError"
  | sendFailed => "SendFailedError"
  | cipher => "CipherError"
  | emptySecret => "EmptySecretError"
  | invalidCiphertextFormat => "InvalidCiphertextFormatError"
  | authenticationFailed => "AuthenticationFailedError"
  | executionTimeout => "ExecutionTimeoutError"
  | executionNotFound => "ExecutionNotFoundError"
  | executionConflict => "ExecutionConflictError"
  | storage => "StorageError"

def general? : FailureKind → Option FailureKind
  | engine => none
  | invalidActionPayload | missingAction | unsupportedAction | unsupportedNodeType
  | executionCapExceeded => some workflowConfiguration
  | invalidCiphertextFormat | authenticationFailed => some cipher
  | _ => some engine

/-- A kind with the more general kinds above it, the most special one first. -/
def lineage (k : FailureKind) : List FailureKind :=
  match k.general? with
  | none => [k]
  | some g =>
    match g.general? with
    | none => [k, g]
    | some top => [k, g, top]

def httpStatus : FailureKind → Nat
  | workflowConfiguration | invalidActionPayload | missingAction | unsupportedAction
  | unsupportedNodeType | executionCapExceeded | emptySecret => 422
  | credentialMissing | executionConflict => 409
  | executionNotFound => 404
  | sendFailed => 502
  | executionTimeout => 504
  | _ => 500

end FailureKind

/-- What is known about a failure under one name: a value, or something that JSON has no form for, so that
writing it raises the named error. -/
inductive Detail where
  | known (v : Json)
  | unwritable (error message : String)

structure Failure where
  kind : FailureKind
  message : String
  code : String
  severity : Severity
  category : Category
  details : Members Detail
  recoverable : Bool
  context : Members Detail
  raisedAt : Instant
  /-- The node that a failure of the workflow's definition was raised for. -/
  nodeId : Option String := none

namespace Failure

/-- Whether the failure comes from the definition rather than from the environment. -/
def isConfiguration (f : Failure) : Bool := f.category = .configuration

/-- The failure with more context; a name that was there keeps its place and takes the new value. -/
def addContext (f : Failure) (more : Members Detail) : Failure :=
  { f with context := Members.setAll f.context more }

def addDetails (f : Failure) (more : Members Detail) : Failure :=
  { f with details := Members.setAll f.details more }

def noted (name text : String) : Members Detail := if text = "" then [] else [(name, .known (.str text))]

def notedIf (name : String) : Option String → Members Detail
  | some text => noted name text
  | none => []

/-- The details that every failure has. -/
def ownDetails (f : Failure) : Members Detail :=
  [("severity", .known (.str f.severity.label)),
    ("category", .known (.str f.category.label)),
    ("recoverable", .known (.bool f.recoverable)),
    ("timestamp", .known (.str f.raisedAt.text))]

/-- The details that are told of a failure. Its own ones take the place of others of the same name. -/
def toldDetails (f : Failure) : Members Detail := Members.setAll f.details f.ownDetails

end Failure

end Cadence
