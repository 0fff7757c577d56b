import Cadence.Failure.Basic

/-!
# Failures by kind

One function for each kind of failure. What a kind does not fix can be given as options; a code that
is not given, or empty, is the label of the kind.
-/

namespace Cadence

/-- What can be said about a failure beyond what its kind fixes. -/
structure FailureOptions where
  code : Option String := none
  details : Members Detail := []
  recoverable : Bool := false
  context : Members Detail := []

namespace Failure

def ofOptions (kind : FailureKind) (message : String) (severity : Severity) (category : Category)
    (o : FailureOptions) (now : Instant) : Failure where
  kind := kind
  message := message
  code :=
    match o.code with
    | some code => if code = "" then kind.label else code
    | none => kind.label
  severity := severity
  category := category
  details := o.details
  recoverable := o.recoverable
  context := o.context
  raisedAt := now

def engine (message : String) (severity : Severity) (category : Category) (o : FailureOptions)
    (now : Instant) : Failure :=
  ofOptions .engine message severity category o now

def configuration (message : String) (configKey : Option String) (o : FailureOptions)
    (now : Instant) : Failure :=
  (ofOptions .configuration message .high .configuration o now).addContext
    (notedIf "config_key" configKey)

def workflow (kind : FailureKind) (message : String) (nodeId : Option String) (o : FailureOptions)
    (now : Instant) : Failure :=
  { (ofOptions kind message .medium .configuration o now).addContext (notedIf "node_id" nodeId) with
    nodeId := nodeId }

def invalidActionPayload (nodeId action : String) (reason : Option String) (now : Instant) :
    Failure :=
  let suffix :=
    match reason with
    | some r => if r = "" then "" else ": " ++ r
    | none => ""
  ((workflow .invalidActionPayload
    ("Invalid payload for action '" ++ action ++ "' on node '" ++ nodeId ++ "'" ++ suffix)
    (some nodeId) { code := some "invalid_action_payload" } now).addContext
      [("action", .known (.str action))]).addDetails (notedIf "reason" reason)

def missingAction (nodeId : Option String) (shownNode : String) (now : Instant) : Failure :=
  workflow .missingAction ("Action node '" ++ shownNode ++ "' does not specify an action") nodeId
    { code := some "missing_action" } now

def unsupportedAction (action : String) (nodeId : Option String) (now : Instant) : Failure :=
  (workflow .unsupportedAction ("Unsupported action: " ++ action) nodeId
    { code := some "unsupported_action" } now).addContext [("action", .known (.str action))]

def unsupportedNodeType (nodeType : String) (nodeId : Option String) (now : Instant) : Failure :=
  (workflow .unsupportedNodeType ("Unsupported node type: " ++ nodeType) nodeId
    { code := some "unsupported_node_type" } now).addContext [("node_type", .known (.str nodeType))]

def executionCapExceeded (maxActions : Json) (nodeId : Option String) (now : Instant) : Failure :=
  (workflow .executionCapExceeded
    ("Execution exceeded its cap of " ++ maxActions.display ++ " actions") nodeId
    { code := some "execution_cap_exceeded" } now).addDetails [("max_actions", .known maxActions)]

def actionRegistry (message : String) (action : Option String) (o : FailureOptions)
    (now : Instant) : Failure :=
  (ofOptions .actionRegistry message .medium .configuration o now).addContext
    (notedIf "action" action)

def credentialMissing (provider credentialType : String) (o : FailureOptions) (now : Instant) :
    Failure :=
  (ofOptions .credentialMissing ("Missing credential " ++ provider ++ "." ++ credentialType) .high
    .integration { o with code := some "credential_missing", recoverable := true } now).addContext
      [("provider", .known (.str provider)), ("credential_type", .known (.str credentialType))]

def sendFailed (provider : String) (status : Json) (nodeId reason : Option String)
    (o : FailureOptions) (now : Instant) : Failure :=
  let label :=
    match status with
    | .null => "transport_error"
    | status => status.display
  ((ofOptions .sendFailed (provider ++ " send failed: " ++ label) .high .integration
    { o with code := some "send_failed", recoverable := true } now).addContext
      (("provider", .known (.str provider)) :: notedIf "node_id" nodeId)).addDetails
        (("status_code", .known status) :: notedIf "reason" reason)

def cipher (kind : FailureKind) (message : String) (o : FailureOptions) (now : Instant) : Failure :=
  ofOptions kind message .critical .security o now

def emptySecret (now : Instant) : Failure :=
  ofOptions .emptySecret "Cannot encrypt an empty secret" .low .security
    { code := some "empty_secret" } now

def invalidCiphertextFormat (reason : String) (now : Instant) : Failure :=
  cipher .invalidCiphertextFormat ("Invalid ciphertext format: " ++ reason)
    { code := some "invalid_ciphertext_format" } now

def authenticationFailed (now : Instant) : Failure :=
  cipher .authenticationFailed "Ciphertext authentication failed"
    { code := some "authentication_failed" } now

def executionTimeout (executionId : Json) (seconds : Json) (now : Instant) : Failure :=
  ((ofOptions .executionTimeout
    ("Execution " ++ executionId.display ++ " timed out after " ++ seconds.display ++ " seconds")
    .high .execution { code := some "execution_timeout", recoverable := true } now).addContext
      [("execution_id", .known executionId)]).addDetails [("timeout", .known seconds)]

def executionNotFound (executionId : Json) (now : Instant) : Failure :=
  (ofOptions .executionNotFound ("Execution " ++ executionId.display ++ " not found") .low .notFound
    { code := some "execution_not_found" } now).addContext [("execution_id", .known executionId)]

def executionConflict (executionId : Json) (now : Instant) : Failure :=
  (ofOptions .executionConflict ("Execution " ++ executionId.display ++ " already exists") .low
    .execution { code := some "execution_conflict" } now).addContext [("execution_id", .known executionId)]

/-- The database refused an operation. The message never holds what the database said. -/
def storage (message : String) (operation table : Option String) (o : FailureOptions)
    (now : Instant) : Failure :=
  (ofOptions .storage message .high .storage { o with recoverable := true } now).addContext
    (notedIf "operation" operation ++ notedIf "table" table)

end Failure

end Cadence
