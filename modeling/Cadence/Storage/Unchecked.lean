import Cadence.Storage.CredentialStore
import Cadence.Storage.RunLog
import Cadence.Storage.VerificationLog

/-!
# The stores with unchecked values

Values that were not checked before can be stored, too. Scalars become texts; lists and objects cannot be
stored; and null cannot stand in a column that needs a value, and is equal to no stored value.
-/

namespace Cadence.Storage.Unchecked

open Integration Workflow

inductive Unfit where
  | unsupported
  | tooWide
  | null
deriving DecidableEq, Repr

def unfit? : Cell → Option Unfit
  | .unsupported => some .unsupported
  | .tooWide => some .tooWide
  | .text _ | .empty => none

/-- Values as the texts of columns that need a value. The first value that fits into no column is told
before a null. -/
def texts (values : List Json) : Except Unfit (List String) :=
  let cells := values.map Cell.ofJson
  match cells.findSome? unfit? with
  | some reason => .error reason
  | none =>
    if cells.contains .empty then .error .null
    else .ok (cells.filterMap fun
      | .text s => some s
      | _ => none)

def optionalText (v : Json) : Except Unfit (Option String) :=
  match Cell.ofJson v with
  | .text s => .ok (some s)
  | .empty => .ok none
  | .tooWide => .error .tooWide
  | .unsupported => .error .unsupported

def unhashable? (values : List Json) : Option Fault :=
  (values.find? fun v => Cell.ofJson v = .unsupported).map fun v => .unhashable v.typeName

/-- An operation with a value that fits into no column is refused, and by the fault of the operation if
the tables are gone. -/
def refuse {α : Type} (fault : Fault) (reason : Unfit) : Task Database α := do
  if reason = .tooWide then
    let _ ← tablesOr fault
    throw .integerTooWide
  throw fault

/-- A task on the four parts of a key. A key that cannot be stored is a fault, and one with a null finds
nothing. -/
def withKey {α : Type} (tenant client provider type : Json) (fault : Fault) (nothing : α)
    (task : String → String → String → String → Task Database α) : Task Database α :=
  match texts [tenant, client, provider, type] with
  | .ok [a, b, c, d] => task a b c d
  | .ok _ => throw fault
  | .error .null => do
    let _ ← tablesOr fault
    return nothing
  | .error reason => refuse fault reason

def currentCredential (tenant client provider type : Json) (now : Instant) :
    Task Database (Option Credential) :=
  withKey tenant client provider type (refused "Failed to load credential" "get" "credentials" now) none
    fun a b c d => CredentialStore.current ⟨a, b, c, d⟩ now

def insertCredential (tenant client provider type secret userId : Json) (now : Instant) :
    Task Database Nat :=
  match unhashable? [tenant, client, provider, type] with
  | some fault => throw fault
  | none =>
    let fault := CredentialStore.saveRefused now
    match texts [tenant, client, provider, type, secret], optionalText userId with
    | .ok [a, b, c, d, s], .ok user => CredentialStore.insert ⟨a, b, c, d⟩ s user now
    | .error .null, .error reason | .ok _, .error reason | .error reason, _ => refuse fault reason
    | .ok _, .ok _ => throw fault

def saveCredential (tenant client provider type secret userId : Json) (now : Instant) :
    Task Database Credential := do
  CredentialStore.reload (← insertCredential tenant client provider type secret userId now) now

def latestVerification (tenant client provider type : Json) (now : Instant) :
    Task Database (Option Verification) :=
  withKey tenant client provider type
    (refused "Failed to load verification" "get_latest" "integration_verifications" now) none
    fun a b c d => VerificationLog.latest ⟨a, b, c, d⟩ now

/-- The whole number that a limit stands for; null stands for none. -/
def limitOf : Json → Outcome (Option Int)
  | .null => .ok none
  | .int i => .ok (some i)
  | .bool b => .ok (some (if b then 1 else 0))
  | .float x =>
    match x.truncate? with
    | some i => .ok (some i)
    | none =>
      if x = .nan then .error (.other "ValueError" "cannot convert float NaN to integer")
      else .error (.other "OverflowError" "cannot convert float infinity to integer")
  | .str s =>
    match Binary64.integerOfText? s with
    | some i => .ok (some i)
    | none => .error (.other "ValueError" ("invalid literal for int() with base 10: " ++ Text.quote s))
  | v =>
    .error (.other "TypeError"
      ("int() argument must be a string, a bytes-like object or a real number, not '" ++ v.typeName ++ "'"))

def verificationHistory (tenant client provider type : Json) (limit : Json) (now : Instant) :
    Task Database (List Verification) := do
  let fault := refused "Failed to list verifications" "list_history" "integration_verifications" now
  let bound := (← limitOf limit).getD (-1)
  withKey tenant client provider type fault [] fun a b c d => do
    if !fitsColumn bound then refuse fault .tooWide
    VerificationLog.history ⟨a, b, c, d⟩ bound now

/-- Records that a run starts. A null in a column that needs a value counts as a conflict. -/
def startRun (executionId tenant client triggerType workflowId : Json) (now : Instant) :
    Task Database Unit := do
  let fault := runRefused "create" "start_run" executionId.display now
  match texts [executionId, tenant, client, triggerType], optionalText workflowId with
  | .ok [id, a, b, c], .ok workflow => RunLog.start ⟨id, a, b, c, workflow⟩ now
  | .error .null, .ok _ =>
    let _ ← tablesOr fault
    throw (.failure (.executionConflict executionId now))
  | .error .null, .error reason | .ok _, .error reason | .error reason, _ => refuse fault reason
  | .ok _, .ok _ => throw fault

def payloadMembers (v : Json) : Outcome Members :=
  match v with
  | .obj members => .ok members
  | v =>
    if !v.isGiven then .ok []
    else .error (.other "TypeError" ("'" ++ v.typeName ++ "' object is not iterable"))

/-- Records an event of a run. The number of the event is used up before its level is looked at. -/
def recordEvent (executionId level eventType payload : Json) (now : Instant) : Task Database Nat := do
  let payload ← payloadMembers payload
  match unhashable? [executionId] with
  | some fault => throw fault
  | none =>
    let fault := refused ("Failed to record event " ++ eventType.display ++ " for " ++ executionId.display)
      "record_event" "execution_events" now
    let useUp : Task Database Unit := modify fun db =>
      { db with sequences := (nextSequence executionId.display db.sequences).2 }
    match Schema.choice EventLevel.all EventLevel.label level, texts [executionId, eventType] with
    | .valid level, .ok [id, type] => RunLog.record id level type payload now
    | .valid _, .error reason => do useUp; refuse fault reason
    | .valid _, .ok _ => do useUp; throw fault
    | .faulty _, _ => do useUp; throw (.notAChoice level.literal "EventLevel")

def finishRun (executionId status actions errorCode errorMessage : Json) (now : Instant) :
    Task Database Unit := do
  let status ←
    match Schema.choice RunStatus.all RunStatus.label status with
    | .valid status => pure status
    | .faulty _ => throw (.notAChoice status.literal "ExecutionStatusEnum")
  let fault := runRefused "finalize" "finalize_run" executionId.display now
  let forget : Task Database Unit := modify fun db =>
    { db with sequences := db.sequences.filter fun c => c.1 ≠ executionId.display }
  match texts [executionId] with
  | .ok [id] =>
    match Schema.integer actions, optionalText errorCode, optionalText errorMessage with
    | .valid n, .ok code, .ok message =>
      if fitsColumn n then RunLog.finish id ⟨status, n, code, message⟩ now
      else
        forget
        let _ ← RunLog.load id now
        throw .integerTooWide
    | _, .error .tooWide, _ | _, _, .error .tooWide =>
      forget
      let _ ← RunLog.load id now
      throw .integerTooWide
    | _, _, _ =>
      forget
      let _ ← RunLog.load id now
      throw fault
  | .error .null =>
    forget
    let _ ← tablesOr fault
    throw (.failure (.executionNotFound executionId now))
  | .error reason =>
    forget
    refuse fault reason
  | .ok _ =>
    forget
    throw fault

def loadRun (executionId : Json) (now : Instant) : Task Database RunRecord := do
  let fault := runRefused "load" "get_execution" executionId.display now
  match texts [executionId] with
  | .ok [id] => RunLog.load id now
  | .error .null =>
    let _ ← tablesOr fault
    throw (.failure (.executionNotFound executionId now))
  | .error reason => refuse fault reason
  | .ok _ => throw fault

end Cadence.Storage.Unchecked
