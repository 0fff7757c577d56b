import Cadence.Http.Message
import Cadence.World

/-!
# The envelope of a request

Every request has an id, its own or a fresh one, which its response carries. While it is handled the
logging context tells what it is about, and afterwards nothing. An error of the handler becomes a
response, with the details of a failure and without those of anything else; only an order to stop goes
through.
-/

namespace Cadence.Http

def requestIdHeader : String := "X-Request-ID"

def tenantHeader : String := "X-Tenant-Id"

/-- A detail as it is written, unless JSON has no form for it. -/
def written : Detail → Outcome Json
  | .known v =>
    match v.obstacle? with
    | none => .ok v
    | some fault => .error fault
  | .unwritable error message => .error (.other error message)

/-- Details as they are written. The first one without a form decides the fault. -/
def writeAll : Members Detail → Outcome Members
  | [] => .ok []
  | (name, detail) :: rest => do return (name, ← written detail) :: (← writeAll rest)

/-- What a request is told that ended in a failure. -/
def failureBody (f : Failure) (requestId : String) : Outcome Json := do
  let details ← writeAll f.toldDetails
  let context ← writeAll f.context
  return .obj [("error", .str f.code), ("message", .str f.message), ("details", .obj details),
    ("context", .obj context), ("request_id", .str requestId)]

def failureResponse (f : Failure) (requestId : String) : Outcome Response := do
  return ⟨f.kind.httpStatus, .json (← failureBody f requestId), none⟩

def internalError (requestId : String) : Response :=
  ⟨500, .json (.obj [("error", .str "internal_error"), ("message", .str "An unexpected error occurred"),
    ("request_id", .str requestId)]), none⟩

namespace Request

def ownId? (r : Request) : Option String :=
  (r.header? requestIdHeader).filter (· ≠ "")

def logFields (r : Request) (requestId : String) : Members :=
  [("request_id", .str requestId), ("route", .str (r.method ++ " " ++ pathPart r.path)),
    ("tenant_id", .str ((r.header? tenantHeader).getD "unknown"))]

end Request

variable {α : Type}

def identify (r : Request) : Task (World α) String :=
  match r.ownId? with
  | some id => return id
  | none => World.drawIdentifier

def respondTo (requestId : String) : Outcome Response → Outcome Response
  | .ok response => .ok response
  | .error (.failure f) => failureResponse f requestId
  | .error fault => if fault.isCancellation then .error fault else .ok (internalError requestId)

/-- Handles a request, whose id the handler is told. -/
def envelop (r : Request) (handler : String → Task (World α) Response) : Task (World α) Response := do
  let requestId ← identify r
  modify fun w => { w with logContext := Members.setAll w.logContext (r.logFields requestId) }
  let outcome ← (handler requestId).attempt
  modify fun w => { w with logContext := [] }
  let response ← respondTo requestId outcome
  return { response with requestId := some requestId }

end Cadence.Http
