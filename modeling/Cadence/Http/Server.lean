import Cadence.Application
import Cadence.Http.Envelope
import Cadence.Http.Form
import Cadence.Http.Route
import Cadence.Log.Setup
import Cadence.Settings.Checks

/-!
# The server

A server answers requests by the application behind it. The application is there once the server has
been started; before that only what needs no application is answered.
-/

namespace Cadence.Http

structure Server (α : Type) where
  settings : Settings
  application : Option (Application α) := none
  sleep : Binary64 → Task (World α) Unit := fun _ => return ()

namespace Server

variable {α β : Type}

/-- A server that has not been started, and the folder after its settings were checked. -/
def create (settings : Settings) (folder : Settings.Folder) : Outcome (Server α) × Settings.Folder :=
  let (checked, folder) := settings.check folder
  (checked.map fun _ => { settings }, folder)

def logSetup (s : Settings) : Log.Setup where
  level := s.logLevel.label
  structured := s.logStructured
  template := some s.logFormat
  file := s.logFile
  maxSize := s.logMaxSize
  backups := s.logBackupCount

/-- Starts a server: the log is set up, and then the application. -/
def start (s : Server α) (now : Instant) : Outcome (Server α) := do
  let _ ← (logSetup s.settings).build
  return { s with application := some (← Application.build s.settings now) }

/-! ### What a request has to bring -/

def withBody (r : Request) (next : Body → Task (World α) Response) : Task (World α) Response :=
  match Body.read r with
  | .ok body => next body
  | .error response => return response

def withForm (body : Body) (form : Members → Checked β) (next : β → Task (World α) Response) :
    Task (World α) Response :=
  match body.fill form with
  | .valid filled => next filled
  | .faulty issues => Task.ofOutcome (unprocessable body issues)

def withTenant (r : Request) (next : String → Task (World α) Response) : Task (World α) Response :=
  let tenant := Text.strip ((r.header? tenantHeader).getD "")
  if tenant = "" then return .refusal 400 (tenantHeader ++ " header is required") else next tenant

/-- Goes on with the application, of which one part is needed. -/
def withApplication (s : Server α) (part : String) (next : Application α → Task (World α) Response) :
    Task (World α) Response :=
  match s.application with
  | some app => next app
  | none => return .refusal 500 (part ++ " not initialized")

/-- The trimmed user of a request, if there is one. -/
def userOf (r : Request) : Option String :=
  ((r.header? "X-User-Id").map Text.strip).filter (· ≠ "")

/-! ### Endpoints -/

def greeting (s : Server α) : Response :=
  .result (.obj [("message", .str (s.settings.appName ++ " is running")),
    ("version", .str s.settings.appVersion)])

/-- The name of the service: in lower case, with hyphens for spaces. -/
def serviceName (appName : String) : String :=
  String.ofList ((Text.lower appName).toList.map fun c => if c = ' ' then '-' else c)

def health (s : Server α) (now : Instant) : Response :=
  .result (.obj [("status", .str "healthy"), ("service", .str (serviceName s.settings.appName)),
    ("version", .str s.settings.appVersion), ("dry_run", .bool s.settings.executionDryRun),
    ("timestamp", .str now.text)])

def actions (app : Application α) : Response :=
  let all := app.registry.list
  .result (.obj [("actions", .obj (all.map fun (name, description) => (name, .str description))),
    ("count", .nat all.length)])

def execute (s : Server α) (app : Application α) (tenant : String) (f : RunForm) :
    Task (World α) Response := do
  let submission : Workflow.Submission := {
    workflow := f.workflow
    tenantId := .str tenant
    clientId := .str f.clientId
    triggerType := .str f.triggerType
    triggerPayload := .obj f.triggerPayload
    executionId := Json.ofText? f.executionId
    maxActions := (f.maxActions.map Json.int).getD .null }
  let result ← (app.engine s.sleep).submit submission fun _ => return ()
  return .result result.toJson

/-- The record of a run. A run of another tenant is not found. -/
def run (tenant executionId : String) : Task (World α) Response := do
  let record ← Application.loadRun executionId
  if record.row.tenantId ≠ tenant then
    return .refusal 404 ("Execution " ++ executionId ++ " not found")
  return .result record.toJson

def verify (app : Application α) (owner : Integration.Owner) (user : Option String)
    (f : VerificationForm) : Task (World α) Response := do
  let (ok, record) ← app.integration.verify owner
    ⟨.str f.recipient, f.mode, Json.ofText? f.template, Json.ofText? f.language, user⟩
  return .result (.obj [("ok", .bool ok), ("verification", record.toJson)])

def engineName : String := "Execution engine"

def integrationName : String := "WhatsApp integration"

/-- Answers a request for an endpoint. The body has to be readable first, then comes the tenant, then the
application, and the form last. -/
def answer (s : Server α) (r : Request) : Endpoint → Task (World α) Response
  | .greeting => return s.greeting
  | .health => return s.health (← get).now
  | .actions => s.withApplication "Action dispatcher" fun app => return actions app
  | .execute =>
    withBody r fun body => withTenant r fun tenant => s.withApplication engineName fun app =>
      withForm body RunForm.read fun f => s.execute app tenant f
  | .run executionId =>
    withTenant r fun tenant => s.withApplication engineName fun _ => run tenant executionId
  | .connect clientId =>
    withBody r fun body => withTenant r fun tenant => s.withApplication integrationName fun app =>
      withForm body CredentialForm.read fun f => Response.result <$>
        app.integration.connect ⟨tenant, clientId⟩ f.accessToken f.phoneNumberId f.accountId (userOf r)
  | .rotate clientId =>
    withBody r fun body => withTenant r fun tenant => s.withApplication integrationName fun app =>
      withForm body TokenForm.read fun f => Response.result <$>
        app.integration.rotate ⟨tenant, clientId⟩ f.accessToken (userOf r)
  | .status clientId =>
    withTenant r fun tenant => s.withApplication integrationName fun app =>
      Response.result <$> app.integration.status ⟨tenant, clientId⟩
  | .verify clientId =>
    withBody r fun body => withTenant r fun tenant => s.withApplication integrationName fun app =>
      withForm body VerificationForm.read fun f => verify app ⟨tenant, clientId⟩ (userOf r) f

/-! ### Requests -/

def allMethods : List String := ["DELETE", "GET", "HEAD", "OPTIONS", "PATCH", "POST", "PUT"]

/-- The response to a question of whether another origin may use a method. Nothing is answered if no
origin is allowed. -/
def preflight? (s : Settings) (r : Request) : Option Response := do
  let origin ← r.header? "Origin"
  let method ← r.header? "Access-Control-Request-Method"
  if r.method ≠ "OPTIONS" ∨ s.corsOrigins = [] then none
  else
    let methods := if s.corsMethods.contains "*" then allMethods else s.corsMethods
    let refused :=
      (if s.corsOrigins.contains "*" || s.corsOrigins.contains origin then [] else ["origin"]) ++
        (if methods.contains method then [] else ["method"])
    some <|
      if refused.isEmpty then ⟨200, .text "OK", none⟩
      else ⟨400, .text ("Disallowed CORS " ++ ", ".intercalate refused), none⟩

def route (s : Server α) (r : Request) : Task (World α) Response :=
  match preflight? s.settings r, Route.find? r.path with
  | some response, _ => return response
  | none, some route =>
    if route.method = r.method then s.answer r route.endpoint
    else return .refusal 405 "Method Not Allowed"
  | none, none =>
    return if Route.isElsewhere r.path then ⟨307, .text "", none⟩ else .refusal 404 "Not Found"

/-- Handles a request. Failures are answered at once. A handler that is ordered to stop leaves no
response, which is an error like any other. -/
def handle (s : Server α) (r : Request) (requestId : String) : Task (World α) Response := do
  match ← (s.route r).attempt with
  | .ok response => return response
  | .error (.failure f) => Task.ofOutcome (failureResponse f requestId)
  | .error fault =>
    throw (if fault.isCancellation then .other "RuntimeError" "No response returned." else fault)

def serve (s : Server α) (r : Request) : Task (World α) Response := do
  return (← envelop r (s.handle r)).under r.method

end Server

end Cadence.Http
