import Cadence.Http.Message
import Cadence.Integration.Records
import Cadence.Json.Reader
import Cadence.Text.Blank
import Cadence.Text.Split
import Cadence.Workflow.Definition

/-!
# Request bodies

The body of a request is JSON if its media type says so, and is then checked as a form of named fields.
A body that cannot be read is refused before anything else is looked at; the issues of a form are
reported with the values that caused them.
-/

namespace Cadence.Http

/-- The media type that a header names. What is not made of two parts counts as plain text. -/
def mediaType (header : String) : String × String :=
  let name := Text.lower (Text.strip (String.ofList (header.toList.takeWhile (· ≠ ';'))))
  match Text.split '/' name with
  | [type, subtype] => (type, subtype)
  | _ => ("text", "plain")

def isJsonType (header : String) : Bool :=
  let (type, subtype) := mediaType header
  type = "application" && (subtype = "json" || subtype.endsWith "+json")

inductive Body where
  | empty
  | json (value : Json)
  | other (text : String)

/-- An issue as it is reported, with the value that caused it. -/
def reportedIssue (i : Issue) (input : Json) : Json :=
  .obj [("type", .str i.complaint.label), ("loc", .arr (i.place.map Place.toJson)),
    ("msg", .str i.complaint.message), ("input", input)]

namespace Body

def withoutMark (s : String) : String :=
  match s.toList with
  | '\ufeff' :: rest => String.ofList rest
  | _ => s

/-- The body of a request, or the response to one that cannot be read. A position in the text tells
where JSON ends. -/
def read (r : Request) : Except Response Body :=
  if r.body = "" then .ok .empty
  else if !isJsonType ((r.header? "Content-Type").getD "") then .ok (.other r.body)
  else
    match Json.read (withoutMark r.body) with
    | .ok v => .ok (.json v)
    | .error ⟨.numeralTooLong _, _⟩ | .error ⟨.listTooDeep, _⟩ | .error ⟨.objectTooDeep, _⟩ =>
      .error (.refusal 400 "There was an error parsing the body")
    | .error e =>
      let issue : Issue := ⟨[.field "body", .item e.position], .unreadable⟩
      .error ⟨422, .json (.obj [("detail", .arr [reportedIssue issue (.obj [])])]), none⟩

/-- The body as a value; what is not there is null. -/
def toJson : Body → Json
  | empty => .null
  | json v => v
  | other text => .str text

/-- Complaints as they are made about a request: a value that is not of a schema might have been any
object with its fields. -/
def asComplaint : Complaint → Complaint
  | .schemaValue _ => .schemaBody
  | c => c

def fill {α : Type} (form : Members → Checked α) (body : Body) : Checked α :=
  let checked : Checked α :=
    match body with
    | empty | json .null => .complain .missing
    | json (.obj members) => form members
    | json _ | other _ => .complain .schemaBody
  match checked.inside (.field "body") with
  | .valid a => .valid a
  | .faulty issues => .faulty (issues.map fun i => { i with complaint := asComplaint i.complaint })

end Body

def valueAt (v : Json) : List Place → Json
  | [] => v
  | .field name :: rest => valueAt ((v.member? name).getD .null) rest
  | .item index :: rest =>
    match v with
    | .arr items => valueAt ((items[index]?).getD .null) rest
    | _ => .null

/-- The value that caused an issue with a body: the one at the place, or around it if a field is
missing there. -/
def causeOf (body : Json) (i : Issue) : Json :=
  let place := i.place.drop 1
  valueAt body (if i.complaint = .missing then place.dropLast else place)

def unprocessable (body : Body) (issues : List Issue) : Outcome Response :=
  Response.ofJson 422 (.obj [("detail", .arr (issues.map fun i => reportedIssue i (causeOf body.toJson i)))])

/-- A workflow to be executed, with the event that starts it. -/
structure RunForm where
  workflow : Workflow.Definition
  clientId : String
  triggerType : String
  triggerPayload : Members
  executionId : Option String
  maxActions : Option Int

def RunForm.read (data : Members) : Checked RunForm :=
  mk <$> Schema.required data "workflow" Workflow.Definition.read
    <*> Schema.required data "client_id" (Schema.textOfLength 1)
    <*> Schema.required data "trigger_type" (Schema.textOfLength 1)
    <*> Schema.optional data "trigger_payload" [] Schema.dictionary
    <*> Schema.optional data "execution_id" none (Schema.nullable Schema.text)
    <*> Schema.optional data "max_actions" none (Schema.nullable (Schema.integerFrom 0))

structure CredentialForm where
  accessToken : String
  phoneNumberId : String
  accountId : Option String

def CredentialForm.read (data : Members) : Checked CredentialForm :=
  mk <$> Schema.required data "access_token" (Schema.textOfLength 1)
    <*> Schema.required data "phone_number_id" (Schema.textOfLength 1)
    <*> Schema.optional data "waba_id" none (Schema.nullable Schema.text)

structure TokenForm where
  accessToken : String

def TokenForm.read (data : Members) : Checked TokenForm :=
  mk <$> Schema.required data "access_token" (Schema.textOfLength 1)

structure VerificationForm where
  recipient : String
  template : Option String
  language : Option String
  mode : Integration.VerificationMode

def VerificationForm.read (data : Members) : Checked VerificationForm :=
  mk <$> Schema.required data "test_recipient" (Schema.textOfLength 1)
    <*> Schema.optional data "template" none (Schema.nullable Schema.text)
    <*> Schema.optional data "language" none (Schema.nullable Schema.text)
    <*> Schema.optional data "mode" .dryRun
      (Schema.choice Integration.VerificationMode.all Integration.VerificationMode.label)

end Cadence.Http
