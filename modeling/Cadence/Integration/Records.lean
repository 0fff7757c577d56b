import Cadence.Integration.Contract
import Cadence.Json.Display
import Cadence.Schema.Moment

/-!
# Records of an integration

Credentials, of which only the sealed form is ever kept, and attempts to verify that they work.
-/

namespace Cadence.Integration

structure Credential where
  id : Int
  tenantId : String
  clientId : String
  provider : String
  credentialType : String
  encryptedSecret : String
  userId : Option String := none
  createdAt : Stamp
deriving DecidableEq, Repr

structure Check where
  key : String
  ok : Bool
  detail : String
deriving DecidableEq, Repr

inductive VerificationStatus where
  | passed | failed | incomplete
deriving DecidableEq, Repr

/-- How far a verification goes: up to a message that is really sent, or not. -/
inductive VerificationMode where
  | dryRun | live
deriving DecidableEq, Repr

/-- A record of an attempt to verify an integration. -/
structure Verification where
  id : Option Int := none
  tenantId : String
  clientId : String
  provider : String
  checkType : String
  status : VerificationStatus
  checks : List Check := []
  evidence : Members := []
  initiatedBy : Option String := none
  createdAt : Option Stamp := none

def VerificationStatus.label : VerificationStatus → String
  | passed => "passed"
  | failed => "failed"
  | incomplete => "partial"

def VerificationStatus.all : List VerificationStatus := [.passed, .failed, .incomplete]

def VerificationMode.label : VerificationMode → String
  | dryRun => "dry_run"
  | live => "live"

def VerificationMode.all : List VerificationMode := [.dryRun, .live]

/-- The mode of a name; anything else is none of the modes. -/
def VerificationMode.ofName (v : Json) : Outcome VerificationMode :=
  match Schema.choice all label v with
  | .valid mode => .ok mode
  | .faulty _ => .error (.notAChoice v.literal "VerificationMode")

namespace Credential

def read (v : Json) : Checked Credential :=
  (Schema.record "Credential" v).andThen fun data =>
    mk <$> Schema.required data "id" Schema.integer
      <*> Schema.required data "tenant_id" Schema.text
      <*> Schema.required data "client_id" Schema.text
      <*> Schema.required data "provider" Schema.text
      <*> Schema.required data "credential_type" Schema.text
      <*> Schema.required data "encrypted_secret" Schema.text
      <*> Schema.optional data "user_id" none (Schema.nullable Schema.text)
      <*> Schema.required data "created_at" Schema.moment

def toJson (c : Credential) : Json :=
  .obj [("id", .int c.id), ("tenant_id", .str c.tenantId), ("client_id", .str c.clientId),
    ("provider", .str c.provider), ("credential_type", .str c.credentialType),
    ("encrypted_secret", .str c.encryptedSecret), ("user_id", Json.ofText? c.userId),
    ("created_at", .str c.createdAt.text)]

def summary (c : Credential) : Json :=
  .obj [("id", .int c.id), ("provider", .str c.provider),
    ("credential_type", .str c.credentialType), ("user_id", Json.ofText? c.userId),
    ("created_at", .str c.createdAt.text)]

/-- The display form of a credential. It has every field but the sealed secret. -/
def display (c : Credential) : String :=
  let fields : Members := [("id", .int c.id), ("tenant_id", .str c.tenantId),
    ("client_id", .str c.clientId), ("provider", .str c.provider),
    ("credential_type", .str c.credentialType), ("user_id", Json.ofText? c.userId),
    ("created_at", .str c.createdAt.text)]
  "Credential(" ++ ", ".intercalate (fields.map fun (name, v) => name ++ "=" ++ v.literal) ++ ")"

end Credential

namespace Check

def read (v : Json) : Checked Check :=
  (Schema.record "VerificationCheck" v).andThen fun data =>
    mk <$> Schema.required data "key" Schema.text
      <*> Schema.required data "ok" Schema.truth
      <*> Schema.required data "detail" Schema.text

def toJson (c : Check) : Json :=
  .obj [("key", .str c.key), ("ok", .bool c.ok), ("detail", .str c.detail)]

end Check

namespace Verification

def read (v : Json) : Checked Verification :=
  (Schema.record "IntegrationVerification" v).andThen fun data =>
    mk <$> Schema.optional data "id" none (Schema.nullable Schema.integer)
      <*> Schema.required data "tenant_id" Schema.text
      <*> Schema.required data "client_id" Schema.text
      <*> Schema.required data "provider" Schema.text
      <*> Schema.required data "check_type" Schema.text
      <*> Schema.required data "status" (Schema.choice VerificationStatus.all VerificationStatus.label)
      <*> Schema.optional data "checks" [] (Schema.listOf Check.read)
      <*> Schema.optional data "evidence" [] Schema.dictionary
      <*> Schema.optional data "initiated_by" none (Schema.nullable Schema.text)
      <*> Schema.optional data "created_at" none (Schema.nullable Schema.moment)

def toJson (r : Verification) : Json :=
  .obj [("id", (r.id.map Json.int).getD .null), ("tenant_id", .str r.tenantId),
    ("client_id", .str r.clientId), ("provider", .str r.provider),
    ("check_type", .str r.checkType), ("status", .str r.status.label),
    ("checks", .arr (r.checks.map Check.toJson)), ("evidence", .obj r.evidence),
    ("initiated_by", Json.ofText? r.initiatedBy),
    ("created_at", Json.ofText? (r.createdAt.map (·.text)))]

end Verification

def Contract.read (v : Json) : Checked Contract :=
  (Schema.record "IntegrationContract" v).andThen fun data =>
    mk <$> Schema.required data "connected" Schema.truth
      <*> Schema.required data "verified" Schema.truth
      <*> Schema.required data "test_send_passed" Schema.truth
      <*> Schema.required data "stale" Schema.truth
      <*> Schema.required data "ready" Schema.truth

end Cadence.Integration
