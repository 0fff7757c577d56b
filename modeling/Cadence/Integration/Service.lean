import Cadence.Json.Shown
import Cadence.World

/-!
# The messaging integration of a client

Credentials are sealed before they are stored and opened only to send. A verification checks that the
credentials are there and, if it is live, sends a test message; every verification is put on record.
-/

namespace Cadence.Integration

def provider : String := "whatsapp"

/-- The type of the check that verifications are filed under, and the key of its last check. -/
def checkType : String := "test_send_live"

def defaultTemplate : String := "hello_world"

inductive CredentialField where
  | accessToken | phoneNumberId | accountId
deriving DecidableEq, Repr

def CredentialField.label : CredentialField → String
  | accessToken => "access_token"
  | phoneNumberId => "phone_number_id"
  | accountId => "waba_id"

structure Owner where
  tenantId : String
  clientId : String
deriving DecidableEq, Repr

def Owner.credentialKey (o : Owner) (field : CredentialField) : Storage.CredentialKey :=
  ⟨o.tenantId, o.clientId, provider, field.label⟩

def Owner.verificationKey (o : Owner) : Storage.VerificationKey :=
  ⟨o.tenantId, o.clientId, provider, checkType⟩

structure Service where
  cipher : Secret.Cipher
  client : Provider.Client
  allowLive : Bool := false
  maxAgeDays : Numeral := .whole 30
  defaultLanguage : String := "en_US"

/-- What a verification is asked to do. The texts can be given as any values. -/
structure VerifyRequest where
  recipient : Json
  mode : VerificationMode := .dryRun
  template : Json := .null
  language : Json := .null
  initiatedBy : Option String := none

structure Findings where
  status : VerificationStatus
  checks : List Check
  evidence : Members

namespace Service

variable {α : Type}

def save (s : Service) (o : Owner) (field : CredentialField) (secret : String)
    (userId : Option String) : Task (World α) Credential := do
  let token ← World.encrypt s.cipher secret
  World.store (Storage.CredentialStore.save (o.credentialKey field) token userId)

def current (o : Owner) (field : CredentialField) : Task (World α) (Option Credential) :=
  World.store (Storage.CredentialStore.current (o.credentialKey field))

def connect (s : Service) (o : Owner) (accessToken phoneNumberId : String)
    (accountId userId : Option String) : Task (World α) Json := do
  let credential ← s.save o .accessToken accessToken userId
  let _ ← s.save o .phoneNumberId phoneNumberId userId
  match accountId with
  | some id => if id ≠ "" then let _ ← s.save o .accountId id userId
  | none => pure ()
  return .obj [
    ("credential", credential.summary),
    ("sample_response", .obj [
      ("connected", .bool true),
      ("verified", .bool (phoneNumberId ≠ "")),
      ("test_send_passed", .bool false)])]

def rotate (s : Service) (o : Owner) (accessToken : String) (userId : Option String) :
    Task (World α) Json := do
  let credential ← s.save o .accessToken accessToken userId
  return .obj [("rotated", .bool true), ("credential", credential.summary)]

def latest (o : Owner) : Task (World α) (Option Verification) :=
  World.store (Storage.VerificationLog.latest o.verificationKey)

/-- The contract that follows from the newest verification and the stored credentials. -/
def evaluate (s : Service) (o : Owner) (newest : Option Verification) :
    Task (World α) Contract := do
  let token ← current o .accessToken
  let phone ← current o .phoneNumberId
  let evidence : Evidence := {
    hasAccessToken := token.isSome
    hasPhoneNumberId := phone.isSome
    latestOk := (newest.map fun r => decide (r.status = .passed)).getD false
    latestAt := ((newest.bind (·.createdAt)).map TimeSource.stamp).getD .absent }
  Contract.evaluate evidence (some s.maxAgeDays) .absent (← get).now

def contract (s : Service) (o : Owner) : Task (World α) Contract := do
  s.evaluate o (← latest o)

def summary (r : Verification) : Json :=
  .obj [("id", (r.id.map Json.int).getD .null), ("status", .str r.status.label),
    ("created_at", Json.ofText? (r.createdAt.map (·.text)))]

def status (s : Service) (o : Owner) : Task (World α) Json := do
  let newest ← latest o
  let contract ← s.evaluate o newest
  return .obj [("provider", .str provider), ("contract", contract.toJson),
    ("latest_verification", (newest.map summary).getD .null)]

def presence (key present absent : String) (found : Bool) : Check :=
  ⟨key, found, if found then present else absent⟩

/-- The trimmed text of a value, or another text if there is none. -/
def textOr (v : Json) (fallback : String) : Outcome String := do
  let text := Text.strip (← v.shownGiven)
  return if text = "" then fallback else text

/-- The test message that a verification sends. A template that is not given is the standard one. -/
def testMessage (s : Service) (r : VerifyRequest) : Outcome Provider.Message := do
  let recipient := Text.strip (← r.recipient.shownGiven)
  let template ← textOr r.template defaultTemplate
  return ⟨recipient, template, some (← textOr r.language s.defaultLanguage)⟩

/-- Sends the test message, and adds what comes of it to the findings. An error of the transport is a
finding, too. -/
def sendTest (s : Service) (token phone : String) (r : VerifyRequest) (checks : List Check)
    (evidence : Members) : Task (World α) Findings := do
  let sent : Task (World α) Provider.Response := do
    World.overLine (s.client.send token phone (← s.testMessage r))
  let failed (reason : String) : Check := ⟨checkType, false, "Live test-send failed (" ++ reason ++ ")."⟩
  match ← sent.attempt with
  | .error (.transport _ message) =>
    return ⟨.failed, checks ++ [failed message], evidence.set "error" (.str message)⟩
  | .error fault => throw fault
  | .ok response =>
    let evidence := (evidence.set "httpStatus" (.int response.status)).set "response" (.obj response.body)
    if response.isOk then
      return ⟨.passed, checks ++ [⟨checkType, true, "Live test-send succeeded."⟩], evidence⟩
    return ⟨.failed, checks ++ [failed (toString response.status)], evidence⟩

def putOnRecord (o : Owner) (initiatedBy : Option String) (f : Findings) :
    Task (World α) Verification :=
  World.store (Storage.VerificationLog.append {
    tenantId := o.tenantId
    clientId := o.clientId
    provider := provider
    checkType := checkType
    status := f.status
    checks := f.checks
    evidence := f.evidence
    initiatedBy := initiatedBy })

def isCipherFailure (f : Failure) : Bool := f.kind.lineage.contains .cipher

/-- Opens both credentials and sends the test message. Credentials that cannot be opened are put on
record before the failure is passed on. -/
def verifyLive (s : Service) (o : Owner) (r : VerifyRequest) (token phone : Credential)
    (checks : List Check) (evidence : Members) : Task (World α) Findings := do
  let secrets : Task (World α) (String × String) := do
    let token ← World.decrypt s.cipher token.encryptedSecret
    return (token, ← World.decrypt s.cipher phone.encryptedSecret)
  match ← secrets.attempt with
  | .ok (token, phone) => s.sendTest token phone r checks evidence
  | .error fault =>
    if let .failure f := fault then
      if isCipherFailure f then
        let check : Check := ⟨checkType, false, "Stored credential could not be decrypted."⟩
        let _ ← putOnRecord o r.initiatedBy
          ⟨.failed, checks ++ [check], evidence.set "error" (.str f.code)⟩
    throw fault

def findings (s : Service) (o : Owner) (r : VerifyRequest) : Task (World α) Findings := do
  let token ← current o .accessToken
  let phone ← current o .phoneNumberId
  let checks := [
    presence "connected" "Access token present." "Missing WhatsApp access token." token.isSome,
    presence "verified" "Phone number id present." "Missing WhatsApp phone number id." phone.isSome]
  let evidence : Members := [("mode", .str r.mode.label)]
  match token, phone, r.mode with
  | some token, some phone, .live =>
    if s.allowLive then s.verifyLive o r token phone checks evidence
    else
      let check : Check := ⟨checkType, false, "Live verification is disabled by VERIFY_ALLOW_LIVE=false."⟩
      return ⟨.failed, checks ++ [check], evidence⟩
  | some _, some _, .dryRun =>
    let check : Check :=
      ⟨checkType, false, "Dry run completed. Run mode=live to satisfy test-send pass contract."⟩
    return ⟨.incomplete, checks ++ [check], evidence⟩
  | _, _, _ => return ⟨.failed, checks, evidence⟩

def verify (s : Service) (o : Owner) (r : VerifyRequest) : Task (World α) (Bool × Verification) := do
  let f ← s.findings o r
  let record ← putOnRecord o r.initiatedBy f
  return (f.status = .passed, record)

end Service

end Cadence.Integration
