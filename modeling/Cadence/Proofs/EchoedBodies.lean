import Cadence.Proofs.ClientEffects
import Cadence.Proofs.HiddenRuns

/-!
# What is answered to a submitted token

A client submits an access token in the body of a request. Where the body is accepted, all tokens are answered alike.
Where it is refused because another field is missing, the answer has the whole body in it, and with it the token.
-/

namespace Cadence

open Storage Integration

/-! ### Objects with another value in one place -/

namespace Members

variable {members : Members} {name : String} {v v' : Json}

theorem set_get? (h : members.get? name = some v) : members.set name v = members := by
  induction members with
  | nil => cases h
  | cons member rest ih =>
    obtain ⟨other, old⟩ := member
    by_cases hother : other = name
    · rw [get?, if_pos hother] at h
      rw [set, if_pos hother, ← Option.some.inj h, hother]
    · rw [get?, if_neg hother] at h
      rw [set, if_neg hother, ih h]

theorem set_eq_iff (h : members.get? name = some v) : members.set name v' = members ↔ v' = v := by
  constructor
  · intro hsame
    have hset := get?_set_self members name v'
    rw [hsame, h] at hset
    exact (Option.some.inj hset).symm
  · rintro rfl
    exact set_get? h

end Members

namespace Json

variable {members : Members} {name : String} {v v' : Json}

theorem obstacle?_of_get? (hnone : membersObstacle? members = none) (h : members.get? name = some v) :
    v.obstacle? = none := by
  induction members with
  | nil => cases h
  | cons member rest ih =>
    obtain ⟨other, old⟩ := member
    rw [membersObstacle?, Option.or_eq_none_iff] at hnone
    rw [Members.get?] at h
    split at h
    · rw [← Option.some.inj h]
      exact hnone.1
    · exact ih hnone.2 h

theorem membersObstacle?_set (h : members.get? name = some v) (hv : v'.obstacle? = v.obstacle?) :
    membersObstacle? (members.set name v') = membersObstacle? members := by
  induction members with
  | nil => cases h
  | cons member rest ih =>
    obtain ⟨other, old⟩ := member
    by_cases hother : other = name
    · rw [Members.get?, if_pos hother] at h
      rw [Members.set, if_pos hother, membersObstacle?, membersObstacle?, hv, Option.some.inj h]
    · rw [Members.get?, if_neg hother] at h
      rw [Members.set, if_neg hother, membersObstacle?, membersObstacle?, ih h]

end Json

/-! ### Saved secrets -/

namespace Storage

/-- The databases have equally many credentials, or both have no tables. -/
def Database.SameLength (db db' : Database) : Prop :=
  db.tables.map (·.credentials.length) = db'.tables.map (·.credentials.length)

/-- What is told about a saved row does not depend on what is sealed in it. -/
theorem CredentialStore.save_alike (key : CredentialKey) (token token' : String) (userId : Option String)
    (now : Instant) :
    Task.Couples Database.SameLength (fun c c' => c.summary = c'.summary) (save key token userId now)
      (save key token' userId now) := by
  intro db db' hdb
  unfold Database.SameLength at hdb
  rcases ht : db.tables with _ | t <;> rcases ht' : db'.tables with _ | t' <;> rw [ht, ht'] at hdb
  · rw [runOn_save_none ht, runOn_save_none ht']
    refine ⟨.error _, ?_⟩
    unfold Database.SameLength
    rw [ht, ht']
  · cases hdb
  · cases hdb
  · have hlength : t.credentials.length = t'.credentials.length := Option.some.inj hdb
    rw [runOn_save _ _ _ ht, runOn_save _ _ _ ht']
    refine ⟨.ok ?_, congrArg some ?_⟩
    · unfold Tables.credentialRow
      rw [hlength]
      rfl
    · simp only [Tables.addCredential, List.length_append, List.length_singleton, hlength]

end Storage

namespace World

variable {α : Type}

/-- The worlds agree in all that is told about saved secrets: in the time, in what is drawn from the sources, and in
the number of credentials. -/
structure SameCounts (w w' : World α) : Prop where
  now : w.now = w'.now
  sources : w.sources = w'.sources
  noncesDrawn : w.noncesDrawn = w'.noncesDrawn
  identifiersDrawn : w.identifiersDrawn = w'.identifiersDrawn
  rows : w.database.SameLength w'.database

theorem sameCounts_refl (w : World α) : w.SameCounts w := ⟨rfl, rfl, rfl, rfl, rfl⟩

theorem encrypt_alike (cipher : Secret.Cipher) {secret secret' : String} (h : secret = "" ↔ secret' = "") :
    Task.Couples SameCounts (fun _ _ => True) (encrypt cipher secret : Task (World α) String)
      (encrypt cipher secret') := by
  intro w w' hw
  by_cases hempty : secret = ""
  · rw [hempty, h.mp hempty, runOn_encrypt_empty, runOn_encrypt_empty, hw.now]
    exact ⟨.error _, hw⟩
  · rw [runOn_encrypt cipher w hempty, runOn_encrypt cipher w' (mt h.mpr hempty)]
    exact ⟨.ok trivial, { hw with noncesDrawn := congrArg (· + 1) hw.noncesDrawn }⟩

theorem storeSave_alike (key : CredentialKey) (token token' : String) (userId : Option String) :
    Task.Couples SameCounts (fun c c' => c.summary = c'.summary)
      (store (CredentialStore.save key token userId) : Task (World α) Credential)
      (store (CredentialStore.save key token' userId)) := by
  intro w w' hw
  have hsaved := CredentialStore.save_alike key token token' userId w.now _ _ hw.rows
  have hlate : CredentialStore.save key token' userId w.now = CredentialStore.save key token' userId w'.now := by
    rw [hw.now]
  rw [hlate] at hsaved
  rw [runOn_store, runOn_store]
  exact ⟨hsaved.1, { hw with rows := hsaved.2 }⟩

end World

namespace Integration.Service

variable {α : Type} {s : Service} {o : Owner} {token token' : String}

theorem save_alike (field : CredentialField) {secret secret' : String} (h : secret = "" ↔ secret' = "")
    (userId : Option String) :
    Task.Couples World.SameCounts (fun c c' => c.summary = c'.summary)
      (s.save o field secret userId : Task (World α) Credential) (s.save o field secret' userId) :=
  (World.encrypt_alike s.cipher h).bind fun _ _ _ => World.storeSave_alike _ _ _ userId

theorem connect_alike (h : token = "" ↔ token' = "") (phone : String) (account user : Option String) :
    Task.Agrees World.SameCounts (s.connect o token phone account user : Task (World α) Json)
      (s.connect o token' phone account user) := by
  unfold Service.connect
  refine (save_alike .accessToken h user).bind_agrees fun credential credential' hsummary => ?_
  refine (save_alike .phoneNumberId Iff.rfl user).bind_agrees fun _ _ _ => ?_
  rw [hsummary]
  cases account with
  | none => exact Task.Agrees.pure _
  | some id =>
    dsimp only
    split
    · exact (save_alike .accountId Iff.rfl user).bind_agrees fun _ _ _ => Task.Agrees.pure _
    · exact Task.Agrees.pure _

theorem rotate_alike (h : token = "" ↔ token' = "") (user : Option String) :
    Task.Agrees World.SameCounts (s.rotate o token user : Task (World α) Json) (s.rotate o token' user) := by
  refine (save_alike .accessToken h user).bind_agrees fun credential credential' hsummary => ?_
  rw [hsummary]
  exact Task.Agrees.pure _

end Integration.Service

namespace Checked

variable {β γ : Type}

def issues : Checked β → List Issue
  | valid _ => []
  | faulty issues => issues

theorem issues_map (f : β → γ) (c : Checked β) : (c.map f).issues = c.issues := by
  cases c <;> rfl

theorem issues_apply (f : Checked (β → γ)) (c : Checked β) : (f.apply c).issues = f.issues ++ c.issues := by
  cases f <;> cases c <;> simp only [apply, issues, List.append_nil, List.nil_append]

end Checked

namespace Http

/-! ### Forms -/

def tokenName : String := CredentialField.accessToken.label

def phoneName : String := CredentialField.phoneNumberId.label

namespace Body

variable {β : Type} {form : Members → Checked β} {members : Members}

/-- The issues of a form, as they are found in a body. -/
def placed (issues : List Issue) : List Issue :=
  issues.map fun i => ⟨.field "body" :: i.place, asComplaint i.complaint⟩

theorem fill_valid {b : β} (h : form members = .valid b) : fill form (.json (.obj members)) = .valid b := by
  unfold fill
  dsimp only
  rw [h]
  rfl

theorem fill_faulty {issues : List Issue} (h : form members = .faulty issues) :
    fill form (.json (.obj members)) = .faulty (placed issues) := by
  unfold fill
  dsimp only
  rw [h]
  exact congrArg Checked.faulty List.map_map

end Body

/-- What a form with an access token asks for besides. -/
def CredentialForm.details (data : Members) : Checked (String × Option String) :=
  Prod.mk <$> Schema.required data phoneName (Schema.textOfLength 1)
    <*> Schema.optional data "waba_id" none (Schema.nullable Schema.text)

section Forms
variable {data : Members} {token : String} (h : data.get? tokenName = some (.str token)) (hgiven : token ≠ "")
include h hgiven

theorem required_token : Schema.required data tokenName (Schema.textOfLength 1) = .valid token := by
  have hlength : ¬token.length < 1 := by
    rw [Nat.lt_one_iff, String.length_eq_zero_iff]
    exact hgiven
  unfold Schema.required
  rw [h]
  simp only [Schema.textOfLength, Schema.text, Checked.andThen, if_neg hlength]
  rfl

theorem TokenForm.read_of_token : TokenForm.read data = .valid ⟨token⟩ := by
  have htoken := required_token h hgiven
  unfold TokenForm.read
  rw [show Schema.required data "access_token" (Schema.textOfLength 1) = .valid token from htoken]
  rfl

theorem CredentialForm.read_of_token :
    CredentialForm.read data = (details data).map fun (phone, account) => ⟨token, phone, account⟩ := by
  have htoken := required_token h hgiven
  unfold CredentialForm.read CredentialForm.details
  rw [show Schema.required data "access_token" (Schema.textOfLength 1) = .valid token from htoken]
  show (Checked.apply (Checked.apply (.valid _) (Schema.required data phoneName _)) _) =
    Checked.map _ (Checked.apply (Checked.map _ (Schema.required data phoneName _)) _)
  cases Schema.required data phoneName (Schema.textOfLength 1) <;>
    cases Schema.optional data "waba_id" none (Schema.nullable Schema.text) <;> rfl

end Forms

theorem CredentialForm.details_set (data : Members) (v : Json) : details (data.set tokenName v) = details data := by
  have hphone : (data.set tokenName v).get? phoneName = data.get? phoneName :=
    Members.get?_set_ne data v (by decide)
  have haccount : (data.set tokenName v).get? "waba_id" = data.get? "waba_id" :=
    Members.get?_set_ne data v (by decide)
  unfold details Schema.required Schema.optional
  rw [hphone, haccount]

/-! ### Issues and what they report -/

/-- An issue is about the value of a field other than the access token. -/
structure AboutOther (i : Issue) : Prop where
  given : Body.asComplaint i.complaint ≠ .missing
  elsewhere : ∃ name, name ≠ tokenName ∧ i.place = [.field name]

def missingPhone : Issue := ⟨[.field phoneName], .missing⟩

section Issues
variable {data : Members}

/-- A check finds fault with its value as it stands: no part of it is missing. -/
def Blames {β : Type} (c : Checked β) : Prop :=
  ∀ i ∈ c.issues, i.place = [] ∧ Body.asComplaint i.complaint ≠ .missing

theorem blames_complain {β : Type} {complaint : Complaint} (h : Body.asComplaint complaint ≠ .missing) :
    Blames (.complain complaint : Checked β) := by
  intro i hi
  rw [List.mem_singleton.mp hi]
  exact ⟨rfl, h⟩

theorem blames_textOfLength (least : Nat) (v : Json) : Blames (Schema.textOfLength least v) := by
  cases v with
  | str s =>
    simp only [Schema.textOfLength, Schema.text, Checked.andThen]
    split
    · exact blames_complain Complaint.noConfusion
    · exact fun i hi => absurd hi List.not_mem_nil
  | _ => exact blames_complain Complaint.noConfusion

theorem blames_nullable (v : Json) : Blames (Schema.nullable Schema.text v) := by
  cases v with
  | null | str _ => exact fun i hi => absurd hi List.not_mem_nil
  | _ => exact blames_complain (β := Option String) Complaint.noConfusion

theorem aboutOther_of_inside {β : Type} {c : Checked β} (h : Blames c) {name : String} (hname : name ≠ tokenName) :
    ∀ i ∈ (c.inside (.field name)).issues, AboutOther i := by
  cases c with
  | valid _ => exact fun i hi => absurd hi List.not_mem_nil
  | faulty own =>
    intro i hi
    obtain ⟨j, hj, rfl⟩ := List.mem_map.mp hi
    obtain ⟨hplace, hcomplaint⟩ := h j hj
    exact ⟨hcomplaint, name, hname, congrArg (Place.field name :: ·) hplace⟩

theorem aboutOther_of_optional (data : Members) :
    ∀ i ∈ (Schema.optional data "waba_id" none (Schema.nullable Schema.text)).issues, AboutOther i := by
  unfold Schema.optional
  cases data.get? "waba_id" with
  | none => exact fun i hi => absurd hi List.not_mem_nil
  | some v => exact aboutOther_of_inside (blames_nullable v) (by decide)

variable (data) in
theorem issues_details :
    (CredentialForm.details data).issues =
      (Schema.required data phoneName (Schema.textOfLength 1)).issues ++
        (Schema.optional data "waba_id" none (Schema.nullable Schema.text)).issues := by
  show (Checked.apply (Checked.map _ _) _).issues = _
  rw [Checked.issues_apply, Checked.issues_map]

/-- Where there is a phone number, fault is found with values only. -/
theorem aboutOther_of_details (h : data.get? phoneName ≠ none) :
    ∀ i ∈ (CredentialForm.details data).issues, AboutOther i := by
  obtain ⟨v, hphone⟩ := Option.ne_none_iff_exists'.mp h
  intro i hi
  rw [issues_details] at hi
  rcases List.mem_append.mp hi with hi | hi
  · unfold Schema.required at hi
    rw [hphone] at hi
    exact aboutOther_of_inside (blames_textOfLength 1 v) (by decide) i hi
  · exact aboutOther_of_optional data i hi

theorem details_of_missing (h : data.get? phoneName = none) :
    ∃ more, CredentialForm.details data = .faulty (missingPhone :: more) ∧ ∀ i ∈ more, AboutOther i := by
  have hrequired : Schema.required data phoneName (Schema.textOfLength 1) = .faulty [missingPhone] := by
    unfold Schema.required
    rw [h]
    rfl
  have hissues := issues_details data
  rw [hrequired] at hissues
  refine ⟨_, ?_, aboutOther_of_optional data⟩
  cases hdetails : CredentialForm.details data with
  | valid _ =>
    rw [hdetails] at hissues
    cases hissues
  | faulty issues =>
    rw [hdetails] at hissues
    exact congrArg Checked.faulty hissues

end Issues

/-- What is reported of the issues of a form in a body that is an object. -/
def report (members : Members) (issues : List Issue) : Json :=
  .obj [("detail", .arr ((Body.placed issues).map fun i => reportedIssue i (causeOf (.obj members) i)))]

theorem unprocessable_placed (members : Members) (issues : List Issue) :
    unprocessable (.json (.obj members)) (Body.placed issues) = Response.ofJson 422 (report members issues) := rfl

section Reports
variable {members : Members} {issues more : List Issue} {i : Issue}

theorem causeOf_aboutOther (h : AboutOther i) : ∃ name, name ≠ tokenName ∧ ∀ members : Members,
    causeOf (.obj members) ⟨.field "body" :: i.place, Body.asComplaint i.complaint⟩ =
      (members.get? name).getD .null := by
  obtain ⟨name, hname, hplace⟩ := h.elsewhere
  refine ⟨name, hname, fun members => ?_⟩
  unfold causeOf
  dsimp only
  rw [if_neg h.given, hplace]
  rfl

/-- What is reported does not depend on the token, unless something is missing. -/
theorem report_set (h : ∀ i ∈ issues, AboutOther i) (v : Json) :
    report (members.set tokenName v) issues = report members issues := by
  unfold report Body.placed
  rw [List.map_map, List.map_map]
  have hsame : ∀ i ∈ issues, causeOf (.obj (members.set tokenName v))
      ⟨.field "body" :: i.place, Body.asComplaint i.complaint⟩ =
      causeOf (.obj members) ⟨.field "body" :: i.place, Body.asComplaint i.complaint⟩ := by
    intro i hi
    obtain ⟨name, hname, hcause⟩ := causeOf_aboutOther (h i hi)
    rw [hcause, hcause, Members.get?_set_ne members v hname]
  refine congrArg (fun reports => Json.obj [("detail", .arr reports)]) (List.map_congr_left fun i hi => ?_)
  simp only [Function.comp_apply, hsame i hi]

/-- Where the phone number is missing, the first report has the whole object in it. -/
theorem valueAt_report : valueAt (report members (missingPhone :: more)) [.field "detail", .item 0, .field "input"] =
    .obj members := rfl

theorem itemsObstacle?_fields (names : List String) :
    Json.itemsObstacle? ((names.map Place.field).map Place.toJson) = none := by
  induction names with
  | nil => rfl
  | cons name rest ih => exact ih

theorem obstacle?_reportedIssue {i : Issue} {names : List String} (h : i.place = names.map Place.field) (input : Json) :
    (reportedIssue i input).obstacle? = input.obstacle? := by
  simp only [reportedIssue, h, Json.obstacle?, Json.membersObstacle?, itemsObstacle?_fields, Option.none_or,
    Option.or_none]

/-- What keeps the report from being written is what keeps the object in it from being written. -/
theorem obstacle?_report (hmore : ∀ i ∈ more, AboutOther i) :
    (report members (missingPhone :: more)).obstacle? = (Json.obj members).obstacle? := by
  have hrest (hnone : Json.membersObstacle? members = none) : Json.itemsObstacle? ((Body.placed more).map fun i =>
      reportedIssue i (causeOf (.obj members) i)) = none := by
    induction more with
    | nil => rfl
    | cons i rest ih =>
      obtain ⟨hi, hrest⟩ := List.forall_mem_cons.mp hmore
      obtain ⟨name, -, hcause⟩ := causeOf_aboutOther hi
      obtain ⟨field, -, hplace⟩ := hi.elsewhere
      have hinput : ((members.get? name).getD .null).obstacle? = none := by
        cases hvalue : members.get? name with
        | none => rfl
        | some v => exact Json.obstacle?_of_get? hnone hvalue
      have hissue : (Place.field "body" :: i.place) = ["body", field].map Place.field := by rw [hplace]; rfl
      rw [Body.placed, List.map_cons, List.map_cons, Json.itemsObstacle?, obstacle?_reportedIssue hissue, hcause,
        hinput, Option.none_or]
      exact ih hrest
  have hfirst : (report members (missingPhone :: more)).obstacle? =
      (Json.obj members).obstacle?.or (Json.itemsObstacle? ((Body.placed more).map fun i =>
        reportedIssue i (causeOf (.obj members) i))) := by
    have hissue : (Place.field "body" :: missingPhone.place) = ["body", phoneName].map Place.field := rfl
    show ((Json.obstacle? (reportedIssue _ _)).or (Json.itemsObstacle? _)).or none = _
    rw [obstacle?_reportedIssue hissue, Option.or_none]
    rfl
  rw [hfirst]
  cases hobstacle : (Json.obj members).obstacle? with
  | some fault => rfl
  | none => exact hrest hobstacle

end Reports

/-! ### Answers of a server -/

variable {α : Type} {s : Server α} {r : Request} {requestId : String} {w : World α}

theorem identify_ok (r : Request) (w : World α) : ∃ id, ((identify r).runOn w).1 = .ok id := by
  unfold identify
  cases r.ownId? with
  | some id => exact ⟨id, rfl⟩
  | none => exact ⟨_, rfl⟩

/-- A failure that cannot be written is answered as any other error. -/
theorem respondTo_failureResponse (f : Failure) (requestId : String) :
    ∃ response, respondTo requestId (failureResponse f requestId) = .ok response := by
  rw [failureResponse, failureBody_eq]
  cases hobstacle : firstObstacle? (f.toldDetails ++ f.context) with
  | none => exact ⟨_, rfl⟩
  | some fault =>
    have hunwritten : fault.Unwritten := unwritten_of_firstObstacle? hobstacle
    cases hunwritten <;> exact ⟨_, rfl⟩

theorem handle_answers (s : Server α) (r : Request) (requestId : String) (w : World α) :
    ∃ response, respondTo requestId ((s.handle r requestId).runOn w).1 = .ok response := by
  unfold Server.handle
  rcases hroute : (s.route r).runOn w with ⟨fault | response, w'⟩ <;> rw [Task.runOn_attempt_bind hroute]
  · cases fault with
    | failure f =>
      exact respondTo_failureResponse f requestId
    | _ => exact ⟨_, rfl⟩
  · exact ⟨response, rfl⟩

/-- Whatever becomes of a request, it is answered. -/
theorem serve_answers (s : Server α) (r : Request) (w : World α) :
    ∃ response, ((s.serve r).runOn w).1 = .ok response := by
  obtain ⟨id, hid⟩ := identify_ok r w
  obtain ⟨w₁, hidentify, -, -⟩ := identify_keeps hid
  obtain ⟨response, hresponse⟩ := handle_answers s r id
    { w₁ with logContext := Members.setAll w₁.logContext (r.logFields id) }
  have henvelop : ((envelop r (s.handle r)).runOn w).1 = .ok { response with requestId := some id } :=
    runOn_envelop hidentify rfl hresponse
  unfold Server.serve
  rw [Task.runOn_bind]
  rcases hrun : (envelop r (s.handle r)).runOn w with ⟨f | answer, w'⟩ <;> rw [hrun] at henvelop
  · cases henvelop
  · exact ⟨_, rfl⟩

theorem identify_alike (r : Request) :
    Task.Agrees World.SameCounts (identify r : Task (World α) String) (identify r) := by
  unfold identify
  cases r.ownId? with
  | some id => exact Task.Agrees.pure id
  | none =>
    intro w w' hw
    have hdrawn : w.sources.identifier w.identifiersDrawn = w'.sources.identifier w'.identifiersDrawn := by
      rw [hw.sources, hw.identifiersDrawn]
    exact ⟨congrArg Except.ok hdrawn, { hw with identifiersDrawn := congrArg (· + 1) hw.identifiersDrawn }⟩

/-- Requests that differ in their bodies are answered alike if they are routed alike. -/
theorem serve_alike {body : String}
    (h : Task.Agrees World.SameCounts (s.route r) (s.route { r with body := body })) :
    Task.Agrees World.SameCounts (s.serve r) (s.serve { r with body := body }) := by
  have hlog (f : Members → Members) : Task.Agrees World.SameCounts
      (modify fun w => { w with logContext := f w.logContext } : Task (World α) PUnit)
      (modify fun w => { w with logContext := f w.logContext }) := fun _ _ hw => ⟨rfl, { hw with }⟩
  have hhandle (id : String) : Task.Agrees World.SameCounts (s.handle r id) (s.handle { r with body := body } id) := by
    refine h.attempt.bind fun outcome => ?_
    rcases outcome with fault | response
    · cases fault <;> exact Task.Agrees.lift _
    · exact Task.Agrees.pure response
  have henvelop : Task.Agrees World.SameCounts (envelop r (s.handle r))
      (envelop { r with body := body } (s.handle { r with body := body })) := by
    refine (identify_alike r).bind fun id => ?_
    refine (hlog fun context => Members.setAll context (r.logFields id)).bind fun _ => ?_
    refine (hhandle id).attempt.bind fun outcome => ?_
    refine (hlog fun _ => []).bind fun _ => ?_
    exact (Task.Agrees.lift (respondTo id outcome)).bind fun response => Task.Agrees.pure _
  exact henvelop.bind fun response => Task.Agrees.pure _

/-! ### Submitted tokens -/

/-- A client submits an access token in an object: to connect, or in place of the token that it has. -/
structure Submits (r : Request) (endpoint : Endpoint) (members : Members) (token : String) : Prop where
  method : r.method = "POST"
  route : Route.find? r.path = some ⟨"POST", endpoint⟩
  submission : (∃ id, endpoint = .connect id) ∨ ∃ id, endpoint = .rotate id
  body : Body.read r = .ok (.json (.obj members))
  submitted : members.get? tokenName = some (.str token)
  given : token ≠ ""

/-- The answer has the submitted object in it: a client that names its tenant connects without a phone number, and
all numbers in the object can be written down. -/
structure Echoes (s : Server α) (r : Request) (endpoint : Endpoint) (members : Members) : Prop where
  named : Text.strip ((r.header? tenantHeader).getD "") ≠ ""
  started : s.application.isSome
  connects : ∃ id, endpoint = .connect id
  incomplete : members.get? phoneName = none
  written : (Json.obj members).obstacle? = none

section Submitted
variable {endpoint : Endpoint} {members : Members} {token body token' : String} {issues : List Issue}

theorem route_of_submits (h : Submits r endpoint members token) : s.route r = s.answer r endpoint := by
  have hmethod : r.method ≠ "OPTIONS" := by
    rw [h.method]
    decide
  rw [Server.route, preflight?_of_method s.settings hmethod, h.route]
  simp only [h.method, if_true]

theorem unprocessable_set (hissues : CredentialForm.details members = .faulty issues)
    (h : members.get? tokenName = some (.str token))
    (hunechoed : members.get? phoneName = none → (Json.obj members).obstacle? ≠ none) (token' : String) :
    Response.ofJson 422 (report (members.set tokenName (.str token')) issues) =
      Response.ofJson 422 (report members issues) := by
  by_cases hphone : members.get? phoneName = none
  · -- Neither of the reports can be written down.
    obtain ⟨more, hdetails, hmore⟩ := details_of_missing hphone
    obtain rfl : missingPhone :: more = issues := Checked.faulty.inj (hdetails.symm.trans hissues)
    obtain ⟨fault, hfault⟩ := Option.ne_none_iff_exists'.mp (hunechoed hphone)
    have hset : Json.membersObstacle? (members.set tokenName (.str token')) = Json.membersObstacle? members :=
      Json.membersObstacle?_set h rfl
    have hfault' : (Json.obj (members.set tokenName (.str token'))).obstacle? = some fault := hset.trans hfault
    unfold Response.ofJson
    rw [obstacle?_report hmore, obstacle?_report hmore, hfault, hfault']
  · have hothers := aboutOther_of_details hphone
    rw [hissues] at hothers
    exact congrArg (Response.ofJson 422) (report_set hothers _)

theorem withTenant_alike {next next' : String → Task (World α) Response}
    (h : Text.strip ((r.header? tenantHeader).getD "") ≠ "" →
      ∀ tenant, Task.Agrees World.SameCounts (next tenant) (next' tenant)) :
    Task.Agrees World.SameCounts (Server.withTenant r next) (Server.withTenant { r with body := body } next') := by
  have hheader : Request.header? { r with body := body } tenantHeader = r.header? tenantHeader := rfl
  unfold Server.withTenant
  rw [hheader]
  dsimp only
  split
  · exact Task.Agrees.pure _
  · rename_i hnamed
    exact h hnamed _

theorem withApplication_alike (part : String) {next next' : Application α → Task (World α) Response}
    (h : s.application.isSome → ∀ app, Task.Agrees World.SameCounts (next app) (next' app)) :
    Task.Agrees World.SameCounts (s.withApplication part next) (s.withApplication part next') := by
  unfold Server.withApplication
  cases happ : s.application with
  | none => exact Task.Agrees.pure _
  | some app => exact h (happ ▸ rfl) app

theorem result_alike {t t' : Task (World α) Json} (h : Task.Agrees World.SameCounts t t') :
    Task.Agrees World.SameCounts (Response.result <$> t) (Response.result <$> t') := by
  rw [map_eq_pure_bind, map_eq_pure_bind]
  exact h.bind fun v => Task.Agrees.pure _

/-- Where the body is not in the answer, the token has no influence on it. -/
theorem route_alike (h : Submits r endpoint members token)
    (h' : Submits { r with body := body } endpoint (members.set tokenName (.str token')) token')
    (hunechoed : ¬Echoes s r endpoint members) :
    Task.Agrees World.SameCounts (s.route r) (s.route { r with body := body }) := by
  have hgiven : token = "" ↔ token' = "" := iff_of_false h.given h'.given
  rw [route_of_submits h, route_of_submits h']
  rcases h.submission with ⟨id, rfl⟩ | ⟨id, rfl⟩
  · simp only [Server.answer, Server.withBody, h.body, h'.body]
    refine withTenant_alike fun hnamed tenant => withApplication_alike _ fun hstarted app => ?_
    have hread := CredentialForm.read_of_token h.submitted h.given
    have hread' := CredentialForm.read_of_token h'.submitted h'.given
    rw [CredentialForm.details_set] at hread'
    unfold Server.withForm
    cases hdetails : CredentialForm.details members with
    | valid rest =>
      rw [hdetails] at hread hread'
      rw [Body.fill_valid hread, Body.fill_valid hread']
      exact result_alike (Service.connect_alike hgiven _ _ _)
    | faulty issues =>
      rw [hdetails] at hread hread'
      rw [Body.fill_faulty hread, Body.fill_faulty hread']
      have hunwritten (hphone : members.get? phoneName = none) : (Json.obj members).obstacle? ≠ none :=
        fun hwritten => hunechoed ⟨hnamed, hstarted, ⟨id, rfl⟩, hphone, hwritten⟩
      dsimp only
      rw [unprocessable_placed, unprocessable_placed, unprocessable_set hdetails h.submitted hunwritten]
      exact Task.Agrees.lift _
  · simp only [Server.answer, Server.withBody, h.body, h'.body]
    refine withTenant_alike fun _ tenant => withApplication_alike _ fun _ app => ?_
    unfold Server.withForm
    rw [Body.fill_valid (TokenForm.read_of_token h.submitted h.given),
      Body.fill_valid (TokenForm.read_of_token h'.submitted h'.given)]
    exact result_alike (Service.rotate_alike hgiven _)

/-- A body that is refused for a missing phone number is answered with the whole body. -/
theorem serve_echo (h : Submits r endpoint members token) (hechoes : Echoes s r endpoint members)
    (hid : ((identify r).runOn w).1 = .ok requestId) :
    ((s.serve r).runOn w).1 =
      .ok ⟨422, .json (report members (CredentialForm.details members).issues), some requestId⟩ := by
  obtain ⟨id, rfl⟩ := hechoes.connects
  obtain ⟨app, hstarted⟩ := Option.isSome_iff_exists.mp hechoes.started
  obtain ⟨more, hdetails, hmore⟩ := details_of_missing hechoes.incomplete
  obtain ⟨w₁, hidentify, -, -⟩ := identify_keeps hid
  let entered : World α := { w₁ with logContext := Members.setAll w₁.logContext (r.logFields requestId) }
  let refused : Response := ⟨422, .json (report members (missingPhone :: more)), none⟩
  have hread := CredentialForm.read_of_token h.submitted h.given
  rw [hdetails] at hread ⊢
  have hrefused : Response.ofJson 422 (report members (missingPhone :: more)) = .ok refused := by
    unfold Response.ofJson
    rw [obstacle?_report hmore, hechoes.written]
  have hroute : (s.route r).runOn entered = (.ok refused, entered) := by
    rw [route_of_submits h]
    simp only [Server.answer, Server.withBody, h.body, Server.withTenant, if_neg hechoes.named,
      Server.withApplication, hstarted, Server.withForm]
    rw [Body.fill_faulty hread]
    dsimp only
    rw [unprocessable_placed, hrefused]
    rfl
  have hhandle : (s.handle r requestId).runOn entered = (.ok refused, entered) := by
    rw [Server.handle, Task.runOn_attempt_bind hroute]
    rfl
  have hmethod : r.method ≠ "HEAD" := by
    rw [h.method]
    decide
  exact serve_of_envelop hmethod (runOn_envelop hidentify hhandle rfl)

end Submitted

/-- Every request that submits an access token is answered. The answers to two tokens in an otherwise equal object
are the same, unless a client that names its tenant connects without a phone number: then the answer is that the
phone number is missing, and shows the whole object, as long as all numbers in the object can be written down. -/
theorem token_answers_eq_iff (s : Server α) (r : Request) (endpoint : Endpoint) (members : Members) (token : String)
    (h : Submits r endpoint members token) (body token' : String) (hgiven : token' ≠ "")
    (hbody : Body.read { r with body := body } = .ok (.json (.obj (members.set tokenName (.str token')))))
    (w : World α) :
    let answer := ((s.serve r).runOn w).1
    let answer' := ((s.serve { r with body := body }).runOn w).1
    (∃ response, answer = .ok response) ∧ (∃ response, answer' = .ok response) ∧
    (answer = answer' ↔ token = token' ∨ ¬Echoes s r endpoint members) ∧
    (Echoes s r endpoint members → ∃ v id, answer = .ok ⟨422, .json v, some id⟩ ∧
      valueAt v [.field "detail", .item 0, .field "input"] = .obj members) := by
  intro answer answer'
  have h' : Submits { r with body := body } endpoint (members.set tokenName (.str token')) token' :=
    ⟨h.method, h.route, h.submission, hbody, Members.get?_set_self _ _ _, hgiven⟩
  obtain ⟨id, hid⟩ := identify_ok r w
  have hecho (hechoes : Echoes s r endpoint members) := serve_echo h hechoes hid
  refine ⟨serve_answers s r w, serve_answers s _ w, ?_, fun hechoes => ?_⟩
  · by_cases hechoes : Echoes s r endpoint members
    · have hphone : (members.set tokenName (.str token')).get? phoneName = none :=
        (Members.get?_set_ne members _ (by decide)).trans hechoes.incomplete
      have hset : (Json.obj (members.set tokenName (.str token'))).obstacle? = (Json.obj members).obstacle? :=
        Json.membersObstacle?_set h.submitted rfl
      have hechoes' : Echoes s { r with body := body } endpoint (members.set tokenName (.str token')) :=
        ⟨hechoes.named, hechoes.started, hechoes.connects, hphone, hset.trans hechoes.written⟩
      have hanswer' : answer' = _ := serve_echo h' hechoes' hid
      obtain ⟨more, hdetails, -⟩ := details_of_missing hechoes.incomplete
      rw [show answer = _ from hecho hechoes, hanswer', CredentialForm.details_set, hdetails]
      refine ⟨fun hsame => .inl ?_, fun hor => ?_⟩
      · have hreports := Content.json.inj (Response.mk.inj (Except.ok.inj hsame)).2.1
        have hobjects : Json.obj members = .obj (members.set tokenName (.str token')) :=
          congrArg (valueAt · [.field "detail", .item 0, .field "input"]) hreports
        have hmembers := (Json.obj.inj hobjects).symm
        exact (Json.str.inj ((Members.set_eq_iff h.submitted).mp hmembers)).symm
      · obtain rfl := hor.resolve_right (not_not_intro hechoes)
        rw [Members.set_get? h.submitted]
    · exact iff_of_true (serve_alike (route_alike h h' hechoes) w w (World.sameCounts_refl w)).1 (.inr hechoes)
  · obtain ⟨more, hdetails, -⟩ := details_of_missing hechoes.incomplete
    refine ⟨_, id, hecho hechoes, ?_⟩
    rw [hdetails]
    exact valueAt_report

/-- A client connects with a body. -/
def connectRequest (body : String) : Request where
  method := "POST"
  path := "/api/v1/clients/client/credentials/whatsapp"
  headers := [(tenantHeader, "tenant"), (requestIdHeader, "request"), ("Content-Type", "application/json")]
  body := body

theorem read_connectRequest {body : String} {v : Json} (hgiven : body ≠ "") (hmark : Body.withoutMark body = body)
    (hread : Json.read body = .ok v) : Body.read (connectRequest body) = .ok (.json v) := by
  have hheader : (connectRequest body).header? "Content-Type" = some "application/json" := by rfl
  have htype : isJsonType "application/json" = true := by decide
  have hunmarked : Body.withoutMark (connectRequest body).body = body := hmark
  unfold Body.read
  rw [if_neg (show (connectRequest body).body ≠ "" from hgiven), hheader, Option.getD_some, htype,
    if_neg (by decide), hunmarked, hread]

theorem connectRequest_submits {body token : String} {members : Members} (hgiven : body ≠ "")
    (hmark : Body.withoutMark body = body) (hread : Json.read body = .ok (.obj members))
    (hsubmitted : members.get? tokenName = some (.str token)) (htoken : token ≠ "") :
    Submits (connectRequest body) (.connect "client") members token where
  method := rfl
  route := by
    show Route.find? "/api/v1/clients/client/credentials/whatsapp" = _
    decide
  submission := .inl ⟨"client", rfl⟩
  body := read_connectRequest hgiven hmark hread
  submitted := hsubmitted
  given := htoken

/-- With a phone number, two tokens are answered alike. -/
theorem token_answers_eq_connected :
    let first := connectRequest "\x7b\"access_token\": \"first\", \"phone_number_id\": \"1\"\x7d"
    let second := connectRequest "\x7b\"access_token\": \"second\", \"phone_number_id\": \"1\"\x7d"
    ((startedServer.serve first).runOn Application.emptyWorld).1 =
      ((startedServer.serve second).runOn Application.emptyWorld).1 := by
  intro first second
  have hsubmits : Submits first (.connect "client")
      [("access_token", .str "first"), ("phone_number_id", .str "1")] "first" :=
    connectRequest_submits (by decide) (by cbv) (by cbv) rfl (by decide)
  obtain ⟨-, -, hsame, -⟩ := token_answers_eq_iff startedServer first _ _ _ hsubmits second.body "second" (by decide)
    (read_connectRequest (by decide) (by cbv) (by cbv)) Application.emptyWorld
  exact hsame.mpr (.inr fun hechoes => by cases hechoes.incomplete)

theorem serve_withoutPhone {body token : String} (h : Submits (connectRequest body) (.connect "client")
    [("access_token", .str token)] token) :
    ((startedServer.serve (connectRequest body)).runOn Application.emptyWorld).1 =
      .ok ⟨422, .json (report [("access_token", .str token)] [missingPhone]), some "request"⟩ := by
  have hheader : (connectRequest body).header? tenantHeader = some "tenant" := by rfl
  have hnamed : Text.strip (((connectRequest body).header? tenantHeader).getD "") ≠ "" := by
    rw [hheader]
    decide
  exact serve_echo h ⟨hnamed, rfl, ⟨_, rfl⟩, rfl, rfl⟩ rfl

/-- Without a phone number, the token that a client submits is shown in the answer. -/
theorem submitted_token_shown :
    let first := connectRequest "\x7b\"access_token\": \"first\"\x7d"
    let second := connectRequest "\x7b\"access_token\": \"second\"\x7d"
    ∃ v v',
      ((startedServer.serve first).runOn Application.emptyWorld).1 = .ok ⟨422, .json v, some "request"⟩ ∧
      ((startedServer.serve second).runOn Application.emptyWorld).1 = .ok ⟨422, .json v', some "request"⟩ ∧
      valueAt v [.field "detail", .item 0, .field "input", .field "access_token"] = .str "first" ∧
      valueAt v' [.field "detail", .item 0, .field "input", .field "access_token"] = .str "second" ∧
      ((startedServer.serve first).runOn Application.emptyWorld).1 ≠
        ((startedServer.serve second).runOn Application.emptyWorld).1 := by
  intro first second
  have hfirst : Submits first (.connect "client") [("access_token", .str "first")] "first" :=
    connectRequest_submits (by decide) (by cbv) (by cbv) rfl (by decide)
  have hsecond : Submits second (.connect "client") [("access_token", .str "second")] "second" :=
    connectRequest_submits (by decide) (by cbv) (by cbv) rfl (by decide)
  refine ⟨_, _, serve_withoutPhone hfirst, serve_withoutPhone hsecond, rfl, rfl, fun hsame => ?_⟩
  have hreports := Except.ok.inj ((serve_withoutPhone hfirst).symm.trans (hsame.trans (serve_withoutPhone hsecond)))
  have htokens : Json.str "first" = .str "second" :=
    congrArg (valueAt · [.field "detail", .item 0, .field "input", .field "access_token"])
      (Content.json.inj (Response.mk.inj hreports).2.1)
  exact absurd (Json.str.inj htokens) (by decide)

end Http

end Cadence
